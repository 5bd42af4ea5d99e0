import Keystroke.CommandLine.Run

/-!
# The program

The command line as a process. The process reads its environment and the file with the settings.
It can reach neither the interface for virtual devices nor the input devices, so to it both seem
to be missing.
-/

open Keystroke

namespace Keystroke.CommandLine

def environment : IO Environment := do
  let names := ["XDG_CONFIG_HOME", "HOME"]
  let values ← names.mapM fun name => return (← IO.getEnv name).map fun value => (name, value)
  return values.filterMap id

/-- A file system in which there is only the file at a path, if it can be read. -/
def snapshot (path : String) : IO FileSystem := do
  let fs : FileSystem := {}
  try
    let content ← IO.FS.readBinFile path
    let fs := match Path.parent? path with
      | some dir => (fs.createDirAll dir).1
      | none => fs
    return (fs.writeFile path content).toOption.getD fs
  catch _ => return fs

def machine (args : List String) : IO Machine := do
  let env ← environment
  let path := match parse args with
    | .run o => settingsPath? env o
    | _ => none
  let fs ← match path with
    | some path => snapshot path
    | none => pure {}
  return { env, host := { uinput := { refusal := some .notFound } }, input := { fs } }

end Keystroke.CommandLine

def main (args : List String) : IO UInt32 := do
  let outcome := CommandLine.run (← CommandLine.machine args) args
  IO.print outcome.stdout
  IO.eprint outcome.stderr
  return outcome.exit.toUInt32
