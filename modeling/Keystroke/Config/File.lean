import Keystroke.Config.Format
import Keystroke.FileSystem.Basic

/-!
# Settings in files

Settings are loaded from a file and saved to one. A file that is missing gives the standard
settings. Without a path of its own the file is in the user's directory for configuration, which
the environment names.
-/

namespace Keystroke

abbrev Environment := List (String × String)

/-- Why settings could not be loaded or saved. -/
inductive ConfigError where
  /-- The environment names no directory for configuration. -/
  | noDirectory
  | file (path : String) (error : FileError)
  /-- The document is malformed, or a value in it is not of its kind. -/
  | malformed
  | unwritable
  deriving DecidableEq, Repr

/-- The text that tells a user about the error, where it depends on nothing but the error. -/
def ConfigError.message? : ConfigError → Option String
  | noDirectory => some "could not determine platform config directory"
  | file path error => some ("I/O error accessing config at " ++ path ++ ": " ++ error.message)
  | malformed | unwritable => none

namespace Settings

def directory (env : Environment) : Except ConfigError String :=
  match env.lookup "XDG_CONFIG_HOME", env.lookup "HOME" with
  | some base, _ => .ok (Path.join base "typr-io")
  | none, some home => .ok (Path.join (Path.join home ".config") "typr-io")
  | none, none => .error .noDirectory

def filePath (env : Environment) : Except ConfigError String :=
  (directory env).map fun dir => Path.join dir "config.toml"

def load (fs : FileSystem) (path : String) : Except ConfigError Settings :=
  match fs.readText path with
  | .ok document =>
    match parse? document with
    | some s => .ok s
    | none => .error .malformed
  | .error e => if e.isNotFound then .ok {} else .error (.file path e)

def save (s : Settings) (fs : FileSystem) (path : String) : FileSystem × Except ConfigError Unit :=
  let (fs, made) : FileSystem × Except ConfigError Unit :=
    match Path.parent? path with
    | none => (fs, .ok ())
    | some dir =>
      match fs.createDirAll dir with
      | (fs, .ok ()) => (fs, .ok ())
      | (fs, .error e) => (fs, .error (.file dir e))
  match made with
  | .error e => (fs, .error e)
  | .ok () =>
    match s.render? with
    | none => (fs, .error .unwritable)
    | some document =>
      match fs.writeFile path document.toUTF8 with
      | .ok fs => (fs, .ok ())
      | .error e => (fs, .error (.file path e))

def loadStandard (fs : FileSystem) (env : Environment) : Except ConfigError Settings := do
  load fs (← filePath env)

def saveStandard (s : Settings) (fs : FileSystem) (env : Environment) :
    FileSystem × Except ConfigError Unit :=
  match filePath env with
  | .ok path => s.save fs path
  | .error e => (fs, .error e)

end Settings

end Keystroke
