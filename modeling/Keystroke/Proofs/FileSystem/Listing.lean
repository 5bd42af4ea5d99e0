import Keystroke.Proofs.FileSystem.Writing
import Mathlib.Data.List.Nodup

/-!
# What a directory lists

A file system is a table, and a proper one has at most one entry for each place. It begins so, and
whatever is created or removed keeps it so. A directory of a proper file system lists no name twice.

## Main statements

- `Proper.writeFile`, `Proper.createDirAll`, `Proper.removeFile`: a proper file system stays proper.
- `nodup_of_list`: the names in a directory are distinct.
-/

namespace Keystroke

namespace FileSystem

/-- No place has two entries. -/
def Proper (fs : FileSystem) : Prop := (fs.nodes.map (·.1)).Nodup

instance (fs : FileSystem) : Decidable fs.Proper := inferInstanceAs (Decidable (List.Nodup _))

theorem proper_new : ({} : FileSystem).Proper := by decide

variable {fs : FileSystem}

theorem Proper.put (h : fs.Proper) (place : Place) (node : FileNode) :
    (fs.put place node).Proper := by
  show (place :: (fs.nodes.filter (·.1 ≠ place)).map (·.1)).Nodup
  rw [List.nodup_cons]
  constructor
  · intro hmem
    obtain ⟨entry, hentry, hplace⟩ := List.mem_map.1 hmem
    have hne := (List.mem_filter.1 hentry).2
    simp [hplace] at hne
  · have hsub : (fs.nodes.filter (·.1 ≠ place)).Sublist fs.nodes := List.filter_sublist
    exact List.Nodup.sublist (hsub.map _) h

theorem Proper.removeTree (h : fs.Proper) (place : Place) : (fs.removeTree place).Proper := by
  have hsub : (fs.removeTree place).nodes.Sublist fs.nodes := List.filter_sublist
  exact List.Nodup.sublist (hsub.map _) h

theorem Proper.writeFile (h : fs.Proper) {fs' : FileSystem} {path : String} {content : ByteArray}
    (hw : fs.writeFile path content = .ok fs') : fs'.Proper := by
  obtain ⟨target, -, rfl⟩ := exists_of_writeFile hw
  exact h.put target _

theorem Proper.createDirAll (h : fs.Proper) (path : String) : (fs.createDirAll path).1.Proper :=
  createDirAll_induction (fun h _ => h.put _ _) h path

theorem Proper.removeFile (h : fs.Proper) (path : String) : (fs.removeFile path).Proper := by
  unfold FileSystem.removeFile
  split
  next place _ => exact h.removeTree place
  next => exact h

/-- The name of a place in a directory, if that is where the place is. -/
def nameIn (dir place : Place) : Option String :=
  if place.dropLast = dir ∧ place ≠ [] then place.getLast? else none

theorem eq_of_nameIn {dir place : Place} {name : String} (h : nameIn dir place = some name) :
    place = dir ++ [name] := by
  unfold nameIn at h
  split at h
  next hdir =>
    have hlast := List.dropLast_append_getLast? name h
    rw [hdir.1] at hlast
    exact hlast.symm
  next => cases h

/-- The names in a directory are distinct. -/
theorem nodup_of_list (h : fs.Proper) {path : String} {names : List String}
    (hl : fs.list path = .ok names) : names.Nodup := by
  unfold FileSystem.list at hl
  cases hr : fs.resolve path with
  | error e => rw [hr] at hl; cases hl
  | ok dir =>
    rw [hr] at hl
    cases hd : fs.requireDir dir with
    | error e => simp only [bind, Except.bind, hd] at hl; cases hl
    | ok _ =>
      simp only [bind, Except.bind, hd, pure, Except.pure, Except.ok.injEq] at hl
      have hnames : names = (fs.nodes.map (·.1)).filterMap (nameIn dir) := by
        rw [List.filterMap_map, ← hl]
        rfl
      rw [hnames]
      refine List.Nodup.filterMap ?_ h
      -- the name together with the directory gives the place back
      intro place place' name hname hname'
      rw [eq_of_nameIn hname, eq_of_nameIn hname']

end FileSystem

end Keystroke
