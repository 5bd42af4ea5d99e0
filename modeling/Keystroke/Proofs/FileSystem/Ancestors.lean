import Keystroke.Proofs.FileSystem.Writing
import Mathlib.Logic.Relation

/-!
# Directories on the way

A directory that is missing is created together with those above it, as far as they are missing
too. Whether all of them come about or not, each new directory is where one of their paths leads.

## Main statements

- `above_of_mem_ancestors`: what is created for a path is above it.
- `AddsDirsAt.trans`: new directories stay where their paths lead while more are added.
- `addsDirsAt_createDirs`: there are no new directories but those whose paths are given.
-/

namespace Keystroke

namespace Path

/-- One path is above another if it comes of it by leaving away the last name, once or several
times. -/
def Above (up path : String) : Prop := Relation.TransGen (fun p q => parent? p = some q) path up

theorem reaches_of_mem_upward {up path : String} {fuel : Nat} (h : up ∈ upward path fuel) :
    Relation.ReflTransGen (fun p q => parent? p = some q) path up := by
  induction fuel generalizing path with
  | zero => simp [upward] at h
  | succ fuel ih =>
    unfold upward at h
    split at h
    · simp at h
    · rcases List.mem_cons.1 h with rfl | habove
      · exact .refl
      · split at habove
        next dir hdir => exact .head hdir (ih habove)
        next => simp at habove

theorem above_of_mem_ancestors {up dir path : String} (hdir : parent? path = some dir)
    (h : up ∈ ancestors dir) : Above up path :=
  .head' hdir (reaches_of_mem_upward h)

end Path

namespace FileSystem

variable {paths : String → Prop} {fs fs' fs'' : FileSystem} {place : Place}

/-- Where there was nothing there is a directory now, and one of the paths leads there. -/
structure NewDir (paths : String → Prop) (fs fs' : FileSystem) (place : Place) : Prop where
  empty : fs.node? place = none
  dir : fs'.node? place = some .dir
  named : ∃ path, paths path ∧ fs'.resolve path = .ok place

/-- A new directory is one still as long as directories stay. -/
theorem NewDir.keep (h : NewDir paths fs fs' place) (hkeeps : KeepsDirs fs' fs'') :
    NewDir paths fs fs'' place where
  empty := h.empty
  dir := hkeeps.dirs place h.dir
  named := by
    obtain ⟨path, hpath, hresolve⟩ := h.named
    exact ⟨path, hpath, hkeeps.resolve hresolve⟩

/-- Nothing is changed but that there may be new directories, to each of which one of the paths
leads. -/
structure AddsDirsAt (paths : String → Prop) (fs fs' : FileSystem) : Prop where
  workDir : fs'.workDir = fs.workDir
  nodes : ∀ place, fs'.node? place = fs.node? place ∨ NewDir paths fs fs' place

theorem AddsDirsAt.refl (paths : String → Prop) (fs : FileSystem) : AddsDirsAt paths fs fs :=
  ⟨rfl, fun _ => .inl rfl⟩

theorem AddsDirsAt.addsDirs (h : AddsDirsAt paths fs fs') : AddsDirs fs fs' where
  workDir := h.workDir
  nodes := by
    intro place
    exact (h.nodes place).imp_right fun hnew => ⟨hnew.empty, hnew.dir⟩

theorem AddsDirsAt.trans (h : AddsDirsAt paths fs fs') (h' : AddsDirsAt paths fs' fs'') :
    AddsDirsAt paths fs fs'' where
  workDir := h'.workDir.trans h.workDir
  nodes := by
    intro place
    rcases h.nodes place with hsame | hnew
    · -- what was there from the beginning is left to the second step
      rcases h'.nodes place with hsame' | hnew'
      · exact .inl (hsame'.trans hsame)
      · exact .inr ⟨hsame ▸ hnew'.empty, hnew'.dir, hnew'.named⟩
    · exact .inr (hnew.keep h'.addsDirs.keepsDirs)

theorem addsDirsAt_createDir {path : String} (hpath : paths path)
    (h : fs.createDir path = .ok fs') : AddsDirsAt paths fs fs' := by
  obtain ⟨target, hnone, rfl, hresolve⟩ := exists_of_createDir h
  have hadds := addsDirs_put hnone
  refine ⟨hadds.workDir, fun place => ?_⟩
  by_cases hplace : place = target
  · subst hplace
    rcases hadds.nodes place with hsame | ⟨hempty, hdir⟩
    · exact .inl hsame
    · exact .inr ⟨hempty, hdir, path, hpath, hresolve⟩
  · exact .inl (node?_put_of_ne hplace _)

/-- Whether all directories can be created or not, each new one is where one of their paths
leads. -/
theorem addsDirsAt_createDirs {names : List String} (h : ∀ path ∈ names, paths path) :
    AddsDirsAt paths fs (fs.createDirs names).1 := by
  apply createDirs_induction _ (AddsDirsAt.refl paths fs)
  intro fs' fs'' path hmem hadds hcreate
  exact hadds.trans (addsDirsAt_createDir (h path hmem) hcreate)

end FileSystem

end Keystroke
