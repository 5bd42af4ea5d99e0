import Keystroke.FileSystem.Basic

/-!
# What is written

A path that can be written leads to the place that the write fills, before the write and after it:
a directory on the way is none that the write replaces. So a text is read from where it was
written. Directories are created only where there was nothing, and files are what they were.

## Main statements

- `KeepsDirs.resolve`: a path leads where it led, as long as directories stay.
- `readText_of_writeFile`: the text that was written is read.
- `exists_of_createDir`: a new directory is where there was nothing, and its path leads there.
- `createDirs_induction`: what a new directory keeps is kept by the creation of several.
-/

namespace Keystroke

namespace FileSystem

variable {fs fs' fs'' : FileSystem} {place target : Place}

/-- What comes of two computations in a row comes of the second, from what came of the first. -/
theorem exists_of_bind_eq_ok {ε α β : Type} {x : Except ε α} {f : α → Except ε β} {b : β}
    (h : x >>= f = .ok b) : ∃ a, x = .ok a ∧ f a = .ok b := by
  cases x with
  | error e => cases h
  | ok a => exact ⟨a, rfl, h⟩

/-! ## What is at a place -/

theorem node?_put_self (h : place ≠ []) (node : FileNode) :
    (fs.put place node).node? place = some node := by
  simp [node?, put, h]

theorem ne_nil_of_node? (h : fs.node? place ≠ some .dir) : place ≠ [] := by
  rintro rfl
  exact h rfl

theorem node?_put_of_ne (h : place ≠ target) (node : FileNode) :
    (fs.put target node).node? place = fs.node? place := by
  have hfilter : ∀ nodes : List (Place × FileNode),
      (nodes.filter (·.1 ≠ target)).lookup place = nodes.lookup place := by
    intro nodes
    induction nodes with
    | nil => rfl
    | cons entry nodes ih =>
      by_cases hentry : entry.1 = target
      · have hne : (place == entry.1) = false := by simpa [hentry] using h
        rw [List.filter_cons_of_neg (by simp [hentry]), List.lookup_cons, hne, ih]
      · rw [List.filter_cons_of_pos (by simpa using hentry), List.lookup_cons, List.lookup_cons, ih]
  have hne : (place == target) = false := by simpa using h
  unfold node? put
  rw [List.lookup_cons, hne, hfilter]

theorem requireDir_eq_ok_iff : fs.requireDir place = .ok () ↔ fs.node? place = some .dir := by
  unfold requireDir
  split <;> simp_all

/-! ## Where a path leads -/

/-- Every directory is one still. -/
structure KeepsDirs (fs fs' : FileSystem) : Prop where
  workDir : fs'.workDir = fs.workDir
  dirs : ∀ place, fs.node? place = some .dir → fs'.node? place = some .dir

theorem keepsDirs_put (h : fs.node? target ≠ some .dir) (node : FileNode) :
    KeepsDirs fs (fs.put target node) where
  workDir := rfl
  dirs := by
    intro place hdir
    have hne : place ≠ target := by
      rintro rfl
      exact h hdir
    rw [node?_put_of_ne hne, hdir]

theorem node?_of_enter {name : String} (h : fs.enter place name = .ok target) :
    fs.node? place = some .dir := by
  obtain ⟨_, hdir, -⟩ := exists_of_bind_eq_ok h
  exact requireDir_eq_ok_iff.1 hdir

section KeepsDirs

variable (hkeeps : KeepsDirs fs fs')
include hkeeps

theorem KeepsDirs.enter {name : String} (h : fs.enter place name = .ok target) :
    fs'.enter place name = .ok target := by
  have hdir := node?_of_enter h
  have hdir' := hkeeps.dirs place hdir
  rw [← requireDir_eq_ok_iff] at hdir hdir'
  rw [← h]
  unfold FileSystem.enter
  rw [hdir, hdir']

theorem KeepsDirs.follow {names : List String} (h : fs.follow place names = .ok target) :
    fs'.follow place names = .ok target := by
  unfold FileSystem.follow at h ⊢
  induction names generalizing place with
  | nil => exact h
  | cons name names ih =>
    rw [List.foldlM_cons] at h ⊢
    obtain ⟨next, hnext, hrest⟩ := exists_of_bind_eq_ok h
    rw [hkeeps.enter hnext]
    exact ih hrest

theorem KeepsDirs.start (path : String) : fs'.start path = fs.start path := by
  unfold FileSystem.start
  rw [hkeeps.workDir]

/-- A path leads where it led. -/
theorem KeepsDirs.resolve {path : String} (h : fs.resolve path = .ok target) :
    fs'.resolve path = .ok target := by
  obtain ⟨begin, hbegin, hfollow⟩ := exists_of_bind_eq_ok h
  unfold FileSystem.resolve
  rw [hkeeps.start, hbegin]
  exact hkeeps.follow hfollow

end KeepsDirs

/-! ## Files -/

/-- Without slashes at the end the names are those that are followed. -/
theorem dropSlashes_eq {names : List String} (h : ¬ (dropSlashes names).length < names.length) :
    dropSlashes names = names := by
  have hprefix : dropSlashes names <+: names := by
    unfold dropSlashes
    rw [← List.reverse_suffix, List.reverse_reverse]
    exact List.dropWhile_suffix _
  exact hprefix.eq_of_length_le (by omega)

theorem follow_append {names more : List String} {dir : Place}
    (hdir : fs.follow place names = .ok dir) (hmore : fs.follow dir more = .ok target) :
    fs.follow place (names ++ more) = .ok target := by
  unfold follow at hdir ⊢
  rw [List.foldlM_append, hdir]
  exact hmore

theorem follow_concat {names : List String} {name : String} {dir : Place}
    (hdir : fs.follow place names = .ok dir) (hlast : fs.enter dir name = .ok target) :
    fs.follow place (names ++ [name]) = .ok target :=
  follow_append hdir ((bind_pure _).trans hlast)

/-- Slashes after the path of a directory lead nowhere else. -/
theorem follow_slashes {slashes : List String} (hdir : fs.node? place = some .dir)
    (h : ∀ name ∈ slashes, name = "") : fs.follow place slashes = .ok place := by
  induction slashes with
  | nil => rfl
  | cons name slashes ih =>
    obtain ⟨rfl, hslashes⟩ := List.forall_mem_cons.1 h
    have hstay : fs.enter place "" = .ok place := by
      unfold enter
      rw [requireDir_eq_ok_iff.2 hdir]
      rfl
    unfold follow at ih ⊢
    rw [List.foldlM_cons, hstay]
    exact ih hslashes

theorem exists_slashes (names : List String) :
    ∃ slashes, (∀ name ∈ slashes, name = "") ∧ names = dropSlashes names ++ slashes := by
  refine ⟨(names.reverse.takeWhile (· == "")).reverse, ?_, ?_⟩
  · intro name hname
    have hall := List.all_eq_true.1 (List.all_takeWhile (p := (· == "")) (l := names.reverse))
    simpa using hall name (List.mem_reverse.1 hname)
  · unfold dropSlashes
    rw [← List.reverse_append, List.takeWhile_append_dropWhile, List.reverse_reverse]

/-- The place that a write fills is the one to which the path leads, and no directory. -/
theorem resolve_of_writePlace {path : String} (h : fs.writePlace path = .ok target) :
    fs.resolve path = .ok target ∧ fs.node? target ≠ some .dir := by
  obtain ⟨⟨place, names⟩, hstart, h⟩ := exists_of_bind_eq_ok h
  obtain ⟨dir, hdir, h⟩ := exists_of_bind_eq_ok h
  dsimp only at hdir h
  split at h
  next => cases h
  next name hlast =>
    obtain ⟨_, -, h⟩ := exists_of_bind_eq_ok h
    split at h
    next => cases h
    next hslash =>
      obtain ⟨target', htarget, h⟩ := exists_of_bind_eq_ok h
      split at h
      next => cases h
      next hnode =>
        cases h
        rw [dropSlashes_eq hslash] at hdir hlast
        obtain ⟨before, rfl⟩ := List.getLast?_eq_some_iff.1 hlast
        rw [List.dropLast_concat] at hdir
        refine ⟨?_, ?_⟩
        · unfold resolve
          rw [hstart]
          exact follow_concat hdir htarget
        · intro hdir'
          rw [hdir'] at hnode
          exact hnode rfl

/-- Whether a file can be written is up to its path, not to its content. -/
theorem writeFile_of_writePlace {path : String} (h : fs.writePlace path = .ok target)
    (content : ByteArray) : fs.writeFile path content = .ok (fs.put target (.file content)) := by
  rw [writeFile, h]
  rfl

/-- A file is written to the place of its path. -/
theorem exists_of_writeFile {path : String} {content : ByteArray}
    (h : fs.writeFile path content = .ok fs') :
    ∃ target, fs.writePlace path = .ok target ∧ fs' = fs.put target (.file content) := by
  obtain ⟨target, htarget, h⟩ := exists_of_bind_eq_ok h
  cases h
  exact ⟨target, htarget, rfl⟩

/-- The text of the file to which a path leads is read. -/
theorem readText_of_file {path text : String} (hpath : fs.resolve path = .ok place)
    (hnode : fs.node? place = some (.file text.toUTF8)) : fs.readText path = .ok text := by
  have hutf : String.fromUTF8? text.toUTF8 = some text := dif_pos text.isValidUTF8
  unfold readText
  rw [hpath]
  simp only [bind, Except.bind, hnode, hutf]
  rfl

/-- The text that was written is read. -/
theorem readText_of_writeFile {path text : String} (h : fs.writeFile path text.toUTF8 = .ok fs') :
    fs'.readText path = .ok text := by
  obtain ⟨target, htarget, rfl⟩ := exists_of_writeFile h
  obtain ⟨hresolve, hdir⟩ := resolve_of_writePlace htarget
  exact readText_of_file ((keepsDirs_put hdir _).resolve hresolve)
    (node?_put_self (ne_nil_of_node? hdir) _)

/-! ## Directories -/

/-- There may be directories where there was nothing, and all else is as it was. -/
structure AddsDirs (fs fs' : FileSystem) : Prop where
  workDir : fs'.workDir = fs.workDir
  nodes : ∀ place, fs'.node? place = fs.node? place ∨
    fs.node? place = none ∧ fs'.node? place = some .dir

theorem AddsDirs.keepsDirs (h : AddsDirs fs fs') : KeepsDirs fs fs' where
  workDir := h.workDir
  dirs := by
    intro place hdir
    rcases h.nodes place with hsame | ⟨-, hnew⟩
    · rw [hsame, hdir]
    · exact hnew

/-- The files are those that there were, with what they held. -/
theorem AddsDirs.file_iff (h : AddsDirs fs fs') (place : Place) (content : ByteArray) :
    fs'.node? place = some (.file content) ↔ fs.node? place = some (.file content) := by
  rcases h.nodes place with hsame | ⟨hnone, hdir⟩
  · rw [hsame]
  · rw [hnone, hdir]
    simp

theorem addsDirs_put (h : fs.node? target = none) : AddsDirs fs (fs.put target .dir) where
  workDir := rfl
  nodes := by
    intro place
    by_cases hplace : place = target
    · subst hplace
      have hdir : fs.node? place ≠ some .dir := by simp [h]
      exact .inr ⟨h, node?_put_self (ne_nil_of_node? hdir) _⟩
    · exact .inl (node?_put_of_ne hplace _)

/-- The path of a new directory leads to it, with slashes at its end or without. -/
theorem resolve_put_dir {path : String} {names before : List String} {name : String} {dir : Place}
    (hnone : fs.node? target = none) (hstart : fs.start path = .ok (place, names))
    (hnames : dropSlashes names = before ++ [name]) (hdir : fs.follow place before = .ok dir)
    (hlast : fs.enter dir name = .ok target) :
    (fs.put target .dir).resolve path = .ok target := by
  have hempty : fs.node? target ≠ some .dir := by simp [hnone]
  have hkeeps : KeepsDirs fs (fs.put target .dir) := keepsDirs_put hempty _
  have hnew : (fs.put target .dir).node? target = some .dir :=
    node?_put_self (ne_nil_of_node? hempty) _
  obtain ⟨slashes, hslashes, hsplit⟩ := exists_slashes names
  unfold resolve
  rw [hkeeps.start, hstart, hsplit, hnames]
  exact follow_append (hkeeps.follow (follow_concat hdir hlast)) (follow_slashes hnew hslashes)

/-- A new directory is where there was nothing, and its path leads there. -/
theorem exists_of_createDir {path : String} (h : fs.createDir path = .ok fs') :
    ∃ target, fs.node? target = none ∧ fs' = fs.put target .dir ∧
      fs'.resolve path = .ok target := by
  obtain ⟨⟨place, names⟩, hstart, h⟩ := exists_of_bind_eq_ok h
  obtain ⟨dir, hdir, h⟩ := exists_of_bind_eq_ok h
  dsimp only at hdir h
  split at h
  next => cases h
  next name hlast =>
    obtain ⟨_, -, h⟩ := exists_of_bind_eq_ok h
    split at h
    next => cases h
    next =>
      obtain ⟨target, htarget, h⟩ := exists_of_bind_eq_ok h
      split at h
      next => cases h
      next hnone =>
        cases h
        obtain ⟨before, hnames⟩ := List.getLast?_eq_some_iff.1 hlast
        rw [hnames, List.dropLast_concat] at hdir
        rw [Option.not_isSome_iff_eq_none] at hnone
        exact ⟨target, hnone, rfl, resolve_put_dir hnone hstart hnames hdir htarget⟩

theorem eq_or_createDir_of_createDirOnce {path : String} (h : fs.createDirOnce path = .ok fs') :
    fs' = fs ∨ fs.createDir path = .ok fs' := by
  unfold createDirOnce at h
  split at h
  next hcreate =>
    cases h
    exact .inr hcreate
  next =>
    split at h
    · cases h
      exact .inl rfl
    · cases h

/-- What the creation of any one of the directories keeps is kept by the creation of all, whether
all of them come about or not. -/
theorem createDirs_induction {P : FileSystem → Prop} {paths : List String}
    (hcreate : ∀ {fs fs' path}, path ∈ paths → P fs → createDir fs path = .ok fs' → P fs')
    (h : P fs) : P (fs.createDirs paths).1 := by
  induction paths with
  | nil => exact h
  | cons path above ih =>
    have hfirst : ∀ {fs fs'}, P fs → createDir fs path = .ok fs' → P fs' :=
      hcreate List.mem_cons_self
    replace ih := ih fun hmem => hcreate (List.mem_cons_of_mem _ hmem)
    unfold createDirs
    split
    next hdir => exact hfirst h hdir
    next =>
      split
      · split
        next hup =>
          rw [hup] at ih
          exact ih
        next hup =>
          rw [hup] at ih
          split
          next honce =>
            obtain rfl | hdir := eq_or_createDir_of_createDirOnce honce
            · exact ih
            · exact hfirst ih hdir
          next => exact ih
      · exact h

/-- What a new directory keeps is kept by the creation of a directory and those above it. -/
theorem createDirAll_induction {P : FileSystem → Prop}
    (hput : ∀ {fs target}, P fs → fs.node? target = none → P (fs.put target .dir)) (h : P fs)
    (path : String) : P (fs.createDirAll path).1 := by
  apply createDirs_induction _ h
  intro fs fs' path _ h hdir
  obtain ⟨target, hnone, rfl, -⟩ := exists_of_createDir hdir
  exact hput h hnone

end FileSystem

end Keystroke
