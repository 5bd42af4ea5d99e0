import Keystroke.Config.File
import Keystroke.Proofs.FileSystem.Ancestors
import Keystroke.Proofs.Toml.Document

/-!
# Settings that are saved and loaded

Each section of the settings is read back from the table that is written for it, and so are all
settings from their document. Only two of the numbers can be too large to be written. Saving creates
directories before it looks at the values, but no file comes of settings that cannot be written.

## Main statements

- `parse?_render?`: the document of settings gives the settings.
- `isSome_render?`: there is one exactly if no time is too long.
- `save_load`: what is loaded from a path is what was saved there.
-/

namespace Keystroke

open Format Toml

/-! ## Fields -/

section Fields

variable {α : Type} (standard : α)

theorem field_some (read : Value → Option α) (v : Value) :
    field standard read (some v) = read v := rfl

theorem natBelow?_natCast {bound n : Nat} (h : n < bound) :
    natBelow? bound (.integer n) = some n := by
  have hrange : (0 : Int) ≤ n ∧ (n : Int) < bound := by omega
  rw [natBelow?, if_pos hrange, Int.toNat_natCast]

/-- A number that a type holds is read as one of the type. -/
theorem field_number {bound n : Nat} {ofNat : Nat → α} {x : α} (hn : n < bound)
    (hx : ofNat n = x) :
    field standard (fun v => (natBelow? bound v).map ofNat) (some (.integer n)) = some x := by
  rw [field_some, natBelow?_natCast hn, Option.map_some, hx]

end Fields

/-! ## Sections -/

theorem SenderSettings.wellNamed (s : SenderSettings) : s.toSection.WellNamed where
  name := (by decide : Bare "sender")
  keys := (by decide : ∀ k ∈ keys, Bare k)
  nodup := (by decide : keys.Nodup)

theorem ListenerSettings.wellNamed (s : ListenerSettings) : s.toSection.WellNamed where
  name := (by decide : Bare "listener")
  keys := (by decide : ∀ k ∈ keys, Bare k)
  nodup := (by decide : keys.Nodup)

theorem LogSettings.wellNamed (s : LogSettings) : s.toSection.WellNamed where
  name := (by decide : Bare "logging")
  keys := (by decide : ∀ k ∈ keys, Bare k)
  nodup := (by decide : keys.Nodup)

theorem SenderSettings.ofValue?_toSection (s : SenderSettings) :
    ofValue? s.toSection.value = some s := by
  have hvalues : values? keys s.toSection.value = some
      [some (.integer s.keyDelay.toNat), some (.string s.deviceName),
        some (.integer s.vendor.toNat), some (.integer s.product.toNat),
        some (.integer s.settleMillis.toNat)] := rfl
  unfold ofValue?
  rw [hvalues]
  dsimp only
  rw [field_number _ s.keyDelay.toNat_lt_size UInt32.ofNat_toNat,
    field_number _ s.vendor.toNat_lt_size UInt16.ofNat_toNat,
    field_number _ s.product.toNat_lt_size UInt16.ofNat_toNat,
    field_number _ s.settleMillis.toNat_lt_size UInt64.ofNat_toNat]
  rfl

theorem ListenerSettings.ofValue?_toSection (s : ListenerSettings) :
    ofValue? s.toSection.value = some s := by
  have hvalues : values? keys s.toSection.value =
      some [some (.integer s.pollMillis.toNat), some (.string s.deviceDir)] := rfl
  unfold ofValue?
  rw [hvalues]
  dsimp only
  rw [field_number _ s.pollMillis.toNat_lt_size UInt64.ofNat_toNat]
  rfl

theorem LogSettings.ofValue?_toSection (s : LogSettings) :
    ofValue? s.toSection.value = some s := rfl

/-! ## Documents -/

namespace Settings

theorem wellNamed (s : Settings) : ∀ part ∈ s.toSections, part.WellNamed := by
  simp only [toSections, List.mem_cons, List.not_mem_nil, or_false, forall_eq_or_imp, forall_eq]
  exact ⟨s.sender.wellNamed, s.listener.wellNamed, s.logging.wellNamed⟩

/-- The document of settings gives the settings. -/
theorem parse?_render? {s : Settings} {document : String} (h : s.render? = some document) :
    parse? document = some s := by
  have hnodup : (s.toSections.map (·.name)).Nodup :=
    (by decide : ["sender", "listener", "logging"].Nodup)
  have hsender : (s.toSections.map fun part => (part.name, part.value)).lookup "sender" =
      some s.sender.toSection.value := rfl
  have hlistener : (s.toSections.map fun part => (part.name, part.value)).lookup "listener" =
      some s.listener.toSection.value := rfl
  have hlogging : (s.toSections.map fun part => (part.name, part.value)).lookup "logging" =
      some s.logging.toSection.value := rfl
  rw [parse?, parse_write s.wellNamed hnodup h, Option.bind_some, ofTable?, hsender, hlistener,
    hlogging, field_some, field_some, field_some, SenderSettings.ofValue?_toSection,
    ListenerSettings.ofValue?_toSection, LogSettings.ofValue?_toSection]
  rfl

/-- No time is too long for the numbers of a document. -/
structure Storable (s : Settings) : Prop where
  settle : s.sender.settleMillis.toNat ≤ 0x7FFFFFFFFFFFFFFF
  poll : s.listener.pollMillis.toNat ≤ 0x7FFFFFFFFFFFFFFF

theorem isSome_render? (s : Settings) : s.render?.isSome ↔ s.Storable := by
  have hsmall : ∀ n < UInt32.size, (n : Int) ≤ maxInteger := by
    intro n hn
    simp only [UInt32.size, maxInteger] at hn ⊢
    omega
  have hdelay := hsmall _ s.sender.keyDelay.toNat_lt_size
  have hvendor := hsmall _ (Nat.lt_trans s.sender.vendor.toNat_lt_size (by decide))
  have hproduct := hsmall _ (Nat.lt_trans s.sender.product.toNat_lt_size (by decide))
  have htime : ∀ n : UInt64, (n.toNat : Int) ≤ maxInteger ↔ n.toNat ≤ 0x7FFFFFFFFFFFFFFF := by
    intro n
    simp only [maxInteger]
    omega
  rw [render?, isSome_write]
  -- whatever else is a text, or a number of a smaller type
  simp only [toSections, SenderSettings.toSection, ListenerSettings.toSection,
    LogSettings.toSection, List.forall_mem_cons, Plain.Writable, hdelay, hvendor, hproduct, htime,
    List.not_mem_nil, false_implies, implies_true, true_and, and_true]
  exact ⟨fun h => ⟨h.1, h.2⟩, fun h => ⟨h.settle, h.poll⟩⟩

end Settings

/-! ## Files -/

/-- Creates the directories above a path that are missing. -/
def FileSystem.createParents (fs : FileSystem) (path : String) :
    FileSystem × Except FileError Unit :=
  match Path.parent? path with
  | none => (fs, .ok ())
  | some dir => fs.createDirAll dir

/-- Whether there can be a file at the path, once the directories above it are there. -/
def FileSystem.Writable (fs : FileSystem) (path : String) : Prop :=
  (fs.createParents path).2 = .ok () ∧
    ∃ content fs', (fs.createParents path).1.writeFile path content = .ok fs'

namespace Settings

open FileSystem

/-- Each directory that is created is above the path. -/
theorem addsDirsAt_createParents (fs : FileSystem) (path : String) :
    AddsDirsAt (Path.Above · path) fs (fs.createParents path).1 := by
  unfold createParents
  split
  next => exact .refl _ fs
  next dir hdir => exact addsDirsAt_createDirs fun _ hmem => Path.above_of_mem_ancestors hdir hmem

theorem addsDirs_createParents (fs : FileSystem) (path : String) :
    AddsDirs fs (fs.createParents path).1 :=
  (addsDirsAt_createParents fs path).addsDirs

/-- What is left of a save once the directories are there. -/
def finish (s : Settings) (fs : FileSystem) (path : String) :
    FileSystem × Except ConfigError Unit :=
  match s.render? with
  | none => (fs, .error .unwritable)
  | some document =>
    match fs.writeFile path document.toUTF8 with
    | .ok fs => (fs, .ok ())
    | .error e => (fs, .error (.file path e))

section Save

variable {s : Settings} {fs fs' : FileSystem} {path : String}

variable (hparents : fs.createParents path = (fs', .ok ()))
include hparents

theorem save_of_createParents_eq_ok : s.save fs path = s.finish fs' path := by
  unfold createParents at hparents
  cases hparent : Path.parent? path with
  | none =>
    simp only [hparent, Prod.mk.injEq, and_true] at hparents
    simp only [save, hparent, hparents]
    rfl
  | some dir =>
    simp only [hparent] at hparents
    simp only [save, hparent, hparents]
    rfl

/-- The values are looked at after the directories. -/
theorem save_of_render?_eq_none (hrender : s.render? = none) :
    s.save fs path = (fs', .error .unwritable) := by
  rw [save_of_createParents_eq_ok hparents, finish, hrender]

theorem save_of_render?_eq_some {document : String} {fs'' : FileSystem}
    (hrender : s.render? = some document)
    (hwrite : fs'.writeFile path document.toUTF8 = .ok fs'') :
    s.save fs path = (fs'', .ok ()) := by
  rw [save_of_createParents_eq_ok hparents, finish, hrender]
  dsimp only
  rw [hwrite]

end Save

theorem load_of_readText {s : Settings} {fs : FileSystem} {path document : String}
    (hread : fs.readText path = .ok document) (hparse : parse? document = some s) :
    load fs path = .ok s := by
  unfold load
  rw [hread]
  dsimp only
  rw [hparse]

/-- What is loaded from a path is what was saved there. Settings that no document holds are not
saved, and then the files are those that there were. -/
theorem save_load (s : Settings) {fs : FileSystem} {path : String} (hpath : fs.Writable path) :
    (s.Storable → ∃ fs', s.save fs path = (fs', .ok ()) ∧ load fs' path = .ok s) ∧
    (¬ s.Storable → ∃ fs', s.save fs path = (fs', .error .unwritable) ∧
      ∀ place content,
        fs'.node? place = some (.file content) ↔ fs.node? place = some (.file content)) := by
  obtain ⟨hmade, content, _, hwrite⟩ := hpath
  have hparents : fs.createParents path = ((fs.createParents path).1, .ok ()) :=
    Prod.ext rfl hmade
  rw [← isSome_render?]
  constructor
  · intro hstorable
    obtain ⟨document, hrender⟩ := Option.isSome_iff_exists.1 hstorable
    obtain ⟨target, htarget, -⟩ := exists_of_writeFile hwrite
    have hsaved := writeFile_of_writePlace htarget document.toUTF8
    exact ⟨_, save_of_render?_eq_some hparents hrender hsaved,
      load_of_readText (readText_of_writeFile hsaved) (parse?_render? hrender)⟩
  · intro hstorable
    have hrender := Option.not_isSome_iff_eq_none.1 hstorable
    exact ⟨_, save_of_render?_eq_none hparents hrender,
      (addsDirs_createParents fs path).file_iff⟩

/-- A file in a directory that is missing holds quotes, a backslash, codes and the longest time, but
no time that is longer. -/
theorem save_load_newDirectory :
    let s : Settings := {
      sender := { deviceName := "it's \"\"\"\\\n\x07", settleMillis := 0x7FFFFFFFFFFFFFFF }
      logging := { level := "\t\x27\x27\x27" } }
    let tooLong : Settings := { listener := { pollMillis := 0x8000000000000000 } }
    ({} : FileSystem).Writable "conf/app.toml" ∧ s.Storable ∧ ¬ tooLong.Storable ∧
    (∃ fs', s.save {} "conf/app.toml" = (fs', .ok ()) ∧ load fs' "conf/app.toml" = .ok s) ∧
    (∃ fs', tooLong.save {} "conf/app.toml" = (fs', .error .unwritable) ∧
      ∀ place content, fs'.node? place = some (.file content) ↔
        ({} : FileSystem).node? place = some (.file content)) := by
  intro s tooLong
  have hpath : ({} : FileSystem).Writable "conf/app.toml" := ⟨rfl, .empty, _, rfl⟩
  have hs : s.Storable := ⟨by decide, by decide⟩
  have htooLong : ¬ tooLong.Storable := fun h => absurd h.poll (by decide)
  exact ⟨hpath, hs, htooLong, (save_load s hpath).1 hs, (save_load tooLong hpath).2 htooLong⟩

end Settings

end Keystroke
