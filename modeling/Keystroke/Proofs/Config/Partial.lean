import Keystroke.Proofs.Config.RoundTrip

/-!
# Settings of which a document gives a part

A document may give values to some of the known keys, in sections in any order and between keys and
sections of other names. The settings are then the standard ones but for the keys that have a value,
and there are none if one of these values is not of its kind. What is known about a key is said in
one table for each section, and in one for the settings, whose keys are those of the sections; a
reader of either is compared with its table.

## Main statements

- `ofValue?_follows`, for each section: what is read of the entries of a section.
- `ofTable?_follows`: what is read of a whole table.
- `load_given`: what is loaded from a file that holds a document, and from a file that is missing.
-/

namespace Keystroke

open Toml (Value)

namespace Format

/-! ## Known keys -/

/-- What the values of a key are. -/
inductive Kind where
  /-- The whole numbers below a bound. -/
  | number (bound : Nat)
  | text

def Kind.admits : Kind → Value → Bool
  | number bound, .integer n => 0 ≤ n ∧ n < bound
  | text, .string _ => true
  | _, _ => false

/-- A key, the kind of its values, and the field that it is for, as a value. -/
structure Known (κ σ : Type) where
  key : κ
  kind : Kind
  value : σ → Value

/-- The key as one of a section that gives a part of `τ`. -/
def Known.within {σ τ : Type} (name : String) (part : τ → σ) (k : Known String σ) :
    Known (String × String) τ where
  key := (name, k.key)
  kind := k.kind
  value x := k.value (part x)

/-- The value of a key in what a table has under the name of a section. -/
def valueAt? : Option Value → String → Option Value
  | some (.table entries), key => entries.lookup key
  | _, _ => none

/-- The value that a table gives to a key of one of its sections. -/
def given (t : Toml.Table) (key : String × String) : Option Value :=
  valueAt? (t.lookup key.1) key.2

/-- Whether what a table has under the name of a section can be one: a table, or nothing. -/
def isSection : Option Value → Bool
  | none | some (.table _) => true
  | some _ => false

section Known

variable {κ σ : Type} (known : List (Known κ σ)) (values : κ → Option Value)

/-- Every known key that has a value has one of its kind. -/
def Admitted : Prop := ∀ k ∈ known, ∀ v ∈ values k.key, k.kind.admits v

instance decidableAdmitted : Decidable (Admitted known values) :=
  inferInstanceAs (Decidable (∀ k ∈ known, ∀ v ∈ values k.key, k.kind.admits v = true))

/-- The field of each known key is the value that the key has, or the standard one. -/
def Overrides (standard x : σ) : Prop :=
  ∀ k ∈ known, k.value x = (values k.key).getD (k.value standard)

/-- What is read of the values of the known keys. -/
def Follows (standard : σ) : Option σ → Prop
  | some x => Admitted known values ∧ Overrides known values standard x
  | none => ¬ Admitted known values

end Known

/-! ## Fields -/

section Fields

variable {α κ σ : Type} {kind : Kind} {shown : α → Value} {read : Value → Option α}

/-- Values of a kind, and no others, are read as fields that show them. -/
structure Kind.Reads (kind : Kind) (shown : α → Value) (read : Value → Option α) : Prop where
  of_some : ∀ {v x}, read v = some x → kind.admits v ∧ shown x = v
  of_none : ∀ {v}, read v = none → ¬ kind.admits v

theorem reads_number {bound : Nat} {ofNat : Nat → α} {toNat : α → Nat}
    (h : ∀ n < bound, toNat (ofNat n) = n) :
    (Kind.number bound).Reads (fun x => .integer (toNat x))
      (fun v => (natBelow? bound v).map ofNat) where
  of_some := by
    intro v x hx
    obtain ⟨n, hn, rfl⟩ := Option.map_eq_some_iff.1 hx
    cases v with
    | integer m =>
      simp only [natBelow?, Option.ite_none_right_eq_some, Option.some.injEq] at hn
      obtain ⟨hrange, rfl⟩ := hn
      refine ⟨by simpa [Kind.admits] using hrange, ?_⟩
      rw [h _ (by omega), Int.toNat_of_nonneg hrange.1]
    | string | float | boolean | datetime | array | table => contradiction
  of_none := by
    intro v hv
    cases v with
    | integer m => simpa [Kind.admits, natBelow?] using hv
    | string | float | boolean | datetime | array | table => exact Bool.false_ne_true

theorem reads_text : Kind.text.Reads Value.string text? where
  of_some := by
    intro v x hx
    cases v with
    | string s => exact ⟨rfl, congrArg Value.string (Option.some.inj hx).symm⟩
    | integer | float | boolean | datetime | array | table => contradiction
  of_none := by
    intro v hv
    cases v with
    | string s => contradiction
    | integer | float | boolean | datetime | array | table => exact Bool.false_ne_true

/-- One field of several: the others are read after it. -/
theorem Follows.bind {known : List (Known κ σ)} {values : κ → Option Value} {standard : σ}
    {key : κ} {value : σ → Value} {standardField : α} {f : α → Option σ}
    (i : Nat) (hknown : known[i]? = some ⟨key, kind, value⟩) (hread : kind.Reads shown read)
    (hrest : ∀ x, (∀ v ∈ values key, kind.admits v) →
      shown x = (values key).getD (shown standardField) → Follows known values standard (f x)) :
    Follows known values standard (field standardField read (values key) >>= f) := by
  cases hv : values key with
  | none => exact hrest standardField (by simp [hv]) (by simp [hv])
  | some v =>
    rw [field_some]
    cases hx : read v with
    | none => exact fun hall => hread.of_none hx (hall _ (List.mem_of_getElem? hknown) v hv)
    | some x =>
      obtain ⟨hadmits, hshown⟩ := hread.of_some hx
      exact hrest x (by simpa [hv] using hadmits) (by simpa [hv] using hshown)

end Fields

end Format

open Format

/-! ## Sections -/

def SenderSettings.known : List (Known String SenderSettings) :=
  [⟨"key_delay_us", .number UInt32.size, fun s => .integer s.keyDelay.toNat⟩,
    ⟨"device_name", .text, fun s => .string s.deviceName⟩,
    ⟨"vendor_id", .number UInt16.size, fun s => .integer s.vendor.toNat⟩,
    ⟨"product_id", .number UInt16.size, fun s => .integer s.product.toNat⟩,
    ⟨"settle_ms", .number UInt64.size, fun s => .integer s.settleMillis.toNat⟩]

def ListenerSettings.known : List (Known String ListenerSettings) :=
  [⟨"poll_interval_ms", .number UInt64.size, fun s => .integer s.pollMillis.toNat⟩,
    ⟨"device_dir", .text, fun s => .string s.deviceDir⟩]

def LogSettings.known : List (Known String LogSettings) :=
  [⟨"level", .text, fun s => .string s.level⟩]

theorem SenderSettings.ofValue?_follows (entries : Toml.Table) :
    Follows known (entries.lookup ·) {} (ofValue? (.table entries)) := by
  have hvalues : values? keys (.table entries) = some [entries.lookup "key_delay_us",
      entries.lookup "device_name", entries.lookup "vendor_id", entries.lookup "product_id",
      entries.lookup "settle_ms"] := rfl
  unfold ofValue?
  rw [hvalues]
  dsimp only
  -- one field after the other, each found by its place among the known keys
  refine .bind 0 rfl (reads_number fun n => UInt32.toNat_ofNat_of_lt') ?_
  intro delay hdelay hdelay'
  refine .bind 1 rfl reads_text ?_
  intro name hname hname'
  refine .bind 2 rfl (reads_number fun n => UInt16.toNat_ofNat_of_lt') ?_
  intro vendor hvendor hvendor'
  refine .bind 3 rfl (reads_number fun n => UInt16.toNat_ofNat_of_lt') ?_
  intro product hproduct hproduct'
  refine .bind 4 rfl (reads_number fun n => UInt64.toNat_ofNat_of_lt') ?_
  intro settle hsettle hsettle'
  simp only [pure, Follows, Admitted, Overrides, known, List.forall_mem_cons]
  exact ⟨⟨hdelay, hname, hvendor, hproduct, hsettle, nofun⟩,
    ⟨hdelay', hname', hvendor', hproduct', hsettle', nofun⟩⟩

theorem ListenerSettings.ofValue?_follows (entries : Toml.Table) :
    Follows known (entries.lookup ·) {} (ofValue? (.table entries)) := by
  have hvalues : values? keys (.table entries) = some [entries.lookup "poll_interval_ms",
      entries.lookup "device_dir"] := rfl
  unfold ofValue?
  rw [hvalues]
  dsimp only
  refine .bind 0 rfl (reads_number fun n => UInt64.toNat_ofNat_of_lt') ?_
  intro poll hpoll hpoll'
  refine .bind 1 rfl reads_text ?_
  intro dir hdir hdir'
  simp only [pure, Follows, Admitted, Overrides, known, List.forall_mem_cons]
  exact ⟨⟨hpoll, hdir, nofun⟩, ⟨hpoll', hdir', nofun⟩⟩

theorem LogSettings.ofValue?_follows (entries : Toml.Table) :
    Follows known (entries.lookup ·) {} (ofValue? (.table entries)) := by
  have hvalues : values? keys (.table entries) = some [entries.lookup "level"] := rfl
  unfold ofValue?
  rw [hvalues]
  dsimp only
  refine .bind 0 rfl reads_text ?_
  intro level hlevel hlevel'
  simp only [pure, Follows, Admitted, Overrides, known, List.forall_mem_cons]
  exact ⟨⟨hlevel, nofun⟩, ⟨hlevel', nofun⟩⟩

section Section

variable {σ : Type} {known : List (Known String σ)} {standard : σ} {read : Value → Option σ}
  (h : ∀ entries : Toml.Table, Follows known (entries.lookup ·) standard (read (.table entries)))
  {v : Option Value}
include h

/-- A section is read like its entries, and a missing one gives no values. -/
theorem follows_section (hv : isSection v) :
    Follows known (valueAt? v) standard (field standard read v) := by
  cases v with
  | none => exact ⟨nofun, fun _ _ => rfl⟩
  | some w =>
    cases w with
    | table entries => exact h entries
    | string | integer | float | boolean | datetime | array => contradiction

/-- What stands for a section without being a table gives no values to its keys. -/
theorem admitted_section {x : σ} (hx : field standard read v = some x) :
    Admitted known (valueAt? v) := by
  cases v with
  | none => exact nofun
  | some w =>
    cases w with
    | table entries =>
      have hfollows := h entries
      rw [field_some] at hx
      rw [hx] at hfollows
      exact hfollows.1
    | string | integer | float | boolean | datetime | array => exact nofun

end Section

/-! ## Tables -/

namespace Settings

/-- The known keys of all sections. -/
def known : List (Known (String × String) Settings) :=
  SenderSettings.known.map (.within "sender" sender) ++
    ListenerSettings.known.map (.within "listener" listener) ++
    LogSettings.known.map (.within "logging" logging)

section Known

variable {values : String × String → Option Value} {standard s s' : Settings}

theorem admitted_iff : Admitted known values ↔
    Admitted SenderSettings.known (fun key => values ("sender", key)) ∧
    Admitted ListenerSettings.known (fun key => values ("listener", key)) ∧
    Admitted LogSettings.known (fun key => values ("logging", key)) := by
  simp only [Admitted, known, List.forall_mem_append, List.forall_mem_map, Known.within, and_assoc]

theorem overrides_iff : Overrides known values standard s ↔
    Overrides SenderSettings.known (fun key => values ("sender", key)) standard.sender s.sender ∧
    Overrides ListenerSettings.known (fun key => values ("listener", key))
      standard.listener s.listener ∧
    Overrides LogSettings.known (fun key => values ("logging", key)) standard.logging s.logging := by
  simp only [Overrides, known, List.forall_mem_append, List.forall_mem_map, Known.within, and_assoc]

/-- Every field of the settings is that of a known key. -/
theorem eq_of_known (h : ∀ k ∈ known, k.value s = k.value s') : s = s' := by
  simp only [known, List.forall_mem_append, List.forall_mem_map, Known.within,
    SenderSettings.known, ListenerSettings.known, LogSettings.known, List.forall_mem_cons,
    List.not_mem_nil, false_implies, implies_true, and_true, Value.integer.injEq,
    Value.string.injEq, Int.natCast_inj, UInt16.toNat_inj, UInt32.toNat_inj, UInt64.toNat_inj] at h
  obtain ⟨⟨⟨_, _, _, _, _⟩, ⟨_, _⟩, ⟨_⟩⟩, ⟨⟨_, _, _, _, _⟩, ⟨_, _⟩, ⟨_⟩⟩⟩ := s, s'
  simpa only [mk.injEq, SenderSettings.mk.injEq, ListenerSettings.mk.injEq, LogSettings.mk.injEq,
    and_assoc] using h

end Known

theorem ofTable?_follows {t : Toml.Table} (ht : ∀ k ∈ known, isSection (t.lookup k.key.1)) :
    Follows known (given t) {} (ofTable? t) := by
  have hsender : isSection (t.lookup "sender") := ht _ (List.mem_of_getElem? (i := 0) rfl)
  have hlistener : isSection (t.lookup "listener") := ht _ (List.mem_of_getElem? (i := 5) rfl)
  have hlogging : isSection (t.lookup "logging") := ht _ (List.mem_of_getElem? (i := 7) rfl)
  have hs := follows_section SenderSettings.ofValue?_follows hsender
  have hl := follows_section ListenerSettings.ofValue?_follows hlistener
  have hg := follows_section LogSettings.ofValue?_follows hlogging
  unfold ofTable?
  -- the sections are read one after the other, and the first that fails is the last
  cases hsome : field {} SenderSettings.ofValue? (t.lookup "sender") with
  | none =>
    rw [hsome] at hs
    exact fun hall => hs (admitted_iff.1 hall).1
  | some sender =>
    rw [hsome] at hs
    cases hsome : field {} ListenerSettings.ofValue? (t.lookup "listener") with
    | none =>
      rw [hsome] at hl
      exact fun hall => hl (admitted_iff.1 hall).2.1
    | some listener =>
      rw [hsome] at hl
      cases hsome : field {} LogSettings.ofValue? (t.lookup "logging") with
      | none =>
        rw [hsome] at hg
        exact fun hall => hg (admitted_iff.1 hall).2.2
      | some logging =>
        rw [hsome] at hg
        exact ⟨admitted_iff.2 ⟨hs.1, hl.1, hg.1⟩, overrides_iff.2 ⟨hs.2, hl.2, hg.2⟩⟩

/-- Nothing is read unless all values are of their kinds, whatever stands for the sections. -/
theorem admitted_of_ofTable? {t : Toml.Table} {s : Settings} (h : ofTable? t = some s) :
    Admitted known (given t) := by
  unfold ofTable? at h
  obtain ⟨sender, hsender, h⟩ := Option.bind_eq_some_iff.1 h
  obtain ⟨listener, hlistener, h⟩ := Option.bind_eq_some_iff.1 h
  obtain ⟨logging, hlogging, -⟩ := Option.bind_eq_some_iff.1 h
  exact admitted_iff.2 ⟨admitted_section SenderSettings.ofValue?_follows hsender,
    admitted_section ListenerSettings.ofValue?_follows hlistener,
    admitted_section LogSettings.ofValue?_follows hlogging⟩

end Settings

/-! ## Files -/

/-- There is nothing to which the path leads, or it leads through a directory that is missing. -/
def FileSystem.Missing (fs : FileSystem) (path : String) : Prop :=
  fs.resolve path = .error (.os .notFound) ∨
    ∃ place, fs.resolve path = .ok place ∧ fs.node? place = none

theorem FileSystem.readText_of_missing {fs : FileSystem} {path : String} (h : fs.Missing path) :
    fs.readText path = .error (.os .notFound) := by
  unfold readText
  obtain hpath | ⟨place, hpath, hnone⟩ := h
  · rw [hpath]
    rfl
  · simp only [hpath, bind, Except.bind, hnone]
    rfl

namespace Settings

variable {fs : FileSystem} {path : String}

theorem load_eq_malformed {document : String} (hread : fs.readText path = .ok document)
    (hparse : parse? document = none) : load fs path = .error .malformed := by
  unfold load
  rw [hread]
  dsimp only
  rw [hparse]

/-- A file gives the standard settings but for the keys to which it gives values, if all of these
are of their kinds, and no settings otherwise. A file that is missing gives the standard ones. -/
theorem load_given (fs : FileSystem) (path : String) :
    (∀ document t, fs.readText path = .ok document → Toml.parse document = some t →
      ((∀ k ∈ known, isSection (t.lookup k.key.1)) → Admitted known (given t) →
        ∃ s, load fs path = .ok s ∧ ∀ s', Overrides known (given t) {} s' ↔ s' = s) ∧
      (¬ Admitted known (given t) → load fs path = .error .malformed)) ∧
    (fs.Missing path → load fs path = .ok {}) := by
  refine ⟨?_, ?_⟩
  · intro document t hread hparse
    have hparse? : parse? document = ofTable? t := by rw [parse?, hparse, Option.bind_some]
    constructor
    · intro ht hall
      have hfollows := ofTable?_follows ht
      cases hs : ofTable? t with
      | none =>
        rw [hs] at hfollows
        exact absurd hall hfollows
      | some s =>
        rw [hs] at hfollows
        refine ⟨s, load_of_readText hread (hparse?.trans hs), fun s' => ⟨fun h => ?_, ?_⟩⟩
        · exact eq_of_known fun k hk => (h k hk).trans (hfollows.2 k hk).symm
        · rintro rfl
          exact hfollows.2
    · intro hbad
      -- the other sections need not be tables for this
      cases hs : ofTable? t with
      | none => exact load_eq_malformed hread (hparse?.trans hs)
      | some s => exact absurd (admitted_of_ofTable? hs) hbad
  · intro hmissing
    unfold load
    rw [FileSystem.readText_of_missing hmissing]
    rfl

/-- A document with its sections out of order and among other things gives three of the keys. One
with a negative time gives no settings, although its directory could be read. -/
theorem load_given_unordered :
    let document := "[logging]\nlevel = \"debug\"\ncolour = \"on\"\n\n[mouse]\nvendor_id = 7\n\n" ++
      "[sender]\nsettle_ms = 16\nlevel = 9\nvendor_id = 65535\n"
    let negative := "# bench\n[listener]\ndevice_dir = '/dev'\npoll_interval_ms = -1\n"
    (∃ fs, ({} : FileSystem).writeFile "bench.toml" document.toUTF8 = .ok fs ∧
      load fs "bench.toml" = .ok {
        sender := { vendor := 65535, settleMillis := 16 }
        logging := { level := "debug" } } ∧
      load fs "other.toml" = .ok {}) ∧
    ∃ fs, ({} : FileSystem).writeFile "bench.toml" negative.toUTF8 = .ok fs ∧
      load fs "bench.toml" = .error .malformed := by
  intro document negative
  let sections : List Toml.Section := [
    { name := "logging", entries := [("level", .text "debug"), ("colour", .text "on")] },
    { name := "mouse", entries := [("vendor_id", .number 7)] },
    { name := "sender", entries := [("settle_ms", .number 16), ("level", .number 9),
      ("vendor_id", .number 65535)] }]
  have hwellNamed : ∀ part ∈ sections, part.WellNamed := by
    simp only [sections, List.forall_mem_cons]
    exact ⟨⟨by decide, by decide, by decide⟩, ⟨by decide, by decide, by decide⟩,
      ⟨by decide, by decide, by decide⟩, nofun⟩
  have hdocument := Toml.parse_write hwellNamed (by decide)
    (by decide +kernel : Toml.write sections = some document)
  obtain ⟨t, hnegative, ht⟩ := (Option.any_eq_true _ _).1 (by decide +kernel :
    (Toml.parse negative).any (fun t => !decide (Admitted known (given t))) = true)
  have hwrite : ∀ text : String, ({} : FileSystem).writeFile "bench.toml" text.toUTF8 =
      .ok (FileSystem.put {} ["work", "bench.toml"] (.file text.toUTF8)) := fun _ => rfl
  have hread := fun text => FileSystem.readText_of_writeFile (hwrite text)
  constructor
  · refine ⟨_, hwrite document, ?_, (load_given _ _).2 (.inr ⟨_, rfl, rfl⟩)⟩
    obtain ⟨s, hload, hs⟩ := ((load_given _ _).1 _ _ (hread document) hdocument).1
      (by decide) (by decide)
    rw [hload, ← (hs _).1]
    refine overrides_iff.2 ⟨?_, ?_, ?_⟩
    all_goals
      simp only [Overrides, SenderSettings.known, ListenerSettings.known, LogSettings.known,
        List.forall_mem_cons]
    · exact ⟨rfl, rfl, rfl, rfl, rfl, nofun⟩
    · exact ⟨rfl, rfl, nofun⟩
    · exact ⟨rfl, nofun⟩
  · exact ⟨_, hwrite negative,
      ((load_given _ _).1 _ _ (hread negative) hnegative).2 (by simpa using ht)⟩

end Settings

end Keystroke
