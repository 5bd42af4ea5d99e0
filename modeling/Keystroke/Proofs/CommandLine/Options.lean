import Keystroke.CommandLine.Options
import Mathlib.Data.List.Basic
import Mathlib.Data.Option.Basic

/-!
# The order of options

The arguments of a command line are split into items, which are options with their values. What
the items ask for is said here option by option, so that only the order of the values of one option
can matter, and that is seen of the taps alone.

## Main statements

- `parse_eq_run_iff`: a command line is accepted if it splits into items that go together.
- `giveAll_eq_some_iff`: what items ask for, option by option.
- `giveAll_eq_of_perm`: items ask for the same in any order that leaves that of the taps.
-/

namespace Keystroke.CommandLine

/-- An option with its value, or the one option that has none. -/
inductive Item where
  | valued (option : ValueOption) (value : String)
  | requestPermissions
  deriving DecidableEq, Repr

namespace Item

/-- The options after one more was given. -/
def give? : Item → Options → Option Options
  | valued option value, o => option.give? value o
  | requestPermissions, o =>
    if o.requestPermissions then none else some { o with requestPermissions := true }

/-- The value that the item gives the option. -/
def value? (option : ValueOption) : Item → Option String
  | valued option' value => if option' = option then some value else none
  | requestPermissions => none

end Item

/-- The options after the items were given in order, if they go together. -/
def giveAll : List Item → Options → Option Options
  | [], o => some o
  | item :: items, o => (item.give? o).bind (giveAll items)

/-! ## Splitting the arguments -/

/-- The arguments are these items in order. -/
inductive Splits : List String → List Item → Prop where
  | nil : Splits [] []
  | separator {arg : String} (harg : Argument.of arg = .separator) : Splits [arg] []
  | joined {arg name value : String} {option : ValueOption} {rest : List String}
      {items : List Item} (harg : Argument.of arg = .long name (some value))
      (hname : ValueOption.names.lookup name = some option) (h : Splits rest items) :
      Splits (arg :: rest) (.valued option value :: items)
  | apart {arg name value : String} {option : ValueOption} {rest : List String}
      {items : List Item} (harg : Argument.of arg = .long name none)
      (hname : ValueOption.names.lookup name = some option) (hvalue : Argument.of value = .plain)
      (h : Splits rest items) : Splits (arg :: value :: rest) (.valued option value :: items)
  | requestPermissions {arg : String} {rest : List String} {items : List Item}
      (harg : Argument.of arg = .long "request-permissions" none) (h : Splits rest items) :
      Splits (arg :: rest) (.requestPermissions :: items)

/-- The names of the options with values are different from those of the others. -/
theorem ne_of_lookup {name : String} {option : ValueOption}
    (hname : ValueOption.names.lookup name = some option) :
    name ≠ "help" ∧ name ≠ "version" ∧ name ≠ "request-permissions" := by
  have hnot : ∀ other, ValueOption.names.lookup other = none → name ≠ other := by
    rintro other hnone rfl
    rw [hnone] at hname
    cases hname
  exact ⟨hnot _ (by decide), hnot _ (by decide), hnot _ (by decide)⟩

/-- Arguments split in one way only. -/
theorem Splits.unique {args : List String} {items items' : List Item} (h : Splits args items)
    (h' : Splits args items') : items = items' := by
  induction h generalizing items' with
  | nil =>
    cases h'
    rfl
  | separator harg => cases h' <;> simp_all
  | joined harg hname h ih =>
    cases h' with
    | joined harg' hname' h' =>
      rw [harg, Argument.long.injEq, Option.some.injEq] at harg'
      obtain ⟨rfl, rfl⟩ := harg'
      rw [hname, Option.some.injEq] at hname'
      rw [hname', ih h']
    | separator harg' | apart harg' | requestPermissions harg' =>
      rw [harg] at harg'
      cases harg'
  | apart harg hname hvalue h ih =>
    cases h' with
    | apart harg' hname' hvalue' h' =>
      rw [harg, Argument.long.injEq] at harg'
      obtain ⟨rfl, -⟩ := harg'
      rw [hname, Option.some.injEq] at hname'
      rw [hname', ih h']
    | joined harg' =>
      rw [harg] at harg'
      cases harg'
    | requestPermissions harg' =>
      rw [harg, Argument.long.injEq] at harg'
      exact absurd harg'.1 (ne_of_lookup hname).2.2
  | requestPermissions harg h ih =>
    cases h' with
    | requestPermissions harg' h' => rw [ih h']
    | separator harg' | joined harg' =>
      rw [harg] at harg'
      cases harg'
    | apart harg' hname' =>
      rw [harg, Argument.long.injEq] at harg'
      exact absurd harg'.1.symm (ne_of_lookup hname').2.2

/-- Arguments that are accepted are items that go together. -/
theorem splits_of_parseMore {o o' : Options} {args : List String}
    (h : parseMore o args = .run o') : ∃ items, Splits args items ∧ giveAll items o = some o' := by
  fun_induction parseMore o args
  -- Arguments are accepted at their end and after each of the four that leave others to read.
  case case1 => exact ⟨[], .nil, by cases h; rfl⟩
  case case2 o arg rest harg hrest =>
    obtain rfl := List.isEmpty_iff.1 hrest
    exact ⟨[], .separator harg, by cases h; rfl⟩
  case case12 o arg rest value harg hgiven ih =>
    obtain ⟨items, hitems, hgive⟩ := ih h
    rw [Bool.and_eq_true, Option.isNone_iff_eq_none, Bool.not_eq_true'] at hgiven
    obtain ⟨rfl, hnot⟩ := hgiven
    refine ⟨_, .requestPermissions harg hitems, ?_⟩
    rw [giveAll, Item.give?, hnot]
    exact hgive
  case case14 o arg name _ _ _ option value rest hname o₁ hvalue harg ih =>
    obtain ⟨items, hitems, hgive⟩ := ih h
    refine ⟨_, .joined harg hname hitems, ?_⟩
    rw [giveAll, Item.give?, hvalue]
    exact hgive
  case case16 o arg name _ _ _ option value rest hname hplain o₁ hvalue harg ih =>
    obtain ⟨items, hitems, hgive⟩ := ih h
    refine ⟨_, .apart harg hname hplain hitems, ?_⟩
    rw [giveAll, Item.give?, hvalue]
    exact hgive
  all_goals cases h

/-- Items that go together are accepted from any options on. -/
theorem parseMore_of_splits {o o' : Options} {args : List String} {items : List Item}
    (h : Splits args items) (hgive : giveAll items o = some o') : parseMore o args = .run o' := by
  induction h generalizing o with
  | nil =>
    cases hgive
    rfl
  | separator harg =>
    cases hgive
    rw [parseMore, harg]
    rfl
  | @joined arg name value option rest items harg hname h ih =>
    obtain ⟨o₁, (hvalue : option.give? value o = some o₁), hgive⟩ :=
      Option.bind_eq_some_iff.1 hgive
    obtain ⟨hhelp, hversion, hpermissions⟩ := ne_of_lookup hname
    rw [parseMore, harg]
    split <;> rename_i heq <;> cases heq
    case h_9 => simpa [hname, hvalue] using ih hgive
    all_goals contradiction
  | @apart arg name value option rest items harg hname hplain h ih =>
    obtain ⟨o₁, (hvalue : option.give? value o = some o₁), hgive⟩ :=
      Option.bind_eq_some_iff.1 hgive
    obtain ⟨hhelp, hversion, hpermissions⟩ := ne_of_lookup hname
    rw [parseMore, harg]
    split <;> rename_i heq <;> cases heq
    case h_9 => simpa [hname, hplain, hvalue] using ih hgive
    all_goals contradiction
  | requestPermissions harg h ih =>
    obtain ⟨o₁, hvalue, hgive⟩ := Option.bind_eq_some_iff.1 hgive
    rw [parseMore, harg]
    simp_all [Item.give?]

/-- A command line is accepted if it splits into items that go together. -/
theorem parse_eq_run_iff {args : List String} {o : Options} :
    parse args = .run o ↔ ∃ items, Splits args items ∧ giveAll items {} = some o := by
  constructor
  · exact splits_of_parseMore
  · rintro ⟨items, hitems, hgive⟩
    exact parseMore_of_splits hitems hgive

/-! ## What items ask for -/

/-- What a value of an option is read as. -/
inductive Reading where
  | text (s : String)
  | seconds (n : UInt64)
  | micros (n : UInt32)
  deriving DecidableEq, Repr

/-- What the value is read as if it is one for the option. -/
def ValueOption.read? (option : ValueOption) (value : String) : Option Reading :=
  match option with
  | text | tap | combo => some (.text value)
  | config => if value = "" then none else some (.text value)
  | listen => (Text.natural? value).bind fun n =>
    if n < UInt64.size then some (.seconds n.toUInt64) else none
  | keyDelay => (Text.integer? value).bind fun n =>
    if 0 ≤ n ∧ n < UInt32.size then some (.micros n.toNat.toUInt32) else none

/-- What the values of an option were read as, in order. -/
def Options.readings (o : Options) : ValueOption → List Reading
  | .text => o.text.toList.map .text
  | .tap => o.taps.map .text
  | .combo => o.combo.toList.map .text
  | .listen => o.listen.toList.map .seconds
  | .keyDelay => o.keyDelay.toList.map .micros
  | .config => o.config.toList.map .text

/-- An option is told by the list it makes. -/
theorem eq_of_map_toList {α β : Type} {f : α → β} (hf : Function.Injective f) {x y : Option α}
    (h : x.toList.map f = y.toList.map f) : x = y := by
  cases x <;> cases y <;> simp_all [hf.eq_iff]

/-- Options are told by what was read and by whether permissions are asked for. -/
theorem Options.eq_of_readings {o o' : Options}
    (h : ∀ option, o.readings option = o'.readings option)
    (hrequest : o.requestPermissions = o'.requestPermissions) : o = o' := by
  have htext : Function.Injective Reading.text := fun _ _ => Reading.text.inj
  have hseconds : Function.Injective Reading.seconds := fun _ _ => Reading.seconds.inj
  have hmicros : Function.Injective Reading.micros := fun _ _ => Reading.micros.inj
  have heq : o.text = o'.text ∧ o.taps = o'.taps ∧ o.combo = o'.combo ∧ o.listen = o'.listen ∧
      o.keyDelay = o'.keyDelay ∧ o.config = o'.config :=
    ⟨eq_of_map_toList htext (h .text), htext.list_map (h .tap),
      eq_of_map_toList htext (h .combo), eq_of_map_toList hseconds (h .listen),
      eq_of_map_toList hmicros (h .keyDelay), eq_of_map_toList htext (h .config)⟩
  cases o
  cases o'
  simp_all

/-- Only the taps may be repeated. -/
theorem Options.length_readings_le (o : Options) {option : ValueOption} (h : option ≠ .tap) :
    (o.readings option).length ≤ 1 := by
  have hle : ∀ {α : Type} (x : Option α), x.toList.length ≤ 1 := by
    intro α x
    cases x <;> simp
  cases option with
  | tap => exact absurd rfl h
  | _ =>
    rw [readings, List.length_map]
    exact hle _

/-- The values that the items give the option, in order. -/
def given (option : ValueOption) (items : List Item) : List String :=
  items.filterMap (Item.value? option)

/-- The options `o` are what the items ask for in addition to `o₀`. -/
structure Adds (o₀ : Options) (items : List Item) (o : Options) : Prop where
  readings : ∀ option, (o.readings option).map some =
    (o₀.readings option).map some ++ (given option items).map option.read?
  requestPermissions : o.requestPermissions.toNat =
    o₀.requestPermissions.toNat + items.count .requestPermissions

/-- What an option makes of the readings. -/
theorem readings_of_give? {o₀ o : Options} {option : ValueOption} {value : String}
    (h : option.give? value o₀ = some o) : ∃ reading, option.read? value = some reading ∧
      (∀ other, o.readings other =
        o₀.readings other ++ if option = other then [reading] else []) ∧
      o.requestPermissions = o₀.requestPermissions := by
  cases option with
  | text | combo =>
    simp only [ValueOption.give?] at h
    split at h <;> cases h
    next hnone =>
      refine ⟨_, rfl, fun other => ?_, rfl⟩
      cases other <;> simp_all [Options.readings]
  | tap =>
    cases h
    refine ⟨_, rfl, fun other => ?_, rfl⟩
    cases other <;> simp [Options.readings]
  | config =>
    simp only [ValueOption.give?] at h
    split at h <;> cases h
    next hnone =>
      refine ⟨_, if_neg hnone.2, fun other => ?_, rfl⟩
      cases other <;> simp_all [Options.readings]
  | listen =>
    simp only [ValueOption.give?] at h
    split at h
    next n hnone hn =>
      split at h <;> cases h
      next hfits =>
        refine ⟨.seconds n.toUInt64, ?_, fun other => ?_, rfl⟩
        · rw [ValueOption.read?, hn, Option.bind_some, if_pos hfits]
        · cases other <;> simp [Options.readings, hnone]
    next => cases h
  | keyDelay =>
    simp only [ValueOption.give?] at h
    split at h
    next n hnone hn =>
      split at h <;> cases h
      next hfits =>
        refine ⟨.micros n.toNat.toUInt32, ?_, fun other => ?_, rfl⟩
        · rw [ValueOption.read?, hn, Option.bind_some, if_pos hfits]
        · cases other <;> simp [Options.readings, hnone]
    next => cases h

/-- A value that can be read is accepted if the option is one of a tap or is given for the first
time. -/
theorem give?_isSome {o₀ : Options} {option : ValueOption} {value : String} {reading : Reading}
    (hread : option.read? value = some reading) (h : option = .tap ∨ o₀.readings option = []) :
    ∃ o, option.give? value o₀ = some o := by
  cases option with
  | text | combo =>
    have hnone := h.resolve_left (by decide)
    simp [Options.readings] at hnone
    simp [ValueOption.give?, hnone]
  | tap => exact ⟨_, rfl⟩
  | config =>
    have hnone := h.resolve_left (by decide)
    simp [Options.readings] at hnone
    simp [ValueOption.read?] at hread
    simp [ValueOption.give?, hnone, hread.1]
  | listen =>
    have hnone := h.resolve_left (by decide)
    simp [Options.readings] at hnone
    simp only [ValueOption.read?, Option.bind_eq_some_iff] at hread
    obtain ⟨n, hn, hread⟩ := hread
    split at hread <;> cases hread
    next hfits => exact ⟨_, by simp only [ValueOption.give?, hnone, hn, if_pos hfits]; rfl⟩
  | keyDelay =>
    have hnone := h.resolve_left (by decide)
    simp [Options.readings] at hnone
    simp only [ValueOption.read?, Option.bind_eq_some_iff] at hread
    obtain ⟨n, hn, hread⟩ := hread
    split at hread <;> cases hread
    next hfits => exact ⟨_, by simp only [ValueOption.give?, hnone, hn, if_pos hfits]; rfl⟩

theorem given_cons (option other : ValueOption) (value : String) (items : List Item) :
    given other (.valued option value :: items) =
      (if option = other then [value] else []) ++ given other items := by
  simp only [given, List.filterMap_cons, Item.value?]
  split
  next h => simp_all
  next h => simp_all

/-- An item that is accepted leaves what the items after it ask for. -/
theorem adds_cons_iff {o₀ o₁ o : Options} {item : Item} {items : List Item}
    (h : item.give? o₀ = some o₁) : Adds o₀ (item :: items) o ↔ Adds o₁ items o := by
  cases item with
  | valued option value =>
    obtain ⟨reading, hread, hreadings, hrequest⟩ := readings_of_give? h
    have hvalues : ∀ other, (o₀.readings other).map some ++
        (given other (.valued option value :: items)).map other.read? =
          (o₁.readings other).map some ++ (given other items).map other.read? := by
      intro other
      rw [hreadings, given_cons]
      split
      next heq => simp [← heq, hread]
      next => simp
    constructor
    · rintro ⟨h₁, h₂⟩
      exact ⟨fun other => (h₁ other).trans (hvalues other), by simpa [hrequest] using h₂⟩
    · rintro ⟨h₁, h₂⟩
      exact ⟨fun other => (h₁ other).trans (hvalues other).symm, by simpa [hrequest] using h₂⟩
  | requestPermissions =>
    simp only [Item.give?] at h
    split at h <;> cases h
    next hnot =>
      constructor <;>
      · rintro ⟨h₁, h₂⟩
        refine ⟨h₁, ?_⟩
        simp_all
        omega

/-- An item is accepted if options exist that are what it and others ask for. -/
theorem give?_isSome_of_adds {o₀ o : Options} {item : Item} {items : List Item}
    (h : Adds o₀ (item :: items) o) : ∃ o₁, item.give? o₀ = some o₁ := by
  cases item with
  | valued option value =>
    have hreadings := h.readings option
    rw [given_cons, if_pos rfl, List.singleton_append, List.map_cons] at hreadings
    have hmem : option.read? value ∈ (o.readings option).map some := by simp [hreadings]
    obtain ⟨reading, -, hread⟩ := List.mem_map.1 hmem
    apply give?_isSome hread.symm
    by_cases htap : option = .tap
    · exact .inl htap
    · -- The value stands in `o` after those of `o₀`, where there is room for one.
      have hle := o.length_readings_le htap
      have hlen := congrArg List.length hreadings
      simp only [List.length_map, List.length_append, List.length_cons] at hlen
      exact .inr (List.length_eq_zero_iff.1 (by omega))
  | requestPermissions =>
    have hrequest := h.requestPermissions
    have hle := o.requestPermissions.toNat_le
    cases hbefore : o₀.requestPermissions with
    | false => simp [Item.give?, hbefore]
    | true =>
      simp [hbefore] at hrequest
      omega

/-- Items go together if there are options that are what they ask for, option by option. -/
theorem giveAll_eq_some_iff {o₀ o : Options} {items : List Item} :
    giveAll items o₀ = some o ↔ Adds o₀ items o := by
  induction items generalizing o₀ with
  | nil =>
    rw [giveAll, Option.some.injEq]
    constructor
    · rintro rfl
      exact ⟨fun option => (List.append_nil _).symm, rfl⟩
    · rintro ⟨hreadings, hrequest⟩
      have hsame : ∀ option, o.readings option = o₀.readings option := by
        intro option
        have h := hreadings option
        rw [given, List.filterMap_nil, List.map_nil, List.append_nil] at h
        exact (Option.some_injective Reading).list_map h
      refine Options.eq_of_readings (fun option => (hsame option).symm) ?_
      cases h : o.requestPermissions <;> cases h₀ : o₀.requestPermissions <;>
        simp [h, h₀] at hrequest ⊢
  | cons item items ih =>
    rw [giveAll, Option.bind_eq_some_iff]
    constructor
    · rintro ⟨o₁, hitem, hitems⟩
      exact (adds_cons_iff hitem).2 (ih.1 hitems)
    · intro h
      obtain ⟨o₁, hitem⟩ := give?_isSome_of_adds h
      exact ⟨o₁, hitem, ih.2 ((adds_cons_iff hitem).1 h)⟩

/-- A list that is not longer than one has no other order. -/
theorem eq_of_perm_of_length_le {α : Type} {xs ys : List α} (h : xs.Perm ys) (hle : xs.length ≤ 1) :
    xs = ys := by
  cases xs with
  | nil => exact h.nil_eq
  | cons x xs =>
    obtain rfl := List.length_eq_zero_iff.1 (Nat.le_zero.1 (Nat.le_of_succ_le_succ hle))
    exact (List.perm_singleton.1 h.symm).symm

theorem given_perm {items items' : List Item} (h : items.Perm items') (option : ValueOption) :
    (given option items).Perm (given option items') :=
  h.filterMap _

/-- What items ask for does not change with the order of the values of different options. -/
theorem adds_of_perm {o : Options} {items items' : List Item} (h : items.Perm items')
    (htaps : given .tap items = given .tap items') (hadds : Adds {} items o) :
    Adds {} items' o := by
  constructor
  · intro option
    have hreadings := hadds.readings option
    by_cases htap : option = .tap
    · rw [hreadings, htap, htaps]
    · -- Of another option there is one value at the most, so that its values have no other order.
      have hnil : (({} : Options).readings option).map some = [] := by cases option <;> rfl
      rw [hnil, List.nil_append] at hreadings ⊢
      rw [hreadings]
      apply eq_of_perm_of_length_le ((given_perm h option).map option.read?)
      rw [← hreadings, List.length_map]
      exact o.length_readings_le htap
  · rw [hadds.requestPermissions, h.count_eq]

/-- Items ask for the same in any order that leaves that of the taps. -/
theorem giveAll_eq_of_perm {items items' : List Item} (h : items.Perm items')
    (htaps : given .tap items = given .tap items') : giveAll items {} = giveAll items' {} := by
  ext o
  rw [giveAll_eq_some_iff, giveAll_eq_some_iff]
  exact ⟨adds_of_perm h htaps, adds_of_perm h.symm htaps.symm⟩

end Keystroke.CommandLine
