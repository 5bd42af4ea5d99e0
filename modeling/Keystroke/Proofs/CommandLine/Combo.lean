import Keystroke.CommandLine.Combo
import Keystroke.Proofs.Key.Name
import Keystroke.Proofs.Modifier.Bits

/-!
# Which texts are combinations

A text is cut at its plus signs in one way only. It is a combination if all parts but the last are
names of modifiers and the last is the name of a key, and which combination it is depends on what
these parts name alone: not on their order or number, and not on how they are spelled.

## Main statements

- `cuts_iff`: the parts of a text are those into which it is split.
- `addModifiers_of_named`, `addModifiers_of_not_named`: what comes of names of modifiers.
- `parse_eq_ok_iff`: a text is the combination that its parts spell.
- `parse_grammar`: which texts are combinations, of what, and what is said of the others.
-/

namespace Keystroke.CommandLine.Combo

/-! ## Parts -/

/-- The text is these parts with plus signs between them. The last part is for the key. -/
structure Cuts (text : String) (mods : List String) (key : String) : Prop where
  joined : text = "+".intercalate (mods ++ [key])
  noPlus : ∀ part ∈ mods ++ [key], '+' ∉ part.toList

theorem splitChars_eq_splitOn (sep : Char) (cs : List Char) :
    Text.splitChars sep cs = cs.splitOn sep := by
  induction cs with
  | nil => rfl
  | cons c cs ih =>
    rw [List.splitOn_cons_eq_if_modifyHead, Text.splitChars, ih]
    simp only [beq_iff_eq]
    split
    next => rfl
    next =>
      cases hparts : cs.splitOn sep with
      | nil => exact absurd hparts (List.splitOn_ne_nil sep cs)
      | cons first rest => rfl

/-- The parts of a text are those into which it is split. -/
theorem cuts_iff {text : String} {mods : List String} {key : String} :
    Cuts text mods key ↔ Text.split '+' text = mods ++ [key] := by
  have hmap : ∀ parts : List String, (parts.map String.toList).map String.ofList = parts := by
    intro parts
    simp [List.map_map, Function.comp_def]
  constructor
  · rintro ⟨rfl, hplus⟩
    have hsep : ∀ part ∈ (mods ++ [key]).map String.toList, '+' ∉ part := by
      simpa only [List.forall_mem_map] using hplus
    unfold Text.split
    rw [splitChars_eq_splitOn, String.toList_intercalate]
    show ((['+'].intercalate _).splitOn '+').map _ = _
    rw [List.splitOn_intercalate '+' hsep (by simp), hmap]
  · intro hsplit
    have hparts : Text.splitChars '+' text.toList = (mods ++ [key]).map String.toList := by
      rw [← hsplit]
      unfold Text.split
      simp [List.map_map, Function.comp_def]
    constructor
    · rw [← String.toList_inj, String.toList_intercalate, ← hparts]
      exact (Text.intercalate_splitChars '+' text.toList).symm
    · intro part hpart
      have hmem : part.toList ∈ Text.splitChars '+' text.toList := by
        rw [hparts]
        exact List.mem_map_of_mem hpart
      exact Text.not_mem_of_mem_splitChars hmem

theorem exists_cuts (text : String) : ∃ mods key, Cuts text mods key := by
  have hne : Text.split '+' text ≠ [] := by
    unfold Text.split
    simpa using Text.splitChars_ne_nil '+' text.toList
  exact ⟨_, _, cuts_iff.2 (List.dropLast_append_getLast hne).symm⟩

/-! ## Names of modifiers -/

/-- The name is one of the modifier's but for the case of letters. -/
def Named (bit : Modifier) (name : String) : Prop :=
  ∃ known, (known, bit) ∈ modifierNames ∧ Text.sameIgnoringCase known name = true

/-- A table in which no key occurs twice is looked up for what is in it. -/
theorem lookup_eq_some_iff_mem {α β : Type} [BEq α] [LawfulBEq α] {table : List (α × β)} {k : α}
    {v : β} (h : (table.map (·.1)).Nodup) : table.lookup k = some v ↔ (k, v) ∈ table := by
  constructor
  · intro hlookup
    obtain ⟨before, after, rfl, -⟩ := List.lookup_eq_some_iff.1 hlookup
    simp
  · intro hmem
    obtain ⟨before, after, rfl⟩ := List.append_of_mem hmem
    refine List.lookup_eq_some_iff.2 ⟨before, after, rfl, fun entry hentry => ?_⟩
    -- the key of an entry before it would occur twice
    rw [List.map_append, List.nodup_append] at h
    have hne := h.2.2 entry.1 (List.mem_map_of_mem hentry) k (by simp)
    simpa using hne.symm

/-- The names of modifiers are looked up in small letters. -/
theorem lookup_lower_iff {bit : Modifier} {name : String} :
    modifierNames.lookup (Text.lower name) = some bit ↔ Named bit name := by
  have hlower : ∀ entry ∈ modifierNames, Text.foldCase entry.1.toList = entry.1.toList := by
    decide +kernel
  have hsame : ∀ entry ∈ modifierNames,
      Text.sameIgnoringCase entry.1 name = true ↔ entry.1 = Text.lower name := by
    intro entry hentry
    rw [Text.sameIgnoringCase_iff, hlower entry hentry, ← String.toList_inj]
    unfold Text.lower
    rw [String.toList_ofList]
  rw [lookup_eq_some_iff_mem (by decide)]
  constructor
  · intro hmem
    exact ⟨_, hmem, (hsame _ hmem).2 rfl⟩
  · rintro ⟨known, hknown, hname⟩
    rw [← (hsame _ hknown).1 hname]
    exact hknown

theorem named_of_respells {s t : String} (h : Text.Respells s t) {bit : Modifier} :
    Named bit (Text.trim t) ↔ Named bit (Text.trim s) := by
  unfold Named Text.sameIgnoringCase
  rw [h.foldCase_trim]

section AddModifiers

variable {names : List String} (m : Modifier)

/-- The modifiers with the names are added to a mask, bit by bit. -/
theorem addModifiers_of_named (h : ∀ name ∈ names, ∃ bit, Named bit name) :
    ∃ mask, addModifiers m names = .ok mask ∧ ∀ i, mask.bit i = true ↔
      m.bit i = true ∨ ∃ name ∈ names, ∃ bit, Named bit name ∧ bit.bit i = true := by
  induction names generalizing m with
  | nil => exact ⟨m, rfl, by simp⟩
  | cons name names ih =>
    rw [List.forall_mem_cons] at h
    obtain ⟨⟨bit, hbit⟩, hrest⟩ := h
    have hlookup := lookup_lower_iff.2 hbit
    obtain ⟨mask, hmask, hbits⟩ := ih (m ∪ bit) hrest
    refine ⟨mask, ?_, fun i => ?_⟩
    · rw [addModifiers, hlookup]
      exact hmask
    · -- what the first name names is looked up, so it is one modifier only
      have hfirst : (∃ other, Named other name ∧ other.bit i = true) ↔ bit.bit i = true := by
        constructor
        · rintro ⟨other, hother, hi⟩
          have heq := lookup_lower_iff.2 hother
          rw [hlookup, Option.some.injEq] at heq
          rw [heq]
          exact hi
        · exact fun hi => ⟨bit, hbit, hi⟩
      simp only [hbits, Modifier.bit_union, Bool.or_eq_true, List.exists_mem_cons_iff, hfirst,
        or_assoc]

theorem named_of_addModifiers {mask : Modifier} (h : addModifiers m names = .ok mask) :
    ∀ name ∈ names, ∃ bit, Named bit name := by
  induction names generalizing m with
  | nil => simp
  | cons name names ih =>
    unfold addModifiers at h
    split at h
    next bit hlookup =>
      exact List.forall_mem_cons.2 ⟨⟨bit, lookup_lower_iff.1 hlookup⟩, ih _ h⟩
    next => cases h

/-- The first name that is not one of a modifier is reported. -/
theorem addModifiers_of_not_named {name : String} {after : List String}
    (h : ∀ name ∈ names, ∃ bit, Named bit name) (hname : ¬ ∃ bit, Named bit name) :
    addModifiers m (names ++ name :: after) = .error (Text.lower name) := by
  induction names generalizing m with
  | nil =>
    have hnone : modifierNames.lookup (Text.lower name) = none := by
      rw [Option.eq_none_iff_forall_ne_some]
      intro bit hbit
      exact hname ⟨bit, lookup_lower_iff.1 hbit⟩
    rw [List.nil_append, addModifiers, hnone]
  | cons first names ih =>
    rw [List.forall_mem_cons] at h
    obtain ⟨⟨bit, hbit⟩, hrest⟩ := h
    rw [List.cons_append, addModifiers, lookup_lower_iff.2 hbit]
    exact ih (m ∪ bit) hrest

end AddModifiers

/-! ## Parsing -/

/-- The parts spell the combination: all but the last name the modifiers of its mask, and the last
names its key. -/
structure Spells (mods : List String) (key : String) (c : Combo) : Prop where
  named : ∀ part ∈ mods, ∃ bit, Named bit (Text.trim part)
  modifiers : ∀ i, c.modifiers.bit i = true ↔
    ∃ part ∈ mods, ∃ bit, Named bit (Text.trim part) ∧ bit.bit i = true
  key : Key.ofName (Text.trim key) = c.key
  known : c.key ≠ .unknown

theorem ofNames_eq_ok_iff {text key : String} {names : List String} {c : Combo} :
    ofNames text names key = .ok c ↔
      addModifiers ∅ names = .ok c.modifiers ∧ Key.ofName key = c.key ∧ c.key ≠ .unknown := by
  obtain ⟨modifiers, known⟩ := c
  unfold ofNames
  generalize addModifiers ∅ names = result
  generalize Key.ofName key = found
  cases result with
  | error name => simp
  | ok mask =>
    by_cases hfound : found = .unknown
    · subst hfound
      constructor
      · intro h
        cases h
      · rintro ⟨-, rfl, hknown⟩
        exact absurd rfl hknown
    · simp only [Except.ok.injEq, Combo.mk.injEq]
      exact ⟨fun h => ⟨h.1, h.2, h.2 ▸ hfound⟩, fun h => ⟨h.1, h.2.1⟩⟩

section Parse

variable {text : String} {mods : List String} {key : String} (hcuts : Cuts text mods key)
include hcuts

theorem parse_eq : parse text = ofNames text (mods.map Text.trim) (Text.trim key) := by
  unfold parse names
  rw [cuts_iff.1 hcuts, List.map_append, List.map_singleton, List.dropLast_concat,
    List.getLastD_concat]

theorem parse_of_not_named {before after : List String} {part : String}
    (hmods : mods = before ++ part :: after)
    (hbefore : ∀ p ∈ before, ∃ bit, Named bit (Text.trim p))
    (hpart : ¬ ∃ bit, Named bit (Text.trim part)) :
    parse text = .error (.unknownModifier (Text.lower (Text.trim part)) text) := by
  have hnames : ∀ name ∈ before.map Text.trim, ∃ bit, Named bit name :=
    List.forall_mem_map.2 hbefore
  rw [parse_eq hcuts, hmods, List.map_append, List.map_cons, ofNames,
    addModifiers_of_not_named ∅ hnames hpart]

/-- A text is the combination that its parts spell. -/
theorem parse_eq_ok_iff (c : Combo) : parse text = .ok c ↔ Spells mods key c := by
  have hnames : (∀ name ∈ mods.map Text.trim, ∃ bit, Named bit name) ↔
      ∀ part ∈ mods, ∃ bit, Named bit (Text.trim part) := List.forall_mem_map
  rw [parse_eq hcuts, ofNames_eq_ok_iff]
  constructor
  · rintro ⟨hmask, hkey, hknown⟩
    have hnamed := named_of_addModifiers ∅ hmask
    obtain ⟨mask, hmask', hbits⟩ := addModifiers_of_named ∅ hnamed
    rw [hmask, Except.ok.injEq] at hmask'
    subst hmask'
    exact ⟨hnames.1 hnamed, by simpa using hbits, hkey, hknown⟩
  · intro hspells
    obtain ⟨mask, hmask, hbits⟩ := addModifiers_of_named ∅ (hnames.2 hspells.named)
    -- the mask is known by its bits
    have heq : mask = c.modifiers := by
      apply Modifier.ext_bit
      intro i _
      rw [Bool.eq_iff_iff, hbits, hspells.modifiers]
      simp
    rw [hmask, heq]
    exact ⟨rfl, hspells.key, hspells.known⟩

/-- A text is a combination if all its parts are names of what they are for. -/
theorem exists_parse_iff : (∃ c, parse text = .ok c) ↔
    (∀ part ∈ mods, ∃ bit, Named bit (Text.trim part)) ∧ Key.ofName (Text.trim key) ≠ .unknown := by
  constructor
  · rintro ⟨c, hc⟩
    have hspells := (parse_eq_ok_iff hcuts c).1 hc
    rw [hspells.key]
    exact ⟨hspells.named, hspells.known⟩
  · rintro ⟨hmods, hkey⟩
    obtain ⟨mask, hmask, -⟩ := addModifiers_of_named ∅ (List.forall_mem_map.2 hmods)
    generalize hfound : Key.ofName (Text.trim key) = found at hkey
    refine ⟨⟨mask, found⟩, ?_⟩
    rw [parse_eq hcuts, ofNames_eq_ok_iff]
    exact ⟨hmask, hfound, hkey⟩

theorem parse_of_unknown_key (hmods : ∀ part ∈ mods, ∃ bit, Named bit (Text.trim part))
    (hkey : Key.ofName (Text.trim key) = .unknown) :
    parse text = .error (.unknownKey (Text.trim key) text) := by
  obtain ⟨mask, hmask, -⟩ := addModifiers_of_named ∅ (List.forall_mem_map.2 hmods)
  rw [parse_eq hcuts, ofNames, hmask, hkey]

end Parse

/-! ## Order, number and spelling -/

/-- The parts before the last are the same but for their order, their number and their spelling. -/
def Alike (mods mods' : List String) : Prop :=
  (∀ part ∈ mods, ∃ part' ∈ mods', Text.Respells part part') ∧
    ∀ part' ∈ mods', ∃ part ∈ mods, Text.Respells part part'

section Alike

variable {mods mods' : List String} {P : String → Prop}
  (hP : ∀ {s t}, Text.Respells s t → (P t ↔ P s))
include hP

theorem Alike.forall_iff (h : Alike mods mods') :
    (∀ part ∈ mods', P part) ↔ ∀ part ∈ mods, P part := by
  obtain ⟨hthere, hback⟩ := h
  constructor
  · intro hall part hpart
    obtain ⟨part', hpart', hrespells⟩ := hthere part hpart
    exact (hP hrespells).1 (hall part' hpart')
  · intro hall part' hpart'
    obtain ⟨part, hpart, hrespells⟩ := hback part' hpart'
    exact (hP hrespells).2 (hall part hpart)

theorem Alike.exists_iff (h : Alike mods mods') :
    (∃ part ∈ mods', P part) ↔ ∃ part ∈ mods, P part := by
  have hnone := h.forall_iff (P := fun part => ¬ P part) fun hrespells => not_congr (hP hrespells)
  simpa using not_congr hnone

end Alike

/-- What the parts spell is spelled by others that are like them. -/
theorem spells_iff_of_alike {mods mods' : List String} {key key' : String}
    (hmods : Alike mods mods') (hkey : Text.Respells key key') (c : Combo) :
    Spells mods' key' c ↔ Spells mods key c := by
  have hnamed := hmods.forall_iff (P := fun part => ∃ bit, Named bit (Text.trim part))
    fun hrespells => exists_congr fun bit => named_of_respells hrespells
  have hbits := fun i => hmods.exists_iff
    (P := fun part => ∃ bit, Named bit (Text.trim part) ∧ bit.bit i = true)
    fun hrespells => exists_congr fun bit => and_congr_left' (named_of_respells hrespells)
  have hfound : Key.ofName (Text.trim key') = Key.ofName (Text.trim key) :=
    Key.ofName_respells hkey.trim
  constructor
  · rintro ⟨h₁, h₂, h₃, h₄⟩
    exact ⟨hnamed.1 h₁, fun i => (h₂ i).trans (hbits i), hfound.symm.trans h₃, h₄⟩
  · rintro ⟨h₁, h₂, h₃, h₄⟩
    exact ⟨hnamed.2 h₁, fun i => (h₂ i).trans (hbits i).symm, hfound.trans h₃, h₄⟩

/-- **The grammar of combinations**: a text is cut at its plus signs into parts. It is a combination
exactly if all parts but the last are names of modifiers and the last is the name of a key, and then
it is that key with the modifiers that are named. The first part that should name a modifier and
does not is reported, and if there is none the part that should name a key. Parts in another order,
repeated or spelled in another way come to the same combination. -/
theorem parse_grammar (text : String) :
    (∃ mods key, Cuts text mods key) ∧ ∀ mods key, Cuts text mods key →
      ((∃ c, parse text = .ok c) ↔ (∀ part ∈ mods, ∃ bit, Named bit (Text.trim part)) ∧
        Key.ofName (Text.trim key) ≠ .unknown) ∧
      (∀ c, parse text = .ok c ↔ Spells mods key c) ∧
      (∀ before part after, mods = before ++ part :: after →
        (∀ p ∈ before, ∃ bit, Named bit (Text.trim p)) →
        (¬ ∃ bit, Named bit (Text.trim part)) →
        parse text = .error (.unknownModifier (Text.lower (Text.trim part)) text)) ∧
      ((∀ part ∈ mods, ∃ bit, Named bit (Text.trim part)) →
        Key.ofName (Text.trim key) = .unknown →
        parse text = .error (.unknownKey (Text.trim key) text)) ∧
      ∀ text' mods' key', Cuts text' mods' key' → Alike mods mods' → Text.Respells key key' →
        ∀ c, parse text' = .ok c ↔ parse text = .ok c := by
  refine ⟨exists_cuts text, fun mods key hcuts => ⟨exists_parse_iff hcuts, parse_eq_ok_iff hcuts,
    ?_, parse_of_unknown_key hcuts, ?_⟩⟩
  · intro before part after hmods hbefore hpart
    exact parse_of_not_named hcuts hmods hbefore hpart
  · intro text' mods' key' hcuts' hmods hkey c
    rw [parse_eq_ok_iff hcuts', parse_eq_ok_iff hcuts]
    exact spells_iff_of_alike hmods hkey c

/-- Two modifiers in another order, one of them twice, with blanks and in other letters. A name that
no modifier has is reported although the key has a bad name as well. -/
theorem parse_grammar_shuffled :
    Cuts "cmd+option+esc" ["cmd", "option"] "esc" ∧
    Cuts " Option +CMD+\u3000cmd+ESC " [" Option ", "CMD", "\u3000cmd"] "ESC " ∧
    parse " Option +CMD+\u3000cmd+ESC " = .ok ⟨.super ∪ .alt, .escape⟩ ∧
    parse "ctrl+ Hyper+none" = .error (.unknownModifier "hyper" "ctrl+ Hyper+none") := by
  have hcuts : Cuts "cmd+option+esc" ["cmd", "option"] "esc" := cuts_iff.2 (by decide +kernel)
  have hcuts' : Cuts " Option +CMD+\u3000cmd+ESC " [" Option ", "CMD", "\u3000cmd"] "ESC " :=
    cuts_iff.2 (by decide +kernel)
  have hcuts'' : Cuts "ctrl+ Hyper+none" ["ctrl", " Hyper"] "none" :=
    cuts_iff.2 (by decide +kernel)
  have hcmd : Text.Respells "cmd" "CMD" := Text.respells_of_all "" "CMD" "" (by decide +kernel)
  have hcmd' : Text.Respells "cmd" "\u3000cmd" :=
    Text.respells_of_all "\u3000" "cmd" "" (by decide +kernel)
  have hoption : Text.Respells "option" " Option " :=
    Text.respells_of_all " " "Option" " " (by decide +kernel)
  have hesc : Text.Respells "esc" "ESC " := Text.respells_of_all "" "ESC" " " (by decide +kernel)
  refine ⟨hcuts, hcuts', ?_, ?_⟩
  · obtain ⟨-, -, -, -, hsame⟩ := (parse_grammar "cmd+option+esc").2 _ _ hcuts
    apply (hsame _ _ _ hcuts' ⟨?_, ?_⟩ hesc _).2
    · decide +kernel
    · simp [hcmd, hoption]
    · simp [hcmd, hcmd', hoption]
  · obtain ⟨-, -, hbad, -, -⟩ := (parse_grammar "ctrl+ Hyper+none").2 _ _ hcuts''
    have hctrl : ∃ bit, Named bit (Text.trim "ctrl") :=
      ⟨.ctrl, lookup_lower_iff.1 (by decide +kernel)⟩
    have hhyper : modifierNames.lookup (Text.lower (Text.trim " Hyper")) = none := by decide +kernel
    have hnone : ¬ ∃ bit, Named bit (Text.trim " Hyper") := by
      rintro ⟨bit, hbit⟩
      rw [← lookup_lower_iff, hhyper] at hbit
      cases hbit
    have herror := hbad ["ctrl"] " Hyper" [] rfl (by simpa using hctrl) hnone
    have hlower : Text.lower (Text.trim " Hyper") = "hyper" := by decide +kernel
    rw [herror, hlower]

end Keystroke.CommandLine.Combo
