import Keystroke.Key.Name
import Keystroke.Proofs.Key.Evdev
import Keystroke.Proofs.Text.Spelling
import Mathlib.Data.List.Nodup

/-!
# The names of keys

The canonical names of the keys and the other names are one table, in which no two names differ in
case only. So it does not matter in which order the table is searched, and a text that is the name
of a key is its name in every spelling.

## Main statements

- `nodup_folded_names`: no two names differ in case only.
- `firstNamed_eq_of_mem`: a name finds its own key, whatever the order of the table.
- `ofName_respells`: the spelling of a name does not matter.
- `ofName_finds`: which texts are names of keys, and of which.
-/

namespace Keystroke.Key

/-- The keys under their canonical names, and under the others. -/
def named : List (String × Key) := all.map (fun key => (key.name, key)) ++ aliases

/-- The first key in a table whose name is the text but for the case of letters, `unknown` if there
is none. -/
def firstNamed (table : List (String × Key)) (text : String) : Key :=
  ((table.find? fun entry => Text.sameIgnoringCase entry.1 text).map (·.2)).getD .unknown

/-! ## The table -/

theorem mem_named_name {key : Key} (h : key ≠ .unknown) : (key.name, key) ∈ named :=
  List.mem_append_left _ (List.mem_map_of_mem (mem_all h))

theorem ne_unknown_of_mem_named : ∀ entry ∈ named, entry.2 ≠ .unknown := by decide +kernel

/-- A name has at least one character, and none that is blank or not an ASCII one. -/
theorem plain_of_mem_named : ∀ entry ∈ named, entry.1.toList ≠ [] ∧
    ∀ c ∈ entry.1.toList, c.toNat < 128 ∧ Text.isBlank c = false := by
  -- the characters of each name are tested, not all characters that there are
  have htest : ∀ entry ∈ named, (!entry.1.toList.isEmpty &&
      entry.1.toList.all fun c => decide (c.toNat < 128) && !Text.isBlank c) = true := by
    decide +kernel
  intro entry hentry
  simpa using htest entry hentry

/-- A number by which texts of ASCII characters are told apart. -/
def number (cs : List Char) : Nat := cs.foldl (fun n c => 128 * n + c.toNat) 0

/-- No two names differ in case only. -/
theorem nodup_folded_names : (named.map fun entry => Text.foldCase entry.1.toList).Nodup := by
  -- numbers are compared faster than texts, of which there are nearly twenty thousand pairs
  have hnumbers : (named.map fun entry => number (Text.foldCase entry.1.toList)).Nodup := by
    decide +kernel
  apply List.Nodup.of_map number
  rwa [List.map_map]

/-! ## The search -/

section Search

variable {table : List (String × Key)} {text : String}

theorem firstNamed_eq_unknown
    (h : ∀ entry ∈ table, Text.sameIgnoringCase entry.1 text = false) :
    firstNamed table text = .unknown := by
  have hnone : (table.find? fun entry => Text.sameIgnoringCase entry.1 text) = none := by
    simpa using h
  rw [firstNamed, hnone]
  rfl

/-- A name finds its own key, whatever the order of the table. -/
theorem firstNamed_eq_of_mem (htable : table.Perm named) {entry : String × Key}
    (hentry : entry ∈ named) (hsame : Text.sameIgnoringCase entry.1 text = true) :
    firstNamed table text = entry.2 := by
  have hmem : entry ∈ table := htable.mem_iff.2 hentry
  have hnodup : (table.map fun entry => Text.foldCase entry.1.toList).Nodup :=
    (htable.map _).nodup_iff.2 nodup_folded_names
  unfold firstNamed
  cases hfind : table.find? fun entry : String × Key => Text.sameIgnoringCase entry.1 text with
  | none =>
    rw [List.find?_eq_none] at hfind
    exact absurd hsame (hfind entry hmem)
  | some found =>
    -- what is found has the same name but for case, and so it is the entry itself
    have hfound : Text.sameIgnoringCase found.1 text = true := by
      simpa using List.find?_some hfind
    rw [Text.sameIgnoringCase_iff] at hfound hsame
    have heq : found = entry :=
      List.inj_on_of_nodup_map hnodup (List.mem_of_find?_eq_some hfind) hmem
        (hfound.trans hsame.symm)
    simp [heq]

theorem firstNamed_eq_of_perm (htable : table.Perm named) (text : String) :
    firstNamed table text = firstNamed named text := by
  by_cases h : ∃ entry ∈ named, Text.sameIgnoringCase entry.1 text = true
  · obtain ⟨entry, hentry, hsame⟩ := h
    rw [firstNamed_eq_of_mem htable hentry hsame, firstNamed_eq_of_mem (.refl _) hentry hsame]
  · push Not at h
    have hnone : ∀ entry ∈ named, Text.sameIgnoringCase entry.1 text = false := by simpa using h
    rw [firstNamed_eq_unknown hnone,
      firstNamed_eq_unknown fun entry hentry => hnone entry (htable.mem_iff.1 hentry)]

/-- Names are looked for in the table. -/
theorem ofName_eq (s : String) : ofName s = firstNamed named (Text.trim s) := by
  unfold ofName ofTrimmedName
  split
  next hempty =>
    -- no name is empty
    have hnone : ∀ entry ∈ named, Text.sameIgnoringCase entry.1 (Text.trim s) = false := by
      intro entry hentry
      obtain ⟨hne, -⟩ := plain_of_mem_named entry hentry
      rw [String.isEmpty_iff.1 hempty, ← Bool.not_eq_true, Text.sameIgnoringCase_iff]
      simpa [Text.foldCase] using hne
    exact (firstNamed_eq_unknown hnone).symm
  next =>
    unfold firstNamed named
    rw [List.find?_append, List.find?_map]
    -- the canonical names come first, and the others where none of them fits
    have hcanonical : (fun entry : String × Key => Text.sameIgnoringCase entry.1 (Text.trim s)) ∘
        (fun key => (key.name, key)) = fun key => Text.sameIgnoringCase key.name (Text.trim s) :=
      rfl
    rw [hcanonical]
    cases all.find? fun key => Text.sameIgnoringCase key.name (Text.trim s) with
    | some key => simp
    | none => simp

end Search

/-! ## Names in every spelling -/

variable {s t : String}

theorem ofName_eq_of_mem {entry : String × Key} (hentry : entry ∈ named)
    (hsame : Text.sameIgnoringCase entry.1 (Text.trim s) = true) : ofName s = entry.2 := by
  rw [ofName_eq, firstNamed_eq_of_mem (.refl _) hentry hsame]

/-- A text names a key if it is a name in the table. -/
theorem ofName_ne_unknown_iff : ofName s ≠ .unknown ↔
    ∃ entry ∈ named, Text.sameIgnoringCase entry.1 (Text.trim s) = true := by
  constructor
  · intro hne
    by_contra hnone
    push Not at hnone
    apply hne
    rw [ofName_eq]
    exact firstNamed_eq_unknown (by simpa using hnone)
  · rintro ⟨entry, hentry, hsame⟩
    rw [ofName_eq_of_mem hentry hsame]
    exact ne_unknown_of_mem_named entry hentry

/-- The spelling of a name does not matter. -/
theorem ofName_respells (h : Text.Respells s t) : ofName t = ofName s := by
  have hsame : ∀ name, Text.sameIgnoringCase name (Text.trim t) =
      Text.sameIgnoringCase name (Text.trim s) := by
    intro name
    unfold Text.sameIgnoringCase
    rw [h.foldCase_trim]
  rw [ofName_eq, ofName_eq]
  unfold firstNamed
  simp only [hsame]

/-- The canonical name of a key finds the key. -/
theorem ofName_name (key : Key) : ofName key.name = key := by
  by_cases hkey : key = .unknown
  · -- the one name that is not in the table
    subst hkey
    decide +kernel
  · have hentry := mem_named_name hkey
    obtain ⟨-, hplain⟩ := plain_of_mem_named _ hentry
    apply ofName_eq_of_mem hentry
    unfold Text.trim
    rw [Text.trimBoth_of_forall_not_blank fun c hc => (hplain c hc).2, String.ofList_toList,
      Text.sameIgnoringCase_iff]

/-- There are only ASCII characters in the name of a key, in every spelling. -/
theorem ascii_of_ofName (h : ofName s ≠ .unknown) : ∀ c ∈ (Text.trim s).toList, c.toNat < 128 := by
  obtain ⟨entry, hentry, hsame⟩ := ofName_ne_unknown_iff.1 h
  obtain ⟨-, hplain⟩ := plain_of_mem_named entry hentry
  rw [Text.sameIgnoringCase_iff] at hsame
  intro c hc
  have hlower : c.toLower ∈ Text.foldCase (Text.trim s).toList := List.mem_map_of_mem hc
  rw [← hsame] at hlower
  obtain ⟨d, hd, heq⟩ := List.mem_map.1 hlower
  rw [← Text.toNat_toLower_lt_iff, ← heq, Text.toNat_toLower_lt_iff]
  exact (hplain d hd).1

/-! ## Parsing -/

theorem parse_of_ofName_eq_unknown (h : ofName s = .unknown) : parse s = .error ⟨s⟩ := by
  unfold parse
  rw [h]

theorem parse_of_ofName_ne_unknown (h : ofName s ≠ .unknown) : parse s = .ok (ofName s) := by
  unfold parse
  split
  next hunknown => exact absurd hunknown h
  next => rfl

/-- **Names of keys**: a text is the name of a key exactly if, trimmed, it is a name in the table
but for the case of letters, and then it is that of this key, in whatever order the table is
searched. Another spelling of the text names the same key. There are ASCII characters only in a
name, so that no other folding of case leads to one. The canonical name of a key leads back to the
key. Parsing fails where there is no key, with the text as it was given. -/
theorem ofName_finds (s : String) :
    (ofName s ≠ .unknown ↔
      ∃ entry ∈ named, Text.sameIgnoringCase entry.1 (Text.trim s) = true) ∧
    (∀ entry ∈ named, Text.sameIgnoringCase entry.1 (Text.trim s) = true → ofName s = entry.2) ∧
    (∀ table : List (String × Key), table.Perm named →
      firstNamed table (Text.trim s) = ofName s) ∧
    (∀ t, Text.Respells s t → ofName t = ofName s) ∧
    (ofName s ≠ .unknown → ∀ c ∈ (Text.trim s).toList, c.toNat < 128) ∧
    ofName (ofName s).name = ofName s ∧
    (∀ key, parse s = .ok key ↔ ofName s = key ∧ key ≠ .unknown) ∧
    (∀ err, parse s = .error err ↔ ofName s = .unknown ∧ err.name = s) := by
  refine ⟨ofName_ne_unknown_iff, ?_, ?_, ?_, ascii_of_ofName, ofName_name (ofName s), ?_, ?_⟩
  · intro entry hentry hsame
    exact ofName_eq_of_mem hentry hsame
  · intro table htable
    rw [ofName_eq, firstNamed_eq_of_perm htable]
  · intro t ht
    exact ofName_respells ht
  · intro key
    by_cases h : ofName s = .unknown
    · rw [parse_of_ofName_eq_unknown h, h]
      simp [eq_comm]
    · rw [parse_of_ofName_ne_unknown h, Except.ok.injEq]
      exact ⟨fun hkey => ⟨hkey, hkey ▸ h⟩, And.left⟩
  · intro err
    by_cases h : ofName s = .unknown
    · rw [parse_of_ofName_eq_unknown h, Except.error.injEq]
      constructor
      · rintro rfl
        exact ⟨h, rfl⟩
      · rintro ⟨-, rfl⟩
        rfl
    · rw [parse_of_ofName_ne_unknown h]
      simp [h]

/-- An alias in capital letters between two kinds of blanks is found, also if the aliases are
searched first. With the Kelvin sign for its `k` it is no name. -/
theorem ofName_finds_backtick :
    Text.Respells "backtick" "\t BACKTICK\u3000" ∧ ofName "\t BACKTICK\u3000" = .grave ∧
    firstNamed (aliases ++ all.map fun key => (key.name, key)) (Text.trim "backtick") = .grave ∧
    ofName "bac\u212atick" = .unknown := by
  have hentry : ("backtick", .grave) ∈ named := by decide +kernel
  have hname : ofName "backtick" = .grave :=
    (ofName_finds "backtick").2.1 _ hentry (by decide +kernel)
  have hrespells : Text.Respells "backtick" "\t BACKTICK\u3000" :=
    Text.respells_of_all "\t " "BACKTICK" "\u3000" (by decide +kernel)
  refine ⟨hrespells, ?_, ?_, ?_⟩
  · rw [(ofName_finds "backtick").2.2.2.1 _ hrespells, hname]
  · rw [(ofName_finds "backtick").2.2.1 _ List.perm_append_comm, hname]
  · by_contra hne
    have hascii := (ofName_finds _).2.2.2.2.1 hne '\u212a' (by decide +kernel)
    exact absurd hascii (by decide)

end Keystroke.Key
