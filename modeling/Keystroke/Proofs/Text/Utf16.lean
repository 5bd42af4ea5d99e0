import Keystroke.Text.Utf16

/-!
# Reading UTF-16

The units of a text lead back to the text: the units of a character say themselves how many they
are, so no character is taken for a part of another one.

## Main statements

- `decode_units_append`: the first character of a sequence of units.
- `decode_encode`: the units of a text give the text.
-/

namespace Keystroke.Utf16

theorem valid_toNat (c : Char) : c.toNat < 0xD800 ∨ 0xDFFF < c.toNat ∧ c.toNat < 0x110000 := c.valid

theorem toNat_ofNat_of_lt {n : Nat} (h : n < 0x10000) : (UInt16.ofNat n).toNat = n :=
  UInt16.toNat_ofNat_of_lt' h

/-- A character that is its own unit is no surrogate. -/
theorem decode_units_append_of_lt {c : Char} (h : c.toNat < 0x10000) (rest : List UInt16) :
    decode (units c ++ rest) = (decode rest).map (c :: ·) := by
  have hunits : units c = [UInt16.ofNat c.toNat] := if_pos h
  have hvalid := valid_toNat c
  have hhigh : isHigh (UInt16.ofNat c.toNat) = false := by
    simp only [isHigh, toNat_ofNat_of_lt h, Bool.and_eq_false_iff, decide_eq_false_iff_not]
    omega
  have hlow : isLow (UInt16.ofNat c.toNat) = false := by
    simp only [isLow, toNat_ofNat_of_lt h, Bool.and_eq_false_iff, decide_eq_false_iff_not]
    omega
  rw [hunits, List.singleton_append]
  cases rest with
  | nil => simp [decode, hhigh, hlow, toNat_ofNat_of_lt h]
  | cons unit rest => simp [decode, hhigh, hlow, toNat_ofNat_of_lt h]

/-- The two units of a character beyond `0xFFFF` are a high and a low surrogate. -/
theorem decode_units_append_of_le {c : Char} (h : 0x10000 ≤ c.toNat) (rest : List UInt16) :
    decode (units c ++ rest) = (decode rest).map (c :: ·) := by
  have hvalid := valid_toNat c
  have hfirst : 0xD800 + (c.toNat - 0x10000) / 0x400 < 0xDC00 := by omega
  have hsecond : (c.toNat - 0x10000) % 0x400 < 0x400 := Nat.mod_lt _ (by decide)
  have hunits : units c = [UInt16.ofNat (0xD800 + (c.toNat - 0x10000) / 0x400),
      UInt16.ofNat (0xDC00 + (c.toNat - 0x10000) % 0x400)] := if_neg (Nat.not_lt.2 h)
  have hfirst' := toNat_ofNat_of_lt (Nat.lt_trans hfirst (by decide))
  have hsecond' : (UInt16.ofNat (0xDC00 + (c.toNat - 0x10000) % 0x400)).toNat =
      0xDC00 + (c.toNat - 0x10000) % 0x400 := toNat_ofNat_of_lt (by omega)
  have hhigh : isHigh (UInt16.ofNat (0xD800 + (c.toNat - 0x10000) / 0x400)) = true := by
    simp only [isHigh, hfirst', Bool.and_eq_true, decide_eq_true_eq]
    omega
  have hlow : isLow (UInt16.ofNat (0xDC00 + (c.toNat - 0x10000) % 0x400)) = true := by
    simp only [isLow, hsecond', Bool.and_eq_true, decide_eq_true_eq]
    omega
  have hchar : 0x10000 + (0xD800 + (c.toNat - 0x10000) / 0x400 - 0xD800) * 0x400 +
      (0xDC00 + (c.toNat - 0x10000) % 0x400 - 0xDC00) = c.toNat := by
    omega
  rw [hunits, List.cons_append, List.singleton_append, decode, if_pos hhigh, if_pos hlow, hfirst',
    hsecond', hchar, Char.ofNat_toNat]

theorem decode_units_append (c : Char) (rest : List UInt16) :
    decode (units c ++ rest) = (decode rest).map (c :: ·) := by
  rcases Nat.lt_or_ge c.toNat 0x10000 with hlt | hge
  · exact decode_units_append_of_lt hlt rest
  · exact decode_units_append_of_le hge rest

/-- The units of a text give the text. -/
theorem decode_encode (cs : List Char) : decode (encode cs) = some cs := by
  induction cs with
  | nil => rfl
  | cons c cs ih =>
    rw [encode, List.flatMap_cons, decode_units_append]
    change (decode (encode cs)).map _ = _
    rw [ih]
    rfl

end Keystroke.Utf16
