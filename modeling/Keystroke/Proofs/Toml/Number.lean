import Keystroke.Toml.Number

/-!
# Reading whole numbers

A number that is written in decimal digits is read as an integer: the digits are no part of a date,
since a date has something else behind its first four digits or its first two, and they are no part
of a float, since that has something else behind its digits.

## Main statements

- `digits_append`: digits are read up to what is no digit.
- `numberOrDate_toDigits`: a number in digits is read back as this number.
-/

namespace Keystroke.Toml

theorem isDigit_eq (c : Char) : isDigit c = c.isDigit := by
  simp only [isDigit, Char.isDigit, Char.le_def, ge_iff_le]

/-! ## Digits -/

section Digits

variable {ds : List Char} (hds : ∀ c ∈ ds, isDigit c = true)
include hds

theorem foldl_hexValue? (n : Nat) :
    ds.foldl (fun n d => 10 * n + (hexValue? d).getD 0) n = Nat.ofDigitChars 10 ds n := by
  rw [Nat.ofDigitChars_eq_foldl]
  induction ds generalizing n with
  | nil => rfl
  | cons d ds ih =>
    rw [List.forall_mem_cons] at hds
    have hd := hds.1
    simp only [isDigit, Bool.and_eq_true, decide_eq_true_eq] at hd
    have hvalue : hexValue? d = some (d.toNat - '0'.toNat) := if_pos hd
    rw [List.foldl_cons, hvalue]
    exact ih hds.2 _

/-- More digits are read up to the end of the line. -/
theorem moreDigits_append (rest : List Char) :
    moreDigits isDigit (ds ++ '\n' :: rest) = some (ds, '\n' :: rest) := by
  induction ds with
  | nil => rfl
  | cons d ds ih =>
    rw [List.forall_mem_cons] at hds
    have hne : d ≠ '_' := by
      rintro rfl
      exact absurd hds.1 (by decide)
    rw [List.cons_append, moreDigits, if_pos hds.1, ih hds.2]
    · rfl
    all_goals simp [hne]

/-- Digits are read up to the end of the line. -/
theorem digits_append (hne : ds ≠ []) (rest : List Char) :
    digits isDigit (ds ++ '\n' :: rest) = some (ds, '\n' :: rest) := by
  cases ds with
  | nil => exact absurd rfl hne
  | cons d ds =>
    rw [List.forall_mem_cons] at hds
    rw [List.cons_append, digits, if_pos hds.1, moreDigits_append hds.2]
    rfl

/-- Within digits and at the end of the line there is nothing else. -/
theorem mark_append {c : Char} (hc : isDigit c = false) (hn : c ≠ '\n') (rest : List Char) :
    mark c (ds ++ '\n' :: rest) = none := by
  cases ds with
  | nil => exact if_neg (Ne.symm hn)
  | cons d ds =>
    rw [List.forall_mem_cons] at hds
    have hne : d ≠ c := by
      rintro rfl
      rw [hds.1] at hc
      cases hc
    exact if_neg hne

omit hds in
/-- A number of fixed size takes nothing but digits. -/
theorem fixed_append {size low high n : Nat} {rest rest' : List Char}
    (h : fixed size low high (ds ++ '\n' :: rest) = some (n, rest')) :
    rest' = ds.drop size ++ '\n' :: rest := by
  unfold fixed at h
  dsimp only at h
  split at h
  next hall =>
    simp only [Option.some.injEq, Prod.mk.injEq] at h
    rw [← h.2, List.drop_append]
    rcases Nat.lt_or_ge ds.length size with hlt | hle
    · -- the end of the line would be one of the digits
      have htaken : '\n' ∈ (ds ++ '\n' :: rest).take size := by
        obtain ⟨k, hk⟩ := Nat.exists_eq_add_of_lt hlt
        rw [List.take_append, List.mem_append]
        right
        rw [show size - ds.length = k + 1 by omega, List.take_succ_cons]
        exact List.mem_cons_self
      exact absurd (List.all_eq_true.1 hall.2.1 _ htaken) (by decide)
    · rw [Nat.sub_eq_zero_of_le hle, List.drop_zero]
  next => cases h

theorem forall_isDigit_drop (k : Nat) : ∀ c ∈ ds.drop k, isDigit c = true :=
  fun c hc => hds c (List.mem_of_mem_drop hc)

/-! ## No dates -/

theorem date_append (rest : List Char) : date (ds ++ '\n' :: rest) = none := by
  unfold date
  cases hyear : fixed 4 0 9999 (ds ++ '\n' :: rest) with
  | none => rfl
  | some r =>
    obtain ⟨n, rest'⟩ := r
    have hmark := mark_append (forall_isDigit_drop hds 4) (c := '-') (by decide) (by decide) rest
    rw [fixed_append hyear]
    simp only [Option.bind_eq_bind, Option.bind_some, hmark, Option.bind_none]

theorem time_append (rest : List Char) : time (ds ++ '\n' :: rest) = none := by
  unfold time
  cases hhour : fixed 2 0 23 (ds ++ '\n' :: rest) with
  | none => rfl
  | some r =>
    obtain ⟨n, rest'⟩ := r
    have hmark := mark_append (forall_isDigit_drop hds 2) (c := ':') (by decide) (by decide) rest
    rw [fixed_append hhour]
    simp only [Option.bind_eq_bind, Option.bind_some, hmark, Option.bind_none]

theorem datetime_append (rest : List Char) : datetime (ds ++ '\n' :: rest) = none := by
  simp only [datetime, date_append hds, time_append hds, Option.map_none]

/-! ## No floats -/

theorem sign_append (hne : ds ≠ []) (rest : List Char) :
    sign (ds ++ '\n' :: rest) = (false, ds ++ '\n' :: rest) := by
  cases ds with
  | nil => exact absurd rfl hne
  | cons d ds =>
    rw [List.forall_mem_cons] at hds
    rw [List.cons_append, sign]
    · rintro rest' heq
      cases heq
      exact absurd hds.1 (by decide)
    · rintro rest' heq
      cases heq
      exact absurd hds.1 (by decide)

/-- Digits without a leading zero are a decimal number. -/
theorem decimal_append (hne : ds ≠ []) (hzero : ds.head? = some '0' → ds = ['0'])
    (rest : List Char) : decimal (ds ++ '\n' :: rest) = some ((false, ds), '\n' :: rest) := by
  unfold decimal
  rw [sign_append hds hne]
  dsimp only
  split
  next rest' heq =>
    cases ds with
    | nil => exact absurd rfl hne
    | cons d ds =>
      cases heq
      obtain ⟨⟩ := hzero rfl
      rfl
  next => rw [digits_append hds hne]; rfl

theorem decimalFloat_append (hne : ds ≠ []) (hzero : ds.head? = some '0' → ds = ['0'])
    (rest : List Char) : decimalFloat (ds ++ '\n' :: rest) = none := by
  unfold decimalFloat
  rw [decimal_append hds hne hzero]
  rfl

theorem specialFloat_append (hne : ds ≠ []) (rest : List Char) :
    specialFloat (ds ++ '\n' :: rest) = none := by
  unfold specialFloat
  rw [sign_append hds hne]
  cases ds with
  | nil => exact absurd rfl hne
  | cons d ds =>
    rw [List.forall_mem_cons] at hds
    dsimp only
    split
    next heq =>
      rw [List.cons_append, List.cons.injEq] at heq
      rw [heq.1] at hds
      exact absurd hds.1 (by decide)
    next heq =>
      rw [List.cons_append, List.cons.injEq] at heq
      rw [heq.1] at hds
      exact absurd hds.1 (by decide)
    next => rfl

/-! ## Integers -/

/-- Without a mark of another base digits are a decimal integer. -/
theorem integer_append (hne : ds ≠ []) (hzero : ds.head? = some '0' → ds = ['0'])
    (hmax : (Nat.ofDigitChars 10 ds 0 : Int) ≤ maxInteger) (rest : List Char) :
    integer (ds ++ '\n' :: rest) = some ((Nat.ofDigitChars 10 ds 0 : Int), '\n' :: rest) := by
  -- a zero comes alone, so that no letter stands behind it
  have hsecond : ∀ (c : Char) (rest' : List Char), ds ++ '\n' :: rest = '0' :: c :: rest' →
      c = '\n' := by
    intro c rest' heq
    cases ds with
    | nil => exact absurd rfl hne
    | cons d ds =>
      rw [List.cons_append, List.cons.injEq] at heq
      obtain ⟨rfl, heq⟩ := heq
      obtain ⟨⟩ := hzero rfl
      cases heq
      rfl
  have hvalue : integerOf false 10 ds = some (Nat.ofDigitChars 10 ds 0 : Int) := by
    have hmin : minInteger ≤ (Nat.ofDigitChars 10 ds 0 : Int) :=
      Int.le_trans (by decide) (Int.natCast_nonneg _)
    unfold integerOf ofDigits
    rw [foldl_hexValue? hds]
    exact if_pos ⟨hmin, hmax⟩
  unfold integer
  split
  next heq => exact absurd (hsecond _ _ heq) (by decide)
  next heq => exact absurd (hsecond _ _ heq) (by decide)
  next heq => exact absurd (hsecond _ _ heq) (by decide)
  next =>
    rw [decimal_append hds hne hzero]
    simp only [Option.bind_eq_bind, Option.bind_some, hvalue, Option.pure_def]

end Digits

/-! ## Numbers in digits -/

theorem isDigit_of_mem_toDigits {n : Nat} : ∀ c ∈ Nat.toDigits 10 n, isDigit c = true := by
  intro c hc
  rw [isDigit_eq]
  exact Nat.isDigit_of_mem_toDigits (by decide) (by decide) hc

/-- Only zero begins with a zero. -/
theorem head?_toDigits {n : Nat} (h : (Nat.toDigits 10 n).head? = some '0') : n = 0 := by
  induction n using Nat.strongRecOn with
  | ind n ih =>
    rw [Nat.toDigits_eq_if (by decide)] at h
    split at h
    next hlt =>
      have hall : ∀ n < 10, n.digitChar = '0' → n = 0 := by decide
      exact hall n hlt (Option.some.inj h)
    next hle =>
      have hhead : (Nat.toDigits 10 (n / 10)).head? = some '0' := by
        rwa [List.head?_append, Option.or_of_isSome] at h
        exact List.isSome_head?.2 Nat.toDigits_ne_nil
      have hdiv := ih (n / 10) (by omega) hhead
      omega

/-- A number in digits is read back as this number. -/
theorem numberOrDate_toDigits {n : Nat} (hmax : (n : Int) ≤ maxInteger) (rest : List Char) :
    numberOrDate (Nat.toDigits 10 n ++ '\n' :: rest) = some (.integer n, '\n' :: rest) := by
  have hds := isDigit_of_mem_toDigits (n := n)
  have hne : Nat.toDigits 10 n ≠ [] := Nat.toDigits_ne_nil
  have hzero : (Nat.toDigits 10 n).head? = some '0' → Nat.toDigits 10 n = ['0'] := by
    intro h
    rw [head?_toDigits h]
    rfl
  have hvalue : Nat.ofDigitChars 10 (Nat.toDigits 10 n) 0 = n :=
    Nat.ofDigitChars_toDigits (by decide) (by decide)
  have hinteger := integer_append hds hne hzero (by rwa [hvalue]) rest
  rw [hvalue] at hinteger
  simp only [numberOrDate, datetime_append hds, decimalFloat_append hds hne hzero,
    specialFloat_append hds hne, hinteger, Option.map_some]

end Keystroke.Toml
