import Keystroke.Proofs.Driver.Reports
import Keystroke.Proofs.Sender.Calls

/-!
# Texts given by the numbers of their characters

The numbers of a text are looked at before anything is sent. If all of them are those of characters
the text is typed in one call of the driver, and otherwise the driver hears of nothing, not even of
the characters before the first number that is none.

## Main statements

- `hexDigits_injective`: a number is told by the way it is written in a message.
- `typeUtf32_of_scalars`: good numbers are typed as the text that they are.
- `typeUtf32_of_firstInvalid?`: the first bad number is reported and that is all.
- `typeUtf32_allOrNothing`: what becomes of a text, of the sender and of the last error.
-/

namespace Keystroke

/-! ## Numbers in messages -/

/-- Numbers with the same hexadecimal digits are the same. -/
theorem Text.hexDigits_injective : Function.Injective hexDigits := by
  intro n m h
  have hdigit : ∀ a < 16, ∀ b < 16, a.digitChar = b.digitChar → a = b := by decide
  unfold hexDigits at h
  induction n using Nat.strongRecOn generalizing m with
  | ind n ih =>
    rw [Nat.toDigits_eq_if (by decide), Nat.toDigits_eq_if (n := m) (by decide)] at h
    split at h <;> split at h
    next hn hm => exact hdigit n hn m hm (List.singleton_inj.1 h)
    -- one digit is not as many as several
    next =>
      have hlength := congrArg List.length h
      simp at hlength
    next =>
      have hlength := congrArg List.length h
      simp at hlength
    next hn hm =>
      obtain ⟨hrest, hlast⟩ := List.append_inj' h rfl
      have hdiv := ih (n / 16) (by omega) hrest
      have hmod := hdigit _ (Nat.mod_lt n (by decide)) _ (Nat.mod_lt m (by decide))
        (List.singleton_inj.1 hlast)
      omega

namespace Sender

/-! ## Numbers of characters -/

/-- The number is that of a character: it is not above the last one, and no surrogate. -/
def IsScalar (value : UInt32) : Prop :=
  value.toNat ≤ 0x10FFFF ∧ ¬ (0xD800 ≤ value.toNat ∧ value.toNat ≤ 0xDFFF)

instance decidableIsScalar (value : UInt32) : Decidable (IsScalar value) :=
  inferInstanceAs (Decidable (_ ∧ _))

theorem isValidChar_iff {value : UInt32} : value.isValidChar ↔ IsScalar value := by
  show value.toNat.isValidChar ↔ _
  unfold Nat.isValidChar IsScalar
  omega

theorem firstInvalid?_eq_none_iff {values : List UInt32} :
    firstInvalid? values = none ↔ ∀ value ∈ values, IsScalar value := by
  simp only [firstInvalid?, List.find?_eq_none, decide_eq_true_eq, Classical.not_not,
    isValidChar_iff]

theorem firstInvalid?_eq_some {values : List UInt32} (h : ∃ value ∈ values, ¬ IsScalar value) :
    ∃ before value after, values = before ++ value :: after ∧ (∀ v ∈ before, IsScalar v) ∧
      ¬ IsScalar value ∧ firstInvalid? values = some value := by
  cases hfirst : firstInvalid? values with
  | none =>
    obtain ⟨value, hmem, hvalue⟩ := h
    exact absurd (firstInvalid?_eq_none_iff.1 hfirst value hmem) hvalue
  | some value =>
    obtain ⟨hvalue, before, after, hsplit, hbefore⟩ := List.find?_eq_some_iff_append.1 hfirst
    simp only [decide_eq_true_eq, Bool.not_eq_true', decide_eq_false_iff_not, Classical.not_not,
      isValidChar_iff] at hvalue hbefore
    exact ⟨before, value, after, hsplit, hbefore, hvalue, rfl⟩

/-- The characters with given numbers have these numbers. -/
theorem map_val_filterMap_charOf? {values : List UInt32} (h : ∀ value ∈ values, IsScalar value) :
    (values.filterMap charOf?).map Char.val = values := by
  induction values with
  | nil => rfl
  | cons value values ih =>
    rw [List.forall_mem_cons] at h
    have hchar : charOf? value = some ⟨value, isValidChar_iff.2 h.1⟩ :=
      dif_pos (isValidChar_iff.2 h.1)
    rw [List.filterMap_cons_some hchar, List.map_cons, ih h.2]

/-! ## Texts -/

section Texts

variable {δ : Type} [KeyboardDriver δ] {values : List UInt32}

/-- The characters of a text with good numbers are typed as they are. -/
theorem typeUtf32_of_scalars (h : ∀ value ∈ values, IsScalar value) :
    (typeUtf32 values : StateM (Rig (Sender δ)) Bool) =
      typeText (String.ofList (values.filterMap charOf?)) := by
  unfold typeUtf32
  rw [charsOf_eq, firstInvalid?_eq_none_iff.2 h]

/-- What is reported of a number that is none of a character. -/
def codepointReport (value : UInt32) : String :=
  "type_text_utf32: " ++ ("invalid Unicode codepoint " ++ Text.hexNumber value.toNat)

theorem codepointReport_injective : Function.Injective codepointReport := by
  intro value value' h
  unfold codepointReport Text.hexNumber at h
  simp only [← String.toList_inj, String.toList_append, List.append_cancel_left_eq,
    String.toList_ofList] at h
  exact UInt32.toNat_inj.1 (Text.hexDigits_injective h)

theorem typeUtf32_of_firstInvalid? {value : UInt32} (h : firstInvalid? values = some value) :
    (typeUtf32 values : StateM (Rig (Sender δ)) Bool) = do
      Rig.report (codepointReport value)
      return false := by
  unfold typeUtf32
  rw [charsOf_eq, h]
  rfl

end Texts

/-- **All or nothing**: a text given by the numbers of its characters is typed in one call of the
driver, whatever the driver is, if all the numbers are those of characters. The result is that of
the call, and nothing is reported. Otherwise the driver is not called and nothing changes but the
last error, which tells the first number that is none. -/
theorem typeUtf32_allOrNothing (values : List UInt32) :
    ((∀ value ∈ values, IsScalar value) → ∃ text : String, text.toList.map Char.val = values ∧
      (∀ {δ : Type} [KeyboardDriver δ] (r : Rig (Sender δ)),
        (typeUtf32 values r).1 = succeeded (KeyboardDriver.typeText text r.inner).1 ∧
        (typeUtf32 values r).2.inner = (KeyboardDriver.typeText text r.inner).2 ∧
        (typeUtf32 values r).2.front.active = r.front.active) ∧
      (∀ (b : Backend) (r : Rig (Sender b.Driver)),
        (typeUtf32 values r).2.host.lastError = r.host.lastError) ∧
      ∀ rule history, Makes rule history (typeUtf32 values) [.typeText text]
        (rule.accepts history (.typeText text))) ∧
    ((∃ value ∈ values, ¬ IsScalar value) → ∃ before value after,
      values = before ++ value :: after ∧ (∀ v ∈ before, IsScalar v) ∧ ¬ IsScalar value ∧
      (∀ {δ : Type} [KeyboardDriver δ] (r : Rig (Sender δ)), typeUtf32 values r =
        (false, { r with host := { r.host with lastError := some (codepointReport value) } })) ∧
      (∀ other, codepointReport other = codepointReport value → other = value) ∧
      ∀ rule history, Makes rule history (typeUtf32 values) [] false) := by
  constructor
  · intro h
    refine ⟨String.ofList (values.filterMap charOf?), ?_, ?_, ?_, ?_⟩
    · rw [String.toList_ofList, map_val_filterMap_charOf? h]
    · intro δ _ r
      rw [typeUtf32_of_scalars h]
      exact ⟨rfl, rfl, rfl⟩
    · intro b r
      rw [lastError_typeUtf32]
      unfold textReport?
      rw [firstInvalid?_eq_none_iff.2 h]
      rfl
    · rintro _ _ r ⟨rfl, rfl⟩
      rw [typeUtf32_of_scalars h]
      exact ⟨succeeded_verdict r.front.driver _, rfl, rfl⟩
  · intro h
    obtain ⟨before, value, after, hsplit, hbefore, hvalue, hfirst⟩ := firstInvalid?_eq_some h
    refine ⟨before, value, after, hsplit, hbefore, hvalue, ?_, ?_, ?_⟩
    · intro δ _ r
      rw [typeUtf32_of_firstInvalid? hfirst]
      rfl
    · intro other hother
      exact codepointReport_injective hother
    · intro rule history r hr
      rw [typeUtf32_of_firstInvalid? hfirst, List.append_nil]
      exact ⟨rfl, hr⟩

/-- A surrogate and a number that is too large behind a good one, and a text of two characters. -/
theorem typeUtf32_allOrNothing_surrogate :
    let r : Rig (Sender Recorder) := ⟨{ driver := .new, active := .shift }, {}⟩
    (∃ value ∈ [0x61, 0xDFFF, 0x110000], ¬ IsScalar value) ∧
    typeUtf32 [0x61, 0xDFFF, 0x110000] r = (false, { r with host := { r.host with
      lastError := some "type_text_utf32: invalid Unicode codepoint 0xdfff" } }) ∧
    (∀ value ∈ [0x61, 0x2603], IsScalar value) ∧
    (typeUtf32 [0x61, 0x2603] r).2.front.driver.record = [.text "a\u2603"] := by
  intro r
  have hbad : ∃ value ∈ [0x61, 0xDFFF, 0x110000], ¬ IsScalar value := ⟨0xDFFF, by decide, by decide⟩
  have hgood : ∀ value ∈ [0x61, 0x2603], IsScalar value := by
    rw [List.forall_mem_cons, List.forall_mem_singleton]
    decide
  refine ⟨hbad, ?_, hgood, ?_⟩
  · obtain ⟨before, value, after, hsplit, hbefore, hvalue, heq, -, -⟩ :=
      (typeUtf32_allOrNothing _).2 hbad
    -- the surrogate is the first of the three that can stand there
    have hfirst : value = 0xDFFF := by
      match before, hsplit, hbefore with
      | [], hsplit, _ =>
        rw [List.nil_append, List.cons.injEq] at hsplit
        exact absurd (by decide) (hsplit.1 ▸ hvalue)
      | [_], hsplit, _ =>
        rw [List.cons_append, List.cons.injEq, List.nil_append, List.cons.injEq] at hsplit
        exact hsplit.2.1.symm
      | _ :: second :: _, hsplit, hbefore =>
        rw [List.cons_append, List.cons.injEq, List.cons_append, List.cons.injEq] at hsplit
        have hsecond : IsScalar 0xDFFF := hsplit.2.1 ▸ hbefore second (by simp)
        exact absurd hsecond (by decide)
    rw [heq r, hfirst]
    have hreport : codepointReport 0xDFFF =
        "type_text_utf32: invalid Unicode codepoint 0xdfff" := by decide +kernel
    rw [hreport]
  · obtain ⟨text, htext, hcall, -, -⟩ := (typeUtf32_allOrNothing _).1 hgood
    have heq : text = "a\u2603" := by
      apply String.toList_inj.1
      apply (List.map_inj_right fun _ _ => Char.ext).1
      rw [htext]
      decide +kernel
    have hrecord := congrArg (·.front.record) (hcall r).2.1
    rw [heq] at hrecord
    exact hrecord

end Sender

end Keystroke
