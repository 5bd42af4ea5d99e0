import Keystroke.Toml.Printer
import Keystroke.Toml.Text

/-!
# Reading written texts

A text is written in one of four forms, with escapes or without, and the reader finds out from the
opening quotes which it is. Each form is read back if it can hold the text at all: the basic forms
hold every text, the literal ones those without codes in which their quotes do not come up. The
hard part are the quotes within forms on several lines, which must not be taken for the closing
ones: in the basic form a backslash breaks up three in a row, and two right before the closing ones
are read together with them.

## Main statements

- `basicText_write`, `literalText_write`, `basicLines_write`, `literalLines_write`: what each form
  holds is read back.
- `text_write`: a text in the form in which it is written is read back.
-/

namespace Keystroke.Toml

/-! ## Characters -/

/-- The number of a code is that of the code. -/
theorem hexChar?_fourDigits {c : Char} (h : isCode c = true) :
    hexChar? (fourDigits c.toNat) = some c := by
  have hall : ∀ n < 128, hexChar? (fourDigits n) = some (Char.ofNat n) := by decide +kernel
  have hlt : c.toNat < 128 := by
    simp only [isCode, Bool.or_eq_true, Bool.and_eq_true, decide_eq_true_eq, beq_iff_eq] at h
    rcases h with ⟨⟨h, -⟩, -⟩ | rfl
    · exact Nat.lt_trans h (by decide)
    · decide
  rw [hall _ hlt, Char.ofNat_toNat]

/-- What needs no escape may stand as itself, line ends apart. -/
theorem isPlain_of_not_isCode {c : Char} (h : isCode c = false) (hn : c ≠ '\n') :
    isPlain c = true := by
  simp only [isCode, Bool.or_eq_false_iff, beq_eq_false_iff_ne] at h
  simp only [isPlain, Bool.or_eq_true, Bool.and_eq_true, decide_eq_true_eq, beq_iff_eq, bne_iff_ne]
  by_cases ht : c = '\t'
  · exact .inl ht
  · refine .inr ⟨?_, h.2⟩
    simpa [ht, hn] using h.1

/-- What a basic form holds for a character: a short escape, the number of a code, or the character
itself. -/
inductive Escape (c : Char) : List Char → Prop where
  | short {e : Char} (h : escaped? e = some c) : Escape c ['\\', e]
  | code (h : isCode c = true) : Escape c ('\\' :: 'u' :: fourDigits c.toNat)
  | plain (hq : c ≠ '"') (hb : c ≠ '\\') (hr : c ≠ '\r') (h : isPlain c = true) : Escape c [c]

theorem escape_escapeCode {c : Char} (hq : c ≠ '"') (hn : c ≠ '\n') : Escape c (escapeCode c) := by
  unfold escapeCode
  split
  next h =>
    rw [h]
    exact .short rfl
  split
  next h =>
    rw [h]
    exact .short rfl
  split
  next h =>
    rw [h]
    exact .short rfl
  split
  next h =>
    rw [h]
    exact .short rfl
  next hr =>
    split
    next h =>
      rw [h]
      exact .short rfl
    next hb =>
      split
      next hcode => exact .code hcode
      next hcode => exact .plain hq hb hr (isPlain_of_not_isCode (Bool.eq_false_iff.2 hcode) hn)

theorem escape_escapeBasic (c : Char) : Escape c (escapeBasic c) := by
  unfold escapeBasic
  split
  next h =>
    rw [h]
    exact .short rfl
  next hq =>
    split
    next h =>
      rw [h]
      exact .short rfl
    next hn => exact escape_escapeCode hq hn

/-- An escape begins neither with a quote nor with a line end. -/
theorem Escape.head {c : Char} {w : List Char} (h : Escape c w) :
    ∃ c' w', w = c' :: w' ∧ c' ≠ '"' ∧ c' ≠ '\n' ∧ c' ≠ '\r' := by
  cases h with
  | short => exact ⟨_, _, rfl, by decide, by decide, by decide⟩
  | code => exact ⟨_, _, rfl, by decide, by decide, by decide⟩
  | plain hq hb hr h =>
    refine ⟨c, [], rfl, hq, ?_, hr⟩
    rintro rfl
    exact absurd h (by decide)

/-! ## Basic texts -/

theorem Escape.basicText {c : Char} {w : List Char} (h : Escape c w) (rest : List Char) :
    Toml.basicText (w ++ rest) = consText c (Toml.basicText rest) := by
  cases h with
  | short h =>
    unfold escaped? at h
    split at h <;> cases h <;> rfl
  | code h =>
    change (hexChar? (fourDigits c.toNat)).bind (fun ch => consText ch (Toml.basicText rest)) = _
    rw [hexChar?_fourDigits h]
    rfl
  | plain hq hb hr h =>
    rw [List.singleton_append, Toml.basicText]
    · exact if_pos h
    · simpa using hq
    all_goals simp [hb]

/-- Every text is read back from the basic form. -/
theorem basicText_write (cs rest : List Char) :
    basicText (cs.flatMap escapeBasic ++ '"' :: rest) = some (cs, rest) := by
  induction cs with
  | nil => rfl
  | cons c cs ih =>
    rw [List.flatMap_cons, List.append_assoc, (escape_escapeBasic c).basicText, ih]
    rfl

/-! ## Literal texts -/

/-- A text without marks is read back from the literal form. -/
theorem literalText_write {cs : List Char} (hplain : ∀ c ∈ cs, c ≠ '\x27' ∧ isPlain c = true)
    (rest : List Char) : literalText (cs ++ '\x27' :: rest) = some (cs, rest) := by
  induction cs with
  | nil => rfl
  | cons c cs ih =>
    rw [List.forall_mem_cons] at hplain
    rw [List.cons_append, literalText, if_pos hplain.1.2, ih hplain.2]
    · rfl
    · simpa using hplain.1.1

/-! ## Basic texts on several lines -/

theorem basicLines_newline (rest : List Char) :
    basicLines .within ('\n' :: rest) = consText '\n' (basicLines .within rest) := by
  rw [basicLines] <;> nofun

/-- A quote that is not the first of three stands for itself. -/
theorem basicLines_quote {rest : List Char} (h : rest.take 2 ≠ ['"', '"']) :
    basicLines .within ('"' :: rest) = consText '"' (basicLines .within rest) := by
  rw [basicLines]
  · rfl
  -- three quotes or more are left to the other cases
  iterate 3
    · rintro rest' - rfl
      exact h rfl
  all_goals simp

theorem Escape.basicLines {c : Char} {w : List Char} (h : Escape c w) (rest : List Char) :
    Toml.basicLines .within (w ++ rest) = consText c (Toml.basicLines .within rest) := by
  cases h with
  | short h =>
    unfold escaped? at h
    split at h <;> cases h <;> rfl
  | code h =>
    change (hexChar? (fourDigits c.toNat)).bind
      (fun ch => consText ch (Toml.basicLines .within rest)) = _
    rw [hexChar?_fourDigits h]
    rfl
  | plain hq hb hr h =>
    have hn : c ≠ '\n' := by
      rintro rfl
      exact absurd h (by decide)
    rw [List.singleton_append, Toml.basicLines]
    · exact if_pos h
    all_goals simp [hq, hb, hn, hr]

/-- What is written for a character does not begin with a quote, unless it is one that does not come
after two others. -/
theorem escapeLines_eq_cons {run : Nat} {c : Char} (h : c = '"' → run = 2) (cs : List Char) :
    ∃ c' cs', escapeLines run (c :: cs) = c' :: cs' ∧ c' ≠ '"' := by
  unfold escapeLines
  split
  next hq =>
    rw [if_pos (h hq)]
    exact ⟨_, _, rfl, by decide⟩
  next hq =>
    split
    next => exact ⟨_, _, rfl, by decide⟩
    next hn =>
      obtain ⟨c', w, hw, hc', -⟩ := (escape_escapeCode hq hn).head
      rw [hw]
      exact ⟨c', _, rfl, hc'⟩

theorem escapeLines_quote {run : Nat} (h : run ≠ 2) (cs : List Char) :
    escapeLines run ('"' :: cs) = '"' :: escapeLines (run + 1) cs := by
  simp only [escapeLines, if_true, if_neg h]

/-- Behind a quote no two others are written, unless the text ends with them. -/
theorem take_escapeLines_ne {run : Nat} (hrun : run ≤ 1) {c : Char} {cs : List Char}
    (hlast : ¬ (c = '"' ∧ cs = [] ∧ run = 0)) (rest : List Char) :
    (escapeLines (run + 1) (c :: cs) ++ rest).take 2 ≠ ['"', '"'] := by
  by_cases hq : c = '"' → run + 1 = 2
  · obtain ⟨c', cs', hcs, hc'⟩ := escapeLines_eq_cons hq cs
    simp [hcs, hc']
  · obtain ⟨rfl, hone⟩ := Classical.not_imp.1 hq
    obtain rfl : run = 0 := by omega
    cases cs with
    | nil => exact absurd ⟨rfl, rfl, rfl⟩ hlast
    | cons c cs =>
      have hthird : ∃ c' cs', escapeLines 2 (c :: cs) = c' :: cs' ∧ c' ≠ '"' :=
        escapeLines_eq_cons (fun _ => rfl) cs
      obtain ⟨c', cs', hcs, hc'⟩ := hthird
      rw [escapeLines_quote (by decide), hcs]
      simp [hc']

/-- Every text is read back from the basic form on several lines, up to two quotes before it. -/
theorem basicLines_write {run : Nat} (hrun : run ≤ 2) (cs rest : List Char) :
    basicLines .within (escapeLines run cs ++ '"' :: '"' :: '"' :: '\n' :: rest) =
      some (cs, '\n' :: rest) := by
  induction cs generalizing run with
  | nil => rfl
  | cons c cs ih =>
    by_cases hq : c = '"'
    · subst hq
      by_cases htwo : run = 2
      · -- the third quote in a row is escaped
        subst htwo
        change (escaped? '"').bind (fun ch => consText ch (basicLines .within
          (escapeLines 0 cs ++ '"' :: '"' :: '"' :: '\n' :: rest))) = _
        rw [ih (Nat.zero_le 2)]
        rfl
      · rw [escapeLines_quote htwo]
        cases cs with
        | nil => rfl
        | cons c cs =>
          by_cases hlast : c = '"' ∧ cs = [] ∧ run = 0
          · -- with those that close the text there are five
            obtain ⟨rfl, rfl, rfl⟩ := hlast
            rfl
          · rw [List.cons_append, basicLines_quote (take_escapeLines_ne (by omega) hlast _),
              ih (by omega)]
            rfl
    · simp only [escapeLines, if_neg hq]
      split
      next hn =>
        rw [hn, List.cons_append, basicLines_newline, ih (Nat.zero_le 2)]
        rfl
      next hn =>
        rw [List.append_assoc, (escape_escapeCode hq hn).basicLines, ih (Nat.zero_le 2)]
        rfl

/-! ## Literal texts on several lines -/

/-- A mark that is not the first of three stands for itself. -/
theorem literalLines_mark {rest : List Char} (h : rest.take 2 ≠ ['\x27', '\x27']) :
    literalLines ('\x27' :: rest) = consText '\x27' (literalLines rest) := by
  rw [literalLines]
  · rfl
  iterate 3
    · rintro rest' - rfl
      exact h rfl
  all_goals simp

theorem literalLines_other {c : Char} (hq : c ≠ '\x27') (hr : c ≠ '\r')
    (hp : c = '\n' ∨ isPlain c = true) (rest : List Char) :
    literalLines (c :: rest) = consText c (literalLines rest) := by
  by_cases hn : c = '\n'
  · rw [hn, literalLines]
  · rw [literalLines]
    · exact if_pos (hp.resolve_left hn)
    all_goals simp [hq, hn, hr]

theorem hasTriple_tail {c x : Char} {cs : List Char} (h : hasTriple c (x :: cs) = false) :
    hasTriple c cs = false := by
  match cs with
  | [] | [_] => rfl
  | y :: z :: rest =>
    rw [hasTriple, Bool.or_eq_false_iff] at h
    exact h.2

/-- Behind a mark no two others stand, unless the text ends with them. -/
theorem take_ne_of_hasTriple {c : Char} {cs : List Char} (h : hasTriple c (c :: cs) = false)
    (hnil : cs ≠ []) (hone : cs ≠ [c]) (rest : List Char) : (cs ++ rest).take 2 ≠ [c, c] := by
  match cs with
  | [] => exact absurd rfl hnil
  | [x] =>
    intro htake
    simp only [List.cons_append, List.take_succ_cons, List.cons.injEq] at htake
    exact hone (by rw [htake.1])
  | x :: y :: cs =>
    intro htake
    simp only [List.cons_append, List.take_succ_cons, List.take_zero, List.cons.injEq,
      and_true] at htake
    simp [hasTriple, htake.1, htake.2] at h

/-- A text without three marks in a row is read back from the literal form on several lines. -/
theorem literalLines_write {cs : List Char} (htriple : hasTriple '\x27' cs = false)
    (hcode : ∀ c ∈ cs, isCode c = false) (rest : List Char) :
    literalLines (cs ++ '\x27' :: '\x27' :: '\x27' :: '\n' :: rest) =
      some (cs, '\n' :: rest) := by
  induction cs with
  | nil => rfl
  | cons c cs ih =>
    rw [List.forall_mem_cons] at hcode
    have ih := ih (hasTriple_tail htriple) hcode.2
    by_cases hq : c = '\x27'
    · subst hq
      by_cases hnil : cs = []
      · subst hnil
        rfl
      · by_cases hone : cs = ['\x27']
        · subst hone
          rfl
        · rw [List.cons_append, literalLines_mark (take_ne_of_hasTriple htriple hnil hone _), ih]
          rfl
    · have hr : c ≠ '\r' := by
        rintro rfl
        exact absurd hcode.1 (by decide)
      have hplain : c = '\n' ∨ isPlain c = true := by
        by_cases hn : c = '\n'
        · exact .inl hn
        · exact .inr (isPlain_of_not_isCode hcode.1 hn)
      rw [List.cons_append, literalLines_other hq hr hplain, ih]
      rfl

/-! ## Forms -/

theorem skipNewline_of_ne {c : Char} (hn : c ≠ '\n') (hr : c ≠ '\r') (cs : List Char) :
    skipNewline (c :: cs) = c :: cs := by
  unfold skipNewline newline
  split
  next h =>
    split at h <;> simp_all
  next => rfl

/-- The line end that may stand in front of a text is the one that does not count. -/
theorem skipNewline_opening {cs body : List Char}
    (h : cs.contains '\n' = false → ∃ c rest, body = c :: rest ∧ c ≠ '\n' ∧ c ≠ '\r') :
    skipNewline (opening cs ++ body) = body := by
  unfold opening
  cases hbroken : cs.contains '\n' with
  | true => rfl
  | false =>
    obtain ⟨c, rest, rfl, hn, hr⟩ := h hbroken
    exact skipNewline_of_ne hn hr rest

theorem text_basic {body : List Char} (h : body.take 2 ≠ ['"', '"']) :
    text ('"' :: body) = (basicText body).map fun r => (String.ofList r.1, r.2) := by
  unfold text
  split
  next heq =>
    cases heq
    exact absurd rfl h
  next heq =>
    cases heq
    rfl
  all_goals simp_all

theorem text_literal {body : List Char} (h : body.take 2 ≠ ['\x27', '\x27']) :
    text ('\x27' :: body) = (literalText body).map fun r => (String.ofList r.1, r.2) := by
  unfold text
  split
  case h_3 heq =>
    cases heq
    exact absurd rfl h
  case h_4 heq =>
    cases heq
    rfl
  all_goals simp_all

variable (cs rest : List Char)

theorem text_write_basic : text (writeText .basic cs ++ '\n' :: rest) =
    some (String.ofList cs, '\n' :: rest) := by
  have hbody : (cs.flatMap escapeBasic ++ '"' :: '\n' :: rest).take 2 ≠ ['"', '"'] := by
    cases cs with
    | nil => simp
    | cons c cs =>
      obtain ⟨c', w, hw, hne, -⟩ := (escape_escapeBasic c).head
      simp [hw, hne]
  simp only [writeText, List.cons_append, List.append_assoc, List.nil_append]
  rw [text_basic hbody, basicText_write]
  rfl

theorem text_write_basicLines : text (writeText .basicLines cs ++ '\n' :: rest) =
    some (String.ofList cs, '\n' :: rest) := by
  have hbody : cs.contains '\n' = false → ∃ c rest',
      escapeLines 0 cs ++ '"' :: '"' :: '"' :: '\n' :: rest = c :: rest' ∧ c ≠ '\n' ∧ c ≠ '\r' := by
    intro hbroken
    cases cs with
    | nil => exact ⟨_, _, rfl, by decide, by decide⟩
    | cons c cs =>
      have hn : c ≠ '\n' := by
        rintro rfl
        simp at hbroken
      unfold escapeLines
      split
      next => exact ⟨_, _, rfl, by decide, by decide⟩
      next hq =>
        obtain ⟨c', w, hw, -, hn', hr'⟩ := (escape_escapeCode hq hn).head
        rw [hw]
        exact ⟨c', _, rfl, hn', hr'⟩
  simp only [writeText, List.cons_append, List.append_assoc, List.nil_append]
  change (basicLines .within (skipNewline (opening cs ++ _))).map _ = _
  rw [skipNewline_opening hbody, basicLines_write (Nat.zero_le 2)]
  rfl

variable {cs}

theorem text_write_literal (hcode : ∀ c ∈ cs, isCode c = false) (hmark : '\x27' ∉ cs)
    (hbroken : '\n' ∉ cs) : text (writeText .literal cs ++ '\n' :: rest) =
      some (String.ofList cs, '\n' :: rest) := by
  have hbody : (cs ++ '\x27' :: '\n' :: rest).take 2 ≠ ['\x27', '\x27'] := by
    cases cs with
    | nil => simp
    | cons c cs =>
      have hc : c ≠ '\x27' := fun hc => hmark (hc ▸ List.mem_cons_self)
      simp [hc]
  have hplain : ∀ c ∈ cs, c ≠ '\x27' ∧ isPlain c = true := by
    intro c hc
    refine ⟨fun heq => hmark (heq ▸ hc), isPlain_of_not_isCode (hcode c hc) fun heq => ?_⟩
    exact hbroken (heq ▸ hc)
  simp only [writeText, List.cons_append, List.append_assoc, List.nil_append]
  rw [text_literal hbody, literalText_write hplain]
  rfl

theorem text_write_literalLines (hcode : ∀ c ∈ cs, isCode c = false)
    (htriple : hasTriple '\x27' cs = false) :
    text (writeText .literalLines cs ++ '\n' :: rest) =
      some (String.ofList cs, '\n' :: rest) := by
  have hbody : cs.contains '\n' = false → ∃ c rest',
      cs ++ '\x27' :: '\x27' :: '\x27' :: '\n' :: rest = c :: rest' ∧ c ≠ '\n' ∧ c ≠ '\r' := by
    intro hbroken
    cases cs with
    | nil => exact ⟨_, _, rfl, by decide, by decide⟩
    | cons c cs =>
      refine ⟨c, _, rfl, ?_, ?_⟩
      · rintro rfl
        simp at hbroken
      · rintro rfl
        exact absurd (hcode '\r' List.mem_cons_self) (by decide)
  simp only [writeText, List.cons_append, List.append_assoc, List.nil_append]
  change (literalLines (skipNewline (opening cs ++ _))).map _ = _
  rw [skipNewline_opening hbody, literalLines_write htriple hcode]
  rfl

/-- A text in the form in which it is written is read back. -/
theorem text_write (cs rest : List Char) : text (writeText (formOf cs) cs ++ '\n' :: rest) =
    some (String.ofList cs, '\n' :: rest) := by
  unfold formOf
  dsimp only
  split
  next => exact text_write_basic cs rest
  split
  next h =>
    simp only [Bool.and_eq_true, Bool.not_eq_true', List.any_eq_false, List.contains_eq_mem,
      decide_eq_false_iff_not] at h
    exact text_write_literal rest (fun c hc => Bool.eq_false_iff.2 (h.1.1 c hc)) h.1.2 h.2
  split
  next => exact text_write_basicLines cs rest
  split
  next h =>
    simp only [Bool.and_eq_true, Bool.not_eq_true', List.any_eq_false] at h
    exact text_write_literalLines rest (fun c hc => Bool.eq_false_iff.2 (h.1 c hc)) h.2
  split
  next => exact text_write_basicLines cs rest
  next => exact text_write_basic cs rest

end Keystroke.Toml
