import Keystroke.Proofs.Toml.Number
import Keystroke.Proofs.Toml.Text
import Keystroke.Toml.Document

/-!
# Reading written documents

A document of sections is read back as the table of the sections, provided that their names and
their keys need no quotes and that none comes twice. The reader goes line by line, and its draft
after some lines is what these lines have to say: `Reads` composes such statements, so that the
draft grows by a header, by an entry and by a whole section.

## Main statements

- `value_write`: a value is read as it was written.
- `reads_header`, `reads_entry`: what a line adds to the draft.
- `parse_write`: a document is read as the table of its sections.
-/

namespace Keystroke.Toml

/-! ## Names -/

/-- Whether the name stands in a document without quotes. -/
def Bare (name : String) : Prop := name.toList ≠ [] ∧ ∀ c ∈ name.toList, isBare c = true

-- over the characters of the name, not over all that there are
instance (name : String) : Decidable (Bare name) :=
  decidable_of_iff (name.toList ≠ [] ∧ name.toList.all isBare = true) (by rw [List.all_eq_true, Bare])

/-- A character of a bare name is none of those that the reader looks out for. -/
theorem ne_of_isBare {c : Char} (h : isBare c = true) :
    c ≠ '"' ∧ c ≠ '\x27' ∧ c ≠ '[' ∧ c ≠ '#' ∧ c ≠ '\n' ∧ c ≠ '\r' ∧ isBlank c = false := by
  have hne : ∀ d : Char, isBare d = false → c ≠ d := by
    rintro d hd rfl
    rw [h] at hd
    cases hd
  refine ⟨hne _ (by decide), hne _ (by decide), hne _ (by decide), hne _ (by decide),
    hne _ (by decide), hne _ (by decide), ?_⟩
  simp [isBlank, hne ' ' (by decide), hne '\t' (by decide)]

theorem skipBlanks_of_not_isBlank {c : Char} (h : isBlank c = false) (cs : List Char) :
    skipBlanks (c :: cs) = c :: cs :=
  List.dropWhile_cons_of_neg (by simp [h])

section Names

variable {name : String} (hname : Bare name)
include hname

/-- A bare name begins with one of its characters. -/
theorem exists_cons_of_bare : ∃ c cs, name.toList = c :: cs ∧ isBare c = true := by
  obtain ⟨hne, hall⟩ := hname
  cases hcs : name.toList with
  | nil => exact absurd hcs hne
  | cons c cs => exact ⟨c, cs, rfl, hall c (hcs ▸ List.mem_cons_self)⟩

theorem skipBlanks_name (rest : List Char) :
    skipBlanks (name.toList ++ rest) = name.toList ++ rest := by
  obtain ⟨c, cs, hcs, hc⟩ := exists_cons_of_bare hname
  rw [hcs, List.cons_append]
  exact skipBlanks_of_not_isBlank (ne_of_isBare hc).2.2.2.2.2.2 _

theorem simpleKey_name {d : Char} (hd : isBare d = false) (rest : List Char) :
    simpleKey (name.toList ++ d :: rest) = some (name, d :: rest) := by
  have htake : (name.toList ++ d :: rest).takeWhile isBare = name.toList := by
    rw [List.takeWhile_append_of_pos hname.2, List.takeWhile_cons_of_neg (by simp [hd]),
      List.append_nil]
  have hdrop : (name.toList ++ d :: rest).dropWhile isBare = d :: rest := by
    rw [List.dropWhile_append_of_pos hname.2, List.dropWhile_cons_of_neg (by simp [hd])]
  obtain ⟨c, cs, hcs, hc⟩ := exists_cons_of_bare hname
  obtain ⟨hquote, hmark, -⟩ := ne_of_isBare hc
  have hempty : name.toList.isEmpty = false := by
    rw [hcs]
    rfl
  unfold simpleKey
  split
  next heq =>
    rw [hcs, List.cons_append, List.cons.injEq] at heq
    exact absurd heq.1 hquote
  next heq =>
    rw [hcs, List.cons_append, List.cons.injEq] at heq
    exact absurd heq.1 hmark
  next =>
    dsimp only
    rw [htake, hdrop, hempty, String.ofList_toList]
    rfl

/-- A name is read as a key of one part, with the blanks behind it. -/
theorem key_name {d : Char} (hd : isBare d = false) {e : Char} {cs rest : List Char}
    (hskip : skipBlanks (d :: cs) = e :: rest) (he : e ≠ '.') :
    key (name.toList ++ d :: cs) = some ([name], e :: rest) := by
  unfold key maxDepth keyParts
  rw [skipBlanks_name hname, simpleKey_name hname hd]
  simp only [Option.bind_eq_bind, Option.bind_some, hskip]
  split
  next heq =>
    cases heq
    exact absurd rfl he
  next => rfl

end Names

/-! ## Values -/

/-- The value that is written. -/
def Plain.value : Plain → Value
  | .text s => .string s
  | .number n => .integer n

theorem ne_of_isDigit {c d : Char} (hc : isDigit c = true) (hd : isDigit d = false) : c ≠ d := by
  rintro rfl
  rw [hc] at hd
  cases hd

/-- What is written for a value begins neither with a blank nor like an array or a table. -/
theorem head_writePlain {p : Plain} {v : List Char} (h : writePlain p = some v) :
    ∃ c cs, v = c :: cs ∧ isBlank c = false ∧ c ≠ '[' ∧ c ≠ '\x7b' := by
  cases p with
  | text s =>
    cases h
    unfold writeText
    cases formOf s.toList <;> exact ⟨_, _, rfl, by decide, by decide, by decide⟩
  | number n =>
    simp only [writePlain] at h
    split at h <;> cases h
    cases hds : Nat.toDigits 10 n with
    | nil => exact absurd hds Nat.toDigits_ne_nil
    | cons c cs =>
      have hc := isDigit_of_mem_toDigits c (hds ▸ List.mem_cons_self)
      have hblank : isBlank c = false := by
        simp [isBlank, ne_of_isDigit hc (d := ' ') (by decide),
          ne_of_isDigit hc (d := '\t') (by decide)]
      exact ⟨c, cs, rfl, hblank, ne_of_isDigit hc (by decide), ne_of_isDigit hc (by decide)⟩

theorem scalar_of_isDigit {c : Char} (hc : isDigit c = true) (cs : List Char) :
    scalar (c :: cs) = numberOrDate (c :: cs) := by
  have hquote : c ≠ '"' := ne_of_isDigit hc (by decide)
  have hmark : c ≠ '\x27' := ne_of_isDigit hc (by decide)
  have ht : c ≠ 't' := ne_of_isDigit hc (by decide)
  have hf : c ≠ 'f' := ne_of_isDigit hc (by decide)
  unfold scalar
  split <;> simp_all

/-- What begins neither like an array nor like a table is a value without others in it. -/
theorem value_eq_scalar {c : Char} (harray : c ≠ '[') (htable : c ≠ '\x7b') (cs : List Char) :
    value (c :: cs) = scalar (c :: cs) := by
  unfold value maxDepth valueFor
  split <;> simp_all

/-- A value is read as it was written. -/
theorem value_write {p : Plain} {v : List Char} (h : writePlain p = some v) (rest : List Char) :
    value (v ++ '\n' :: rest) = some (p.value, '\n' :: rest) := by
  have hscalar : value (v ++ '\n' :: rest) = scalar (v ++ '\n' :: rest) := by
    obtain ⟨c, cs, rfl, -, harray, htable⟩ := head_writePlain h
    exact value_eq_scalar harray htable _
  rw [hscalar]
  cases p with
  | text s =>
    cases h
    have htext := text_write s.toList rest
    rw [String.ofList_toList] at htext
    have hread : scalar (writeText (formOf s.toList) s.toList ++ '\n' :: rest) =
        (text (writeText (formOf s.toList) s.toList ++ '\n' :: rest)).map
          fun r => (.string r.1, r.2) := by
      cases formOf s.toList <;> rfl
    rw [hread, htext]
    rfl
  | number n =>
    simp only [writePlain] at h
    split at h <;> cases h
    next hmax =>
      have hread : scalar (Nat.toDigits 10 n ++ '\n' :: rest) =
          numberOrDate (Nat.toDigits 10 n ++ '\n' :: rest) := by
        cases hds : Nat.toDigits 10 n with
        | nil => exact absurd hds Nat.toDigits_ne_nil
        | cons c cs =>
          exact scalar_of_isDigit (isDigit_of_mem_toDigits c (hds ▸ List.mem_cons_self)) _
      rw [hread, numberOrDate_toDigits hmax]
      rfl

/-- Whether the value can be written. -/
def Plain.Writable : Plain → Prop
  | .text _ => True
  | .number n => (n : Int) ≤ maxInteger

theorem isSome_writePlain (p : Plain) : (writePlain p).isSome ↔ p.Writable := by
  cases p with
  | text s => simp [writePlain, Plain.Writable]
  | number n => simp [writePlain, Plain.Writable]

/-! ## Lines -/

/-- Whatever follows, the reader comes from one draft to another by reading some lines. -/
def Reads (d : Draft) (cs : List Char) (d' : Draft) : Prop :=
  ∀ fuel rest, (cs ++ rest).length < fuel →
    ∃ fuel', rest.length < fuel' ∧ lines fuel d (cs ++ rest) = lines fuel' d' rest

variable {d d' d'' : Draft} {cs cs' : List Char}

theorem Reads.refl (d : Draft) : Reads d [] d := fun fuel _ hfuel => ⟨fuel, hfuel, rfl⟩

theorem Reads.append (h : Reads d cs d') (h' : Reads d' cs' d'') : Reads d (cs ++ cs') d'' := by
  intro fuel rest hfuel
  rw [List.append_assoc] at hfuel ⊢
  obtain ⟨fuel', hfuel', heq⟩ := h fuel _ hfuel
  obtain ⟨fuel'', hfuel'', heq'⟩ := h' fuel' rest hfuel'
  exact ⟨fuel'', hfuel'', heq.trans heq'⟩

/-- A line that begins with neither a blank nor a comment nor a line end is read as a line. -/
theorem reads_line {c : Char} (hblank : isBlank c = false) (hhash : c ≠ '#') (hn : c ≠ '\n')
    (hr : c ≠ '\r') (h : ∀ rest, line d (c :: cs ++ rest) = some (d', rest)) :
    Reads d (c :: cs) d' := by
  intro fuel rest hfuel
  cases fuel with
  | zero => exact absurd hfuel (Nat.not_lt_zero _)
  | succ fuel =>
    refine ⟨fuel, ?_, ?_⟩
    · simp only [List.cons_append, List.length_cons, List.length_append] at hfuel
      omega
    · have hskip : skipBlanks (c :: cs ++ rest) = c :: cs ++ rest :=
        skipBlanks_of_not_isBlank hblank _
      rw [lines, hskip]
      split
      next heq => cases heq
      next heq =>
        cases heq
        exact absurd rfl hhash
      next heq =>
        cases heq
        exact absurd rfl hn
      next heq =>
        rw [List.cons_append, List.cons.injEq] at heq
        exact absurd heq.1 hr
      next =>
        rw [h]
        rfl

theorem reads_newline (d : Draft) : Reads d ['\n'] d := by
  intro fuel rest hfuel
  cases fuel with
  | zero => exact absurd hfuel (Nat.not_lt_zero _)
  | succ fuel => exact ⟨fuel, Nat.lt_of_succ_lt_succ hfuel, rfl⟩

/-- A document whose lines are read comes to the table of the last draft. -/
theorem parseChars_of_reads (h : Reads {} cs d) (hmark : cs.head? ≠ some '\ufeff') :
    parseChars cs = some (finishEntries d.entries) := by
  obtain ⟨fuel, hfuel, heq⟩ := h (cs.length + 1) [] (by simp)
  rw [List.append_nil] at heq
  have hlines : lines (cs.length + 1) {} cs = some d := by
    rw [heq]
    cases fuel with
    | zero => exact absurd hfuel (Nat.not_lt_zero _)
    | succ fuel => rfl
  unfold parseChars
  dsimp only
  split
  next => exact absurd rfl hmark
  next =>
    rw [hlines]
    rfl

/-! ## Drafts -/

variable {es inner : Entries} {name : String}

theorem lookup_eq_none (h : name ∉ es.map (·.1)) : es.lookup name = none := by
  rw [List.lookup_eq_none_iff]
  intro e he
  rw [bne_iff_ne]
  rintro rfl
  exact h (List.mem_map_of_mem he)

theorem lookup_concat (h : name ∉ es.map (·.1)) (item : Item) :
    (es ++ [(name, item)]).lookup name = some item := by
  simp [List.lookup_append, lookup_eq_none h]

theorem replace_concat (h : name ∉ es.map (·.1)) (item item' : Item) :
    Entries.replace (es ++ [(name, item)]) name item' = es ++ [(name, item')] := by
  have hsame : es.map (fun e => if e.1 = name then (name, item') else e) = es := by
    refine (List.map_congr_left fun e he => if_neg ?_).trans (List.map_id es)
    rintro rfl
    exact h (List.mem_map_of_mem he)
  unfold Entries.replace
  rw [List.map_append, hsame]
  simp

/-- A header of a new name opens a table. -/
theorem reads_header (hname : Bare name) (hnew : name ∉ d.entries.map (·.1)) :
    Reads d ('[' :: name.toList ++ [']', '\n'])
      ⟨[name], d.entries ++ [(name, .table .opened [])]⟩ := by
  apply reads_line (by decide) (by decide) (by decide) (by decide)
  intro rest
  have hkey : key (name.toList ++ [']', '\n'] ++ rest) = some ([name], ']' :: '\n' :: rest) := by
    rw [List.append_assoc]
    exact key_name hname (by decide) rfl (by decide)
  have hopen : d.entries.modifyAt (Entries.openTable name) [] =
      some (d.entries ++ [(name, .table .opened [])]) := by
    simp only [Entries.modifyAt, Entries.openTable, lookup_eq_none hnew]
  have hline : line d ('[' :: (name.toList ++ [']', '\n']) ++ rest) =
      tableHeader d (name.toList ++ [']', '\n'] ++ rest) := by
    obtain ⟨c, cs, hcs, hc⟩ := exists_cons_of_bare hname
    unfold line
    split
    next heq =>
      rw [hcs] at heq
      simp only [List.cons_append, List.cons.injEq] at heq
      exact absurd heq.2.1 (ne_of_isBare hc).2.2.1
    next heq =>
      simp only [List.cons_append, List.cons.injEq, true_and] at heq
      rw [heq]
    next hother => exact absurd rfl (hother _)
  refine hline.trans ?_
  unfold tableHeader
  rw [hkey]
  have hrest : lineRest ('\n' :: rest) = some ((), rest) := rfl
  simp only [Option.bind_eq_bind, Option.bind_some, hrest]
  change (d.entries.modifyAt (Entries.openTable name) []).bind _ = _
  rw [hopen]
  rfl

/-- An entry of a new key is added to the table of the last header. -/
theorem reads_entry {k : String} {p : Plain} {v : List Char} (hk : Bare k)
    (hv : writePlain p = some v) (hname : name ∉ es.map (·.1)) (hnew : k ∉ inner.map (·.1)) :
    Reads ⟨[name], es ++ [(name, .table .opened inner)]⟩
      (k.toList ++ [' ', '=', ' '] ++ v ++ ['\n'])
      ⟨[name], es ++ [(name, .table .opened (inner ++ [(k, .value p.value)]))]⟩ := by
  obtain ⟨c, cs, hcs, hc⟩ := exists_cons_of_bare hk
  obtain ⟨-, -, hbracket, hhash, hn, hr, hblank⟩ := ne_of_isBare hc
  have hform : k.toList ++ [' ', '=', ' '] ++ v ++ ['\n'] =
      c :: (cs ++ [' ', '=', ' '] ++ v ++ ['\n']) := by rw [hcs]; rfl
  rw [hform]
  apply reads_line hblank hhash hn hr
  intro rest
  rw [← hform]
  have hkey : key (k.toList ++ [' ', '=', ' '] ++ v ++ ['\n'] ++ rest) =
      some ([k], '=' :: ' ' :: (v ++ '\n' :: rest)) := by
    simp only [List.append_assoc, List.cons_append, List.nil_append]
    exact key_name hk (by decide) rfl (by decide)
  have hvalue : value (skipBlanks (' ' :: (v ++ '\n' :: rest))) =
      some (p.value, '\n' :: rest) := by
    obtain ⟨c', cs', rfl, hblank', -⟩ := head_writePlain hv
    have hskip : skipBlanks (' ' :: (c' :: cs' ++ '\n' :: rest)) = c' :: cs' ++ '\n' :: rest :=
      skipBlanks_of_not_isBlank hblank' _
    rw [hskip, value_write hv]
  have hinsert : Entries.modifyAt (fun es => es.insert k p.value []) [name]
      (es ++ [(name, .table .opened inner)]) =
      some (es ++ [(name, .table .opened (inner ++ [(k, .value p.value)]))]) := by
    simp only [Entries.modifyAt, lookup_concat hname, Entries.insert, lookup_eq_none hnew,
      Option.isSome_none, Bool.false_eq_true, if_false, Option.map_some, replace_concat hname]
  have hline : ∀ d : Draft, line d (k.toList ++ [' ', '=', ' '] ++ v ++ ['\n'] ++ rest) =
      entryLine d (k.toList ++ [' ', '=', ' '] ++ v ++ ['\n'] ++ rest) := by
    intro d
    rw [hcs]
    unfold line
    split
    next heq =>
      simp only [List.cons_append, List.cons.injEq] at heq
      exact absurd heq.1 hbracket
    next heq =>
      simp only [List.cons_append, List.cons.injEq] at heq
      exact absurd heq.1 hbracket
    next => rfl
  rw [hline]
  unfold entryLine
  rw [hkey]
  have hrest : lineRest ('\n' :: rest) = some ((), rest) := rfl
  simp only [Option.bind_eq_bind, Option.bind_some, hvalue, hrest]
  change (Entries.modifyAt (fun es => es.insert k p.value []) [name]
    (es ++ [(name, .table .opened inner)])).bind _ = _
  rw [hinsert]
  rfl

/-! ## Sections -/

theorem isSome_mapM {α β : Type} {f : α → Option β} (xs : List α) :
    (xs.mapM f).isSome ↔ ∀ x ∈ xs, (f x).isSome := by
  induction xs with
  | nil => simp
  | cons x xs ih =>
    rw [List.forall_mem_cons, ← ih, List.mapM_cons]
    cases f x <;> cases xs.mapM f <;> simp

/-- A document can be written if all values can be. -/
theorem isSome_write (sections : List Section) :
    (write sections).isSome ↔ ∀ s ∈ sections, ∀ e ∈ s.entries, e.2.Writable := by
  simp only [write, writeChars, writeSection, writeEntry, Option.isSome_map, isSome_mapM,
    isSome_writePlain]

/-- What a draft holds for the entries of a section. -/
def itemsOf (entries : List (String × Plain)) : Entries :=
  entries.map fun e => (e.1, .value e.2.value)

/-- The table that is written for a section. -/
def Section.value (s : Section) : Value := .table (s.entries.map fun e => (e.1, e.2.value))

def Section.keys (s : Section) : List String := s.entries.map (·.1)

/-- The name and the keys need no quotes, and no key comes twice. -/
structure Section.WellNamed (s : Section) : Prop where
  name : Bare s.name
  keys : ∀ k ∈ s.keys, Bare k
  nodup : s.keys.Nodup

theorem exists_of_writeEntry {e : String × Plain} {w : List Char} (h : writeEntry e = some w) :
    ∃ v, writePlain e.2 = some v ∧ w = e.1.toList ++ [' ', '=', ' '] ++ v ++ ['\n'] := by
  obtain ⟨v, hv, rfl⟩ := Option.map_eq_some_iff.1 h
  exact ⟨v, hv, rfl⟩

/-- The entries are added to those that the table has already. -/
theorem reads_entries {entries : List (String × Plain)} {written : List (List Char)}
    (hkeys : ∀ k ∈ entries.map (·.1), Bare k) (hwritten : entries.mapM writeEntry = some written)
    (hname : name ∉ es.map (·.1)) (hnew : (inner.map (·.1) ++ entries.map (·.1)).Nodup) :
    Reads ⟨[name], es ++ [(name, .table .opened inner)]⟩ written.flatten
      ⟨[name], es ++ [(name, .table .opened (inner ++ itemsOf entries))]⟩ := by
  induction entries generalizing inner written with
  | nil =>
    cases hwritten
    rw [itemsOf, List.map_nil, List.append_nil]
    exact .refl _
  | cons e entries ih =>
    obtain ⟨k, p⟩ := e
    simp only [List.mapM_cons, Option.bind_eq_bind, Option.bind_eq_some_iff, Option.pure_def,
      Option.some.injEq] at hwritten
    obtain ⟨w, hw, ws, hws, rfl⟩ := hwritten
    obtain ⟨v, hv, rfl⟩ := exists_of_writeEntry hw
    rw [List.map_cons, List.forall_mem_cons] at hkeys
    have hk : k ∉ inner.map (·.1) := by
      intro hmem
      exact (List.nodup_append.1 hnew).2.2 k hmem k List.mem_cons_self rfl
    have hnew' : ((inner ++ [(k, Item.value p.value)] : Entries).map (·.1) ++
        entries.map (·.1)).Nodup := by
      rw [List.map_append, List.append_assoc]
      exact hnew
    have hrest := ih hkeys.2 hws hnew'
    rw [List.append_assoc] at hrest
    exact (reads_entry hkeys.1 hv hname hk).append hrest

/-- A section of a new name is added to the document. -/
theorem reads_section {s : Section} {w : List Char} (hs : s.WellNamed)
    (hw : writeSection s = some w) (hnew : s.name ∉ d.entries.map (·.1)) :
    Reads d w ⟨[s.name], d.entries ++ [(s.name, .table .opened (itemsOf s.entries))]⟩ := by
  obtain ⟨written, hwritten, rfl⟩ := Option.map_eq_some_iff.1 hw
  exact (reads_header hs.name hnew).append (reads_entries hs.keys hwritten hnew hs.nodup)

/-- Sections of new names are added to the document, with empty lines between them. -/
theorem reads_sections {sections : List Section} {parts : List (List Char)}
    (hs : ∀ s ∈ sections, s.WellNamed) (hparts : sections.mapM writeSection = some parts)
    (hnew : (d.entries.map (·.1) ++ sections.map (·.name)).Nodup) :
    ∃ d', Reads d (['\n'].intercalate parts) d' ∧
      d'.entries = d.entries ++
        sections.map fun s => (s.name, .table .opened (itemsOf s.entries)) := by
  induction sections generalizing d parts with
  | nil =>
    cases hparts
    exact ⟨d, .refl d, (List.append_nil _).symm⟩
  | cons s sections ih =>
    simp only [List.mapM_cons, Option.bind_eq_bind, Option.bind_eq_some_iff, Option.pure_def,
      Option.some.injEq] at hparts
    obtain ⟨w, hw, ws, hws, rfl⟩ := hparts
    rw [List.forall_mem_cons] at hs
    have hname : s.name ∉ d.entries.map (·.1) := by
      intro hmem
      exact (List.nodup_append.1 hnew).2.2 s.name hmem s.name List.mem_cons_self rfl
    have hfirst := reads_section hs.1 hw hname
    obtain ⟨d', hrest, hentries⟩ := ih (d := ⟨[s.name], d.entries ++
      [(s.name, .table .opened (itemsOf s.entries))]⟩) hs.2 hws (by
        rw [List.map_append, List.append_assoc]
        exact hnew)
    rw [List.append_assoc] at hentries
    cases ws with
    | nil =>
      refine ⟨d', ?_, hentries⟩
      have happend := hfirst.append hrest
      simpa [List.intercalate] using happend
    | cons w' ws =>
      refine ⟨d', ?_, hentries⟩
      rw [List.intercalate_cons_cons]
      exact (hfirst.append (reads_newline _)).append hrest

theorem finishEntries_sections (sections : List Section) :
    finishEntries (sections.map fun s => (s.name, .table .opened (itemsOf s.entries))) =
      sections.map fun s => (s.name, s.value) := by
  have hitems : ∀ entries : List (String × Plain),
      finishEntries (itemsOf entries) = entries.map fun e => (e.1, e.2.value) := by
    intro entries
    induction entries with
    | nil => rfl
    | cons e entries ih => exact congrArg (_ :: ·) ih
  induction sections with
  | nil => rfl
  | cons s sections ih =>
    simp only [List.map_cons, finishEntries, ih, Item.finish, hitems, Section.value]

/-- A document that is written begins with no mark of its encoding. -/
theorem head?_write_ne {sections : List Section} {parts : List (List Char)}
    (hparts : sections.mapM writeSection = some parts) :
    (['\n'].intercalate parts).head? ≠ some '\ufeff' := by
  cases sections with
  | nil =>
    cases hparts
    simp [List.intercalate]
  | cons s sections =>
    simp only [List.mapM_cons, Option.bind_eq_bind, Option.bind_eq_some_iff, Option.pure_def,
      Option.some.injEq] at hparts
    obtain ⟨w, hw, ws, -, rfl⟩ := hparts
    obtain ⟨written, -, rfl⟩ := Option.map_eq_some_iff.1 hw
    cases ws <;> simp [List.intercalate]

/-- A document is read as the table of its sections. -/
theorem parse_write {sections : List Section} {document : String}
    (hs : ∀ s ∈ sections, s.WellNamed) (hnodup : (sections.map (·.name)).Nodup)
    (hwrite : write sections = some document) :
    parse document = some (sections.map fun s => (s.name, s.value)) := by
  obtain ⟨cs, hcs, rfl⟩ := Option.map_eq_some_iff.1 hwrite
  obtain ⟨parts, hparts, rfl⟩ := Option.map_eq_some_iff.1 hcs
  obtain ⟨d, hreads, hentries⟩ := reads_sections (d := {}) hs hparts hnodup
  rw [parse, String.toList_ofList, parseChars_of_reads hreads (head?_write_ne hparts), hentries,
    List.nil_append, finishEntries_sections]

end Keystroke.Toml
