import Sieshka.Python.Csv

/-!
# What is written is read back

`csv.reader` reads of the text that `csv.writer` has written the rows that were written, as long
as no field is larger than the reader takes.
-/

namespace Sieshka

namespace Csv

/-! ## One character -/

theorem Reader.addChar_of_lt {r : Reader} (state : ReaderState) (c : Char)
    (h : r.field.length < fieldLimit) :
    r.addChar state c = .ok { r with state, field := r.field ++ [c] } :=
  if_neg (Nat.not_le.mpr h)

theorem exists_lines {cs : List Char} (h : cs ≠ []) : ∃ line others, lines cs = line :: others := by
  cases cs with
  | nil => exact absurd rfl h
  | cons c rest =>
      rw [lines]
      split
      · exact ⟨_, _, rfl⟩
      · cases lines rest with
        | nil => exact ⟨_, _, rfl⟩
        | cons line others => exact ⟨_, _, rfl⟩

theorem lines_newline (rest : List Char) : lines ('\n' :: rest) = ['\n'] :: lines rest := by
  rw [lines, if_pos rfl]

theorem lines_cons {c : Char} {rest line : List Char} {others : List (List Char)} (hc : c ≠ '\n')
    (h : lines rest = line :: others) : lines (c :: rest) = (c :: line) :: others := by
  rw [lines, if_neg hc, h]

section Reading

variable {r r' : Reader} {rest : List Char}

/-- A character within a line. -/
theorem readRows_char {c : Char} (hc : c ≠ '\n') (hrest : rest ≠ [])
    (h : r.processChar (some c) = .ok r') :
    readRows r (lines (c :: rest)) = readRows r' (lines rest) := by
  obtain ⟨line, others, hlines⟩ := exists_lines hrest
  rw [lines_cons hc hlines, hlines, readRows, readRows, Reader.processLine, List.foldlM_cons, h]
  rfl

/-- The end of a line within quotes. -/
theorem readRows_newline (hstate : r.state = .inQuotedField) (hlen : r.field.length < fieldLimit) :
    readRows r (lines ('\n' :: rest)) =
      readRows { r with field := r.field ++ ['\n'] } (lines rest) := by
  have hchar : r.processChar (some '\n') = .ok { r with field := r.field ++ ['\n'] } := by
    rw [Reader.processChar.eq_def]
    simp [hstate, Reader.addChar_of_lt _ _ hlen]
  have hstay : ({ r with field := r.field ++ ['\n'] } : Reader).processChar none =
      .ok { r with field := r.field ++ ['\n'] } := by
    rw [Reader.processChar.eq_def]
    simp only [hstate]
  have hline : r.processLine ['\n'] = .ok { r with field := r.field ++ ['\n'] } := by
    rw [Reader.processLine, List.foldlM_cons, hchar]
    exact hstay
  have hopen : ¬ ({ r with field := r.field ++ ['\n'] } : Reader).state = .startRecord := by
    rw [hstate]
    decide
  rw [lines_newline, readRows, hline]
  exact if_neg hopen

/-- The end of a row. -/
theorem readRows_end (fields : List String) :
    readRows { state := .eatCrnl, field := [], fields } (lines ('\n' :: rest)) =
      (readRows start (lines rest)).map (fields :: ·) := by
  rw [lines_newline, readRows]
  cases readRows start (lines rest) <;> rfl

/-! ## One field -/

/-- A character that needs no quotes. -/
def Plain (c : Char) : Prop := c ∉ [',', '"', '\r', '\n']

theorem readRows_plain {field : List Char} (hplain : ∀ c ∈ field, Plain c) (hrest : rest ≠ []) :
    ∀ {r : Reader}, r.state = .inField → r.field.length + field.length ≤ fieldLimit →
      readRows r (lines (field ++ rest)) =
        readRows { r with field := r.field ++ field } (lines rest) := by
  induction field with
  | nil =>
      intro r _ _
      rw [List.nil_append, List.append_nil]
  | cons c field ih =>
      intro r hstate hlen
      have hc : Plain c := hplain c (List.mem_cons_self ..)
      simp only [Plain, List.mem_cons, List.not_mem_nil, or_false, not_or] at hc
      obtain ⟨hcomma, -, hcr, hnl⟩ := hc
      rw [List.length_cons] at hlen
      have hroom : r.field.length < fieldLimit := by omega
      have hchar : r.processChar (some c) = .ok { r with field := r.field ++ [c] } := by
        rw [Reader.processChar.eq_def]
        simp [hstate, Reader.addChar_of_lt _ _ hroom, hcomma, hcr, hnl]
      have hnext := @ih (fun c h => hplain c (List.mem_cons_of_mem _ h))
        { r with field := r.field ++ [c] } hstate (by
          rw [List.length_append, List.length_singleton]
          omega)
      rw [List.append_assoc, List.singleton_append] at hnext
      rw [List.cons_append, ← hnext]
      exact readRows_char hnl (List.append_ne_nil_of_right_ne_nil _ hrest) hchar

/-- The inside of a quoted field. -/
theorem readRows_inner {field : List Char} (hrest : rest ≠ []) :
    ∀ {r : Reader}, r.state = .inQuotedField → r.field.length + field.length ≤ fieldLimit →
      readRows r (lines ((field.flatMap fun c => if c = '"' then ['"', '"'] else [c]) ++ rest)) =
        readRows { r with field := r.field ++ field } (lines rest) := by
  induction field with
  | nil =>
      intro r _ _
      rw [List.flatMap_nil, List.nil_append, List.append_nil]
  | cons c field ih =>
      intro r hstate hlen
      rw [List.length_cons] at hlen
      have hroom : r.field.length < fieldLimit := by omega
      have hne := List.append_ne_nil_of_right_ne_nil
        (field.flatMap fun c => if c = '"' then ['"', '"'] else [c]) hrest
      have hnext := @ih { r with field := r.field ++ [c] } hstate (by
        rw [List.length_append, List.length_singleton]
        omega)
      rw [List.append_assoc, List.singleton_append] at hnext
      rw [List.flatMap_cons, List.append_assoc, ← hnext]
      by_cases hquote : c = '"'
      · -- a doubled quote
        subst hquote
        have hopen : r.processChar (some '"') = .ok { r with state := .quoteInQuotedField } := by
          rw [Reader.processChar.eq_def]
          simp [hstate]
        have hclose : ({ r with state := .quoteInQuotedField } : Reader).processChar (some '"') =
            .ok { r with field := r.field ++ ['"'] } := by
          simp [Reader.processChar, Reader.addChar_of_lt, hroom, hstate]
        rw [if_pos rfl, List.cons_append, readRows_char (by decide) (by simp) hopen,
          List.singleton_append, readRows_char (by decide) hne hclose]
      · rw [if_neg hquote, List.singleton_append]
        by_cases hnl : c = '\n'
        · subst hnl
          exact readRows_newline hstate hroom
        · have hchar : r.processChar (some c) = .ok { r with field := r.field ++ [c] } := by
            rw [Reader.processChar.eq_def]
            simp [hstate, Reader.addChar_of_lt _ _ hroom, hquote]
          exact readRows_char hnl hne hchar

/-- The reader is at the start of a field. -/
structure AtField (r : Reader) : Prop where
  state : r.state = .startRecord ∨ r.state = .startField
  field : r.field = []

/-- The reader `r'` has read a field that the reader `r` was at the start of. A row does not end
after a field that left nothing to read. -/
structure HasRead (r : Reader) (field : List Char) (r' : Reader) : Prop where
  comma : r'.processChar (some ',') =
    .ok { state := .startField, field := [], fields := r.fields ++ [String.ofList field] }
  crnl : field ≠ [] ∨ r.state = .startField → r'.processChar (some '\r') =
    .ok { state := .eatCrnl, field := [], fields := r.fields ++ [String.ofList field] }

theorem AtField.processChar (hr : AtField r) {c : Char} (hcr : c ≠ '\r') (hnl : c ≠ '\n') :
    r.processChar (some c) = r.startFieldChar c := by
  rw [Reader.processChar.eq_def]
  rcases hr.state with hstate | hstate <;> simp [hstate, hcr, hnl]

theorem exists_hasRead (hr : AtField r) {field : List Char} (hlen : field.length ≤ fieldLimit) :
    ∃ r', HasRead r field r' ∧ ∀ rest : List Char, rest ≠ [] →
      readRows r (lines (writeField field ++ rest)) = readRows r' (lines rest) := by
  rw [writeField]
  by_cases hquoted : (field.any fun c => c ∈ [',', '"', '\r', '\n']) = true
  · rw [if_pos hquoted]
    refine ⟨{ r with state := .quoteInQuotedField, field }, ⟨rfl, fun _ => rfl⟩, fun rest hrest => ?_⟩
    have hopen : r.processChar (some '"') = .ok { r with state := .inQuotedField } := by
      rw [hr.processChar (by decide) (by decide)]
      rfl
    have hclose : ({ r with state := .inQuotedField, field } : Reader).processChar (some '"') =
        .ok { r with state := .quoteInQuotedField, field } := rfl
    have hroom : r.field.length + field.length ≤ fieldLimit := by
      rw [hr.field, List.length_nil, Nat.zero_add]
      exact hlen
    rw [List.cons_append, List.cons_append, List.append_assoc,
      readRows_char (by decide) (by simp) hopen, List.singleton_append,
      @readRows_inner _ field (List.cons_ne_nil _ _) { r with state := .inQuotedField } rfl hroom]
    simp only [hr.field, List.nil_append]
    exact readRows_char (by decide) hrest hclose
  · rw [if_neg hquoted]
    have hplain : ∀ c ∈ field, Plain c := by
      intro c hc hspecial
      exact hquoted (List.any_eq_true.mpr ⟨c, hc, decide_eq_true hspecial⟩)
    cases field with
    | nil =>
        refine ⟨r, ⟨?_, fun h => ?_⟩, fun rest _ => by rw [List.nil_append]⟩
        · rw [hr.processChar (by decide) (by decide)]
          simp [Reader.startFieldChar, Reader.saveField, hr.field]
        · have hstate := h.resolve_left fun h => h rfl
          rw [Reader.processChar.eq_def]
          simp [hstate, Reader.startFieldChar, Reader.endRecord, Reader.saveField, hr.field]
    | cons c field =>
        have hc : Plain c := hplain c (List.mem_cons_self ..)
        simp only [Plain, List.mem_cons, List.not_mem_nil, or_false, not_or] at hc
        obtain ⟨hcomma, hquote, hcr, hnl⟩ := hc
        rw [List.length_cons] at hlen
        refine ⟨{ r with state := .inField, field := c :: field }, ⟨rfl, fun _ => rfl⟩,
          fun rest hrest => ?_⟩
        have hchar : r.processChar (some c) = .ok { r with state := .inField, field := [c] } := by
          rw [hr.processChar hcr hnl]
          have hroom : r.field.length < fieldLimit := by
            rw [hr.field]
            decide
          simp [Reader.startFieldChar, Reader.addChar_of_lt _ _ hroom, hcomma, hquote, hcr, hnl,
            hr.field]
        rw [List.cons_append, readRows_char hnl (List.append_ne_nil_of_right_ne_nil _ hrest) hchar]
        refine readRows_plain (fun c h => hplain c (List.mem_cons_of_mem _ h)) hrest rfl ?_
        rw [List.length_singleton]
        omega

/-! ## One row -/

theorem readRows_fields (field : List Char) (fields : List (List Char))
    (hlen : ∀ f ∈ field :: fields, f.length ≤ fieldLimit) :
    ∀ {r : Reader}, AtField r → (field :: fields ≠ [[]] ∨ r.state = .startField) →
      readRows r (lines (List.intercalate [','] ((field :: fields).map writeField) ++
          '\r' :: '\n' :: rest)) =
        (readRows start (lines rest)).map
          ((r.fields ++ (field :: fields).map String.ofList) :: ·) := by
  induction fields generalizing field with
  | nil =>
      intro r hr hsome
      obtain ⟨r', hread, hrows⟩ := exists_hasRead hr (hlen field (List.mem_cons_self ..))
      have hcrnl := hread.crnl (hsome.imp_left fun h he => h (by rw [he]))
      rw [List.map_singleton, List.intercalate_singleton, hrows _ (List.cons_ne_nil _ _),
        readRows_char (by decide) (List.cons_ne_nil _ _) hcrnl, readRows_end]
      rfl
  | cons next fields ih =>
      intro r hr _
      obtain ⟨r', hread, hrows⟩ := exists_hasRead hr (hlen field (List.mem_cons_self ..))
      have hrest := @ih next (fun f h => hlen f (List.mem_cons_of_mem _ h))
        { state := .startField, field := [], fields := r.fields ++ [String.ofList field] }
        ⟨Or.inr rfl, rfl⟩ (Or.inr rfl)
      rw [List.map_cons, List.map_cons, List.intercalate_cons_cons, List.append_assoc,
        List.append_assoc, List.singleton_append, hrows _ (List.cons_ne_nil _ _),
        readRows_char (by decide) (by simp) hread.comma, ← List.map_cons, hrest]
      simp

theorem readRows_writeRow {cells : List Cell}
    (hlen : ∀ cell ∈ cells, cell.str.length ≤ fieldLimit) :
    readRows start (lines (writeRow cells ++ rest)) =
      (readRows start (lines rest)).map (cells.map Cell.str :: ·) := by
  rw [writeRow, List.append_assoc]
  by_cases hblank : cells.map Cell.str = [""]
  · rw [if_pos hblank, hblank]
    have hopen : start.processChar (some '"') = .ok { start with state := .inQuotedField } := rfl
    have hclose : ({ start with state := .inQuotedField } : Reader).processChar (some '"') =
        .ok { start with state := .quoteInQuotedField } := rfl
    have hcrnl : ({ start with state := .quoteInQuotedField } : Reader).processChar (some '\r') =
        .ok { state := .eatCrnl, field := [], fields := [""] } := rfl
    rw [List.cons_append, List.singleton_append, List.cons_append, List.singleton_append,
      readRows_char (by decide) (List.cons_ne_nil _ _) hopen,
      readRows_char (by decide) (List.cons_ne_nil _ _) hclose,
      readRows_char (by decide) (List.cons_ne_nil _ _) hcrnl, readRows_end]
  · rw [if_neg hblank]
    cases cells with
    | nil =>
        have hcrnl : start.processChar (some '\r') =
            .ok { state := .eatCrnl, field := [], fields := [] } := rfl
        rw [List.map_nil, List.intercalate_nil, List.nil_append, List.cons_append,
          List.singleton_append, readRows_char (by decide) (List.cons_ne_nil _ _) hcrnl,
          readRows_end]
        rfl
    | cons cell cells =>
        have hfields := @readRows_fields rest cell.str.toList
          (cells.map fun cell => cell.str.toList) (fun f hf => ?_) start ⟨Or.inl rfl, rfl⟩
          (Or.inl fun he => hblank ?_)
        · rw [List.map_cons, List.map_map] at hfields
          rw [List.map_cons, List.cons_append, List.singleton_append]
          refine hfields.trans ?_
          simp [start, Function.comp_def]
        · rw [← List.map_cons (f := fun cell : Cell => cell.str.toList)] at hf
          obtain ⟨cell', hmem, rfl⟩ := List.mem_map.mp hf
          exact hlen cell' hmem
        · obtain ⟨hcell, hcells⟩ := List.cons.inj he
          rw [List.map_eq_nil_iff] at hcells
          rw [hcells, List.map_singleton, String.toList_eq_nil_iff.mp hcell]

/-- The rows that were written are read back. -/
theorem read_write {rows : List (List Cell)}
    (hlen : ∀ row ∈ rows, ∀ cell ∈ row, cell.str.length ≤ fieldLimit) :
    read (write rows) = .ok (rows.map fun row => row.map Cell.str) := by
  rw [read, write, String.toList_ofList]
  induction rows with
  | nil => rfl
  | cons row rows ih =>
      rw [List.flatMap_cons, readRows_writeRow (hlen row (List.mem_cons_self ..)),
        ih fun row' h => hlen row' (List.mem_cons_of_mem _ h)]
      rfl

end Reading

/-! ## How long a cell can be -/

theorem length_le_writeField (field : List Char) : field.length ≤ (writeField field).length := by
  have hdoubled : ∀ cs : List Char,
      cs.length ≤ (cs.flatMap fun c => if c = '"' then ['"', '"'] else [c]).length := by
    intro cs
    induction cs with
    | nil => exact Nat.le_refl _
    | cons c cs ih =>
        have hone : 1 ≤ (if c = '"' then ['"', '"'] else [c]).length := by split <;> simp
        rw [List.flatMap_cons, List.length_append, List.length_cons]
        omega
  have hinside := hdoubled field
  rw [writeField]
  split
  · rw [List.length_append, List.length_cons]
    omega
  · exact Nat.le_refl _

theorem length_le_intercalate {sep piece : List Char} {pieces : List (List Char)}
    (h : piece ∈ pieces) : piece.length ≤ (List.intercalate sep pieces).length := by
  induction pieces with
  | nil => cases h
  | cons first rest ih =>
      cases rest with
      | nil =>
          rw [List.intercalate_singleton, List.mem_singleton.mp h]
      | cons second rest =>
          rw [List.intercalate_cons_cons, List.length_append, List.length_append]
          rcases List.mem_cons.mp h with rfl | h
          · omega
          · have hle := ih h
            omega

theorem length_le_writeRow {cells : List Cell} {cell : Cell} (h : cell ∈ cells) :
    cell.str.length ≤ (writeRow cells).length := by
  rw [writeRow, List.length_append]
  by_cases hblank : cells.map Cell.str = [""]
  · have hcell : cell.str = "" := by
      rw [← List.mem_singleton, ← hblank]
      exact List.mem_map_of_mem h
    rw [hcell]
    exact Nat.zero_le _
  · rw [if_neg hblank]
    calc
      cell.str.length = cell.str.toList.length := String.length_toList.symm
      _ ≤ (writeField cell.str.toList).length := length_le_writeField _
      _ ≤ _ := length_le_intercalate
        (List.mem_map_of_mem (f := fun cell : Cell => writeField cell.str.toList) h)
      _ ≤ _ := Nat.le_add_right _ _

/-- A cell is no longer than the text it is written in. -/
theorem length_le_write {rows : List (List Cell)} {row : List Cell} {cell : Cell}
    (hrow : row ∈ rows) (hcell : cell ∈ row) : cell.str.length ≤ (write rows).length := by
  rw [write, String.length_ofList]
  calc
    cell.str.length ≤ (writeRow row).length := length_le_writeRow hcell
    _ ≤ (rows.flatMap writeRow).length :=
      (List.sublist_flatten_of_mem (List.mem_map_of_mem hrow)).length_le

end Csv

end Sieshka
