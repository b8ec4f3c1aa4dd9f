import Sieshka.Transactions.Tables

/-!
# Unique columns and updates of many rows

A nullable column with a unique index, the rows of a table in another form, and the statement
that writes a new version of every row that meets a condition.
-/

namespace Transactions

namespace Table

variable {Row Key I : Type} {key : Row → Key}

/-! ## Unique columns -/

/-- No two rows share a value of the column; a row without one is not in the index. -/
def UniqueColumn (t : Table key) (column : Row → Option I) : Prop :=
  ∀ r ∈ t.rows, ∀ r' ∈ t.rows, ∀ i, column r = some i → column r' = some i → key r = key r'

/-- No other row has the value that `r` takes. -/
def canTake [DecidableEq Key] [DecidableEq I] (t : Table key) (column : Row → Option I) (r : Row) :
    Bool :=
  t.rows.all fun other => key other = key r || column r = none || column other ≠ column r

section Unique

variable {t : Table key} {column : Row → Option I}

theorem uniqueColumn_empty : (empty : Table key).UniqueColumn column := by
  intro r hr
  cases hr

variable [DecidableEq Key]

/-- In a unique column a value belongs to one row. -/
theorem UniqueColumn.eq (h : t.UniqueColumn column) {r r' : Row} (hr : r ∈ t.rows)
    (hr' : r' ∈ t.rows) {i : I} (hi : column r = some i) (hi' : column r' = some i) : r = r' := by
  have hkey := h r hr r' hr' i hi hi'
  have hfind := find_of_mem hr
  rw [hkey, find_of_mem hr'] at hfind
  exact (Option.some.inj hfind).symm

/-- A row version keeps the column unique when no other row has its value. -/
theorem UniqueColumn.put [DecidableEq I] (h : t.UniqueColumn column) {r : Row}
    (hr : t.canTake column r = true) : (t.put r).UniqueColumn column := by
  have hfree : ∀ other ∈ t.rows, ∀ i, column r = some i → column other = some i →
      key other = key r := by
    intro other hother i hi hi'
    have hcond := List.all_eq_true.mp hr other hother
    simpa [hi, hi'] using hcond
  intro a ha b hb i hai hbi
  rcases mem_put ha with rfl | ha'
  · rcases mem_put hb with rfl | hb'
    · rfl
    · exact (hfree b hb' i hai hbi).symm
  · rcases mem_put hb with rfl | hb'
    · exact hfree a ha' i hbi hai
    · exact h a ha' b hb' i hai hbi

/-- A row version may take the value that its row has. -/
theorem UniqueColumn.canTake [DecidableEq I] (h : t.UniqueColumn column) {r r' : Row}
    (hr : r ∈ t.rows) (hkey : key r' = key r) (hvalue : column r' = column r) :
    t.canTake column r' = true := by
  refine List.all_eq_true.mpr fun other hother => ?_
  cases hi : column r with
  | none => simp [hvalue, hi]
  | some i =>
      by_cases hsame : column other = some i
      · simp [hkey, h other hother r hr i hsame hi]
      · simp [hvalue, hi, hsame]

theorem canTake_none [DecidableEq I] {r : Row} (h : column r = none) :
    t.canTake column r = true := by
  simp [canTake, h]

end Unique

/-! ## Other versions of all rows -/

/-- Every row in another form, under the same key. -/
def map {Row' : Type} {key' : Row' → Key} (t : Table key) (f : Row → Row')
    (hf : ∀ r, key' (f r) = key r) : Table key' where
  rows := t.rows.map f
  nodup := by
    have hkeys : key' ∘ f = key := by
      ext r
      exact hf r
    rw [List.map_map, hkeys]
    exact t.nodup

theorem find_map [DecidableEq Key] {Row' : Type} {key' : Row' → Key} (t : Table key)
    (f : Row → Row') (hf : ∀ r, key' (f r) = key r) (k : Key) :
    (t.map f hf).find k = (t.find k).map f := by
  have hkey : (fun r => decide (key' r = k)) ∘ f = fun r => decide (key r = k) := by
    ext r
    simp only [Function.comp_apply, hf]
  rw [find, map, List.find?_map, hkey, find]

/-- `UPDATE ... WHERE`: a new version, under the same key, of each row that meets a condition. -/
def updateWhere (t : Table key) (p : Row → Bool) (f : Row → Row) (hf : ∀ r, key (f r) = key r) :
    Table key :=
  t.map (fun r => if p r then f r else r) fun r => by
    split_ifs
    · exact hf r
    · rfl

/-- The update of the row under a key. -/
theorem rows_put_eq_map [DecidableEq Key] {t : Table key} {r : Row} {f : Row → Row}
    (hr : r ∈ t.rows) (hf : key (f r) = key r) (hother : ∀ x ∈ t.rows, x ≠ r → f x = x) :
    (t.put (f r)).rows = t.rows.map f := by
  have hfind : t.find (key (f r)) = some r := by
    rw [hf]
    exact find_of_mem hr
  rw [rows_put_of_find hfind]
  apply List.map_congr_left
  intro x hx
  by_cases hkey : key x = key (f r)
  · have heq := find_of_mem hx
    rw [hkey, hfind] at heq
    obtain rfl := Option.some.inj heq
    exact if_pos hkey
  · rw [if_neg hkey]
    refine (hother x hx ?_).symm
    rintro rfl
    exact hkey hf.symm

end Table

end Transactions
