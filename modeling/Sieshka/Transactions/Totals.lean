import Mathlib.Algebra.BigOperators.Group.List.Basic
import Mathlib.Tactic.Abel
import Sieshka.Transactions.Tables

/-!
# Totals over a table

The sum of a quantity over the rows of a table, and what writing a row does to it.
-/

namespace Transactions

namespace Table

variable {Row Key G : Type} {key : Row → Key} [AddCommGroup G]

/-- The sum of `f` over the rows. -/
def total (f : Row → G) (t : Table key) : G := (t.rows.map f).sum

variable {f g : Row → G} {t : Table key} {r old : Row}

theorem total_eq_zero (h : ∀ x ∈ t.rows, f x = 0) : t.total f = 0 := by
  rw [total]
  apply List.sum_eq_zero
  intro a ha
  obtain ⟨x, hx, rfl⟩ := List.mem_map.mp ha
  exact h x hx

variable [DecidableEq Key]

/-- A row under a new key adds its quantity. -/
theorem total_put_absent (h : t.find (key r) = none) : (t.put r).total f = t.total f + f r := by
  rw [total, rows_put_of_find_eq_none h, List.map_append, List.sum_append, total]
  simp

/-- A new version of a row stands where the old one stood. -/
theorem exists_rows_put (h : t.find (key r) = some old) :
    ∃ pre post, t.rows = pre ++ old :: post ∧ (t.put r).rows = pre ++ r :: post := by
  obtain ⟨hmem, hkey⟩ := find_some h
  obtain ⟨pre, post, hrows⟩ := List.append_of_mem hmem
  refine ⟨pre, post, hrows, ?_⟩
  have hnodup := t.nodup
  rw [hrows, List.map_append, List.map_cons, List.nodup_middle, List.nodup_cons] at hnodup
  have hother : ∀ x ∈ pre ++ post, (if key x = key r then r else x) = x := by
    intro x hx
    refine if_neg fun he => hnodup.1 ?_
    rw [hkey, ← he, ← List.map_append]
    exact List.mem_map_of_mem hx
  have hpre := List.map_congr_left fun x hx => hother x (List.mem_append_left post hx)
  have hpost := List.map_congr_left fun x hx => hother x (List.mem_append_right pre hx)
  rw [rows_put_of_find h, hrows, List.map_append, List.map_cons, if_pos hkey, hpre, hpost,
    List.map_id', List.map_id']

/-- A new version of a row adds what it has more than the old one. -/
theorem total_put (h : t.find (key r) = some old) :
    (t.put r).total f = t.total f + (f r - f old) := by
  obtain ⟨pre, post, hrows, hput⟩ := exists_rows_put h
  rw [total, hput, total, hrows]
  simp only [List.map_append, List.map_cons, List.sum_append, List.sum_cons]
  abel

/-- A new version of a row with the same quantity. -/
theorem total_put_of_eq (h : t.find (key r) = some old) (hf : f r = f old) :
    (t.put r).total f = t.total f := by
  rw [total_put h, hf, sub_self, add_zero]

end Table

end Transactions
