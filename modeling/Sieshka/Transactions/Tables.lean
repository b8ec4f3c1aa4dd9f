import Mathlib.Data.List.Nodup
import Mathlib.Data.List.Basic
import Mathlib.Data.List.Perm.Subperm

/-!
# Keyed tables

A table is a list of rows with pairwise distinct primary keys. Writing a row
version replaces the row with the same key or, when there is none, appends it,
so rows keep the order in which they were inserted.
-/

namespace Transactions

variable {Row Key : Type} [DecidableEq Key]

/-- Replace the row with the key of `r`, or append `r`. -/
@[grind =] def putRow (key : Row → Key) (r : Row) : List Row → List Row
  | [] => [r]
  | x :: rest => if key x = key r then r :: rest else x :: putRow key r rest

theorem mem_putRow {key : Row → Key} {r x : Row} {rows : List Row}
    (h : x ∈ putRow key r rows) : x = r ∨ x ∈ rows := by
  induction rows with
  | nil => exact Or.inl (by simpa [putRow] using h)
  | cons y rest ih =>
      by_cases hy : key y = key r
      · simp only [putRow, if_pos hy, List.mem_cons] at h
        exact h.imp_right (List.mem_cons_of_mem y)
      · simp only [putRow, if_neg hy, List.mem_cons] at h
        rcases h with rfl | h
        · exact Or.inr List.mem_cons_self
        · exact (ih h).imp_right (List.mem_cons_of_mem y)

theorem putRow_of_forall_ne {key : Row → Key} {r : Row} {rows : List Row}
    (h : ∀ x ∈ rows, key x ≠ key r) : putRow key r rows = rows ++ [r] := by
  induction rows with
  | nil => rfl
  | cons y rest ih =>
      rw [putRow, if_neg (h y List.mem_cons_self), List.cons_append,
        ih fun x hx => h x (List.mem_cons_of_mem y hx)]

theorem nodup_putRow (key : Row → Key) (r : Row) {rows : List Row}
    (h : (rows.map key).Nodup) : ((putRow key r rows).map key).Nodup := by
  induction rows with
  | nil => simp [putRow]
  | cons y rest ih =>
      simp only [List.map_cons, List.nodup_cons, List.mem_map, not_exists, not_and] at h
      by_cases hy : key y = key r
      · simp only [putRow, if_pos hy, List.map_cons, List.nodup_cons, List.mem_map,
          not_exists, not_and]
        exact ⟨fun x hx => hy ▸ h.1 x hx, h.2⟩
      · simp only [putRow, if_neg hy, List.map_cons, List.nodup_cons, List.mem_map,
          not_exists, not_and]
        refine ⟨fun x hx => ?_, ih h.2⟩
        rcases mem_putRow hx with rfl | hx
        · exact fun he => hy he.symm
        · exact h.1 x hx

/-- Rows with pairwise distinct keys; the primary key is part of the table. -/
structure Table (key : Row → Key) where
  rows : List Row
  nodup : (rows.map key).Nodup

namespace Table

variable {key : Row → Key}

omit [DecidableEq Key] in
theorem ext {t u : Table key} (h : t.rows = u.rows) : t = u := by
  cases t
  cases u
  subst h
  rfl

/-- The table without rows. -/
def empty : Table key := ⟨[], List.nodup_nil⟩

/-- The row stored under a key. -/
@[grind =] def find (t : Table key) (k : Key) : Option Row :=
  t.rows.find? fun r => key r = k

/-- Write one row version. -/
@[grind =] def put (t : Table key) (r : Row) : Table key :=
  ⟨putRow key r t.rows, nodup_putRow key r t.nodup⟩

theorem find_some {t : Table key} {k : Key} {r : Row} (h : t.find k = some r) :
    r ∈ t.rows ∧ key r = k :=
  ⟨List.mem_of_find?_eq_some h, by simpa using List.find?_some h⟩

theorem find_eq_none {t : Table key} {k : Key} :
    t.find k = none ↔ ∀ r ∈ t.rows, key r ≠ k := by
  simp [find, List.find?_eq_none]

/-- A stored row is the one found under its own key. -/
theorem find_of_mem {t : Table key} {r : Row} (h : r ∈ t.rows) :
    t.find (key r) = some r := by
  obtain ⟨rows, hnodup⟩ := t
  simp only [find]
  induction rows with
  | nil => cases h
  | cons y rest ih =>
      rw [List.map_cons, List.nodup_cons] at hnodup
      rcases List.mem_cons.mp h with rfl | h
      · simp
      · have hne : key y ≠ key r := fun he =>
          hnodup.1 (he ▸ List.mem_map_of_mem h)
        rw [List.find?_cons_of_neg (by simpa using hne)]
        exact ih hnodup.2 h

/-- Of more keys than there are rows, one is free. -/
theorem exists_find_eq_none (t : Table key) {ks : List Key} (hnodup : ks.Nodup)
    (h : t.rows.length < ks.length) : ∃ k ∈ ks, t.find k = none := by
  by_contra hall
  have hsub : ks ⊆ t.rows.map key := by
    intro k hk
    obtain ⟨r, hr⟩ := Option.ne_none_iff_exists'.mp fun hnone => hall ⟨k, hk, hnone⟩
    obtain ⟨hmem, rfl⟩ := find_some hr
    exact List.mem_map_of_mem hmem
  have hlength := (List.subperm_of_subset hnodup hsub).length_le
  rw [List.length_map] at hlength
  omega

/-- The first free one among the keys `f 0`, `f 1`, ... is found at most one key past the
number of rows. -/
theorem find_first_free (t : Table key) (f : Nat → Key)
    (hf : ∀ n ≤ t.rows.length, ∀ m ≤ t.rows.length, f n = f m → n = m) :
    t.find (f (((List.range (t.rows.length + 1)).find? fun n =>
      (t.find (f n)).isNone).getD 0)) = none := by
  have hnodup : ((List.range (t.rows.length + 1)).map f).Nodup := by
    refine List.Nodup.map_on (fun n hn m hm hsame => ?_) List.nodup_range
    rw [List.mem_range, Nat.lt_succ_iff] at hn hm
    exact hf n hn m hm hsame
  obtain ⟨_, hkey, hfree⟩ := t.exists_find_eq_none hnodup (by simp)
  obtain ⟨n, hn, rfl⟩ := List.mem_map.mp hkey
  cases hsome : (List.range (t.rows.length + 1)).find? fun n => (t.find (f n)).isNone with
  | none =>
      have hnot := List.find?_eq_none.mp hsome n hn
      simp [hfree] at hnot
  | some m =>
      have hfound := List.find?_some hsome
      simpa using hfound

/-- A key that is stored is the key of one row. -/
theorem filter_key {t : Table key} {k : Key} {r : Row} (h : t.find k = some r) :
    (t.rows.filter fun x => key x = k) = [r] := by
  obtain ⟨rows, hnodup⟩ := t
  simp only [find] at h
  induction rows with
  | nil => cases h
  | cons y rest ih =>
      rw [List.map_cons, List.nodup_cons] at hnodup
      by_cases hy : key y = k
      · rw [List.find?_cons_of_pos (by simpa using hy)] at h
        obtain rfl := Option.some.inj h
        rw [List.filter_cons_of_pos (by simpa using hy), List.cons_inj_right,
          List.filter_eq_nil_iff]
        intro x hx
        have hne : key x ≠ k := fun he => hnodup.1 (hy.trans he.symm ▸ List.mem_map_of_mem hx)
        simpa using hne
      · rw [List.find?_cons_of_neg (by simpa using hy)] at h
        rw [List.filter_cons_of_neg (by simpa using hy)]
        exact ih hnodup.2 h

/-- The rows under a key: one or none. -/
theorem filter_key_eq (t : Table key) (k : Key) :
    (t.rows.filter fun x => key x = k) = (t.find k).toList := by
  cases h : t.find k with
  | some r => exact filter_key h
  | none =>
      rw [List.filter_eq_nil_iff.mpr]
      · rfl
      · simpa using find_eq_none.mp h

theorem mem_rows_iff {t : Table key} {r : Row} :
    r ∈ t.rows ↔ t.find (key r) = some r :=
  ⟨find_of_mem, fun h => (find_some h).1⟩

theorem find_put (t : Table key) (r : Row) (k : Key) :
    (t.put r).find k = if key r = k then some r else t.find k := by
  obtain ⟨rows, hnodup⟩ := t
  simp only [find, put]
  clear hnodup
  induction rows with
  | nil => by_cases h : key r = k <;> simp [putRow, h]
  | cons y rest ih =>
      by_cases hy : key y = key r
      · by_cases h : key r = k <;> simp [putRow, hy, h]
      · rw [putRow, if_neg hy, List.find?_cons, List.find?_cons, ih]
        by_cases h : key r = k
        · have hyk : key y ≠ k := fun he => hy (he.trans h.symm)
          simp [h, hyk]
        · simp [h]

@[simp] theorem find_put_self (t : Table key) (r : Row) :
    (t.put r).find (key r) = some r := by
  rw [find_put, if_pos rfl]

theorem find_put_of_ne (t : Table key) {r : Row} {k : Key} (h : key r ≠ k) :
    (t.put r).find k = t.find k := by
  rw [find_put, if_neg h]

theorem mem_put {t : Table key} {r x : Row} (h : x ∈ (t.put r).rows) :
    x = r ∨ x ∈ t.rows :=
  mem_putRow h

theorem mem_put_self (t : Table key) (r : Row) : r ∈ (t.put r).rows :=
  (find_some (find_put_self t r)).1

theorem mem_put_iff {t : Table key} {r x : Row} :
    x ∈ (t.put r).rows ↔ x = r ∨ x ∈ t.rows ∧ key x ≠ key r := by
  rw [mem_rows_iff, find_put, mem_rows_iff]
  by_cases h : key r = key x
  · rw [if_pos h, Option.some.injEq]
    constructor
    · intro heq
      exact Or.inl heq.symm
    · rintro (rfl | ⟨-, hne⟩)
      · rfl
      · exact absurd h.symm hne
  · rw [if_neg h]
    constructor
    · intro hx
      exact Or.inr ⟨hx, fun heq => h heq.symm⟩
    · rintro (rfl | ⟨hx, -⟩)
      · exact absurd rfl h
      · exact hx

/-- A row under a new key is appended. -/
theorem rows_put_of_find_eq_none {t : Table key} {r : Row}
    (h : t.find (key r) = none) : (t.put r).rows = t.rows ++ [r] :=
  putRow_of_forall_ne (find_eq_none.mp h)

/-- A new version of a row takes the place of the old one. -/
theorem rows_put_of_find {t : Table key} {r old : Row} (h : t.find (key r) = some old) :
    (t.put r).rows = t.rows.map fun x => if key x = key r then r else x := by
  obtain ⟨rows, hnodup⟩ := t
  simp only [find] at h
  simp only [put]
  induction rows with
  | nil => cases h
  | cons y rest ih =>
      rw [List.map_cons, List.nodup_cons] at hnodup
      by_cases hy : key y = key r
      · have hrest : ∀ x ∈ rest, (if key x = key r then r else x) = x := by
          intro x hx
          have hne : key x ≠ key r := fun he => hnodup.1 (hy.trans he.symm ▸ List.mem_map_of_mem hx)
          exact if_neg hne
        rw [putRow, if_pos hy, List.map_cons, if_pos hy, List.map_congr_left hrest, List.map_id']
      · rw [List.find?_cons_of_neg (by simpa using hy)] at h
        rw [putRow, if_neg hy, List.map_cons, if_neg hy, ih hnodup.2 h]

/-- The table without the row stored under a key. -/
def remove (t : Table key) (k : Key) : Table key :=
  ⟨t.rows.filter fun r => key r ≠ k, t.nodup.sublist (List.filter_sublist.map key)⟩

theorem find_remove_self (t : Table key) (k : Key) : (t.remove k).find k = none := by
  rw [find_eq_none]
  intro r hr
  simpa using (List.mem_filter.mp hr).2

theorem find_remove_of_ne (t : Table key) {k k' : Key} (h : k' ≠ k) :
    (t.remove k).find k' = t.find k' := by
  simp only [find, remove, List.find?_filter]
  congr 1
  funext r
  by_cases hr : key r = k'
  · simp [hr, h]
  · simp [hr]

/-- Every row of the first table is still in the second, changed by `r` at most. -/
def Grows (r : Row → Row → Prop) (t t' : Table key) : Prop :=
  ∀ k row, t.find k = some row → ∃ row', t'.find k = some row' ∧ r row row'

theorem Grows.refl {r : Row → Row → Prop} (hr : ∀ row, r row row) (t : Table key) :
    t.Grows r t :=
  fun _ row h => ⟨row, h, hr row⟩

theorem Grows.trans {r : Row → Row → Prop} {t t' t'' : Table key}
    (hr : ∀ a b c, r a b → r b c → r a c) (h : t.Grows r t') (h' : t'.Grows r t'') :
    t.Grows r t'' := by
  intro k row hk
  obtain ⟨row', hk', hrr'⟩ := h k row hk
  obtain ⟨row'', hk'', hrr''⟩ := h' k row' hk'
  exact ⟨row'', hk'', hr _ _ _ hrr' hrr''⟩

/-- Writing a new version of a row, or a row that is new. -/
theorem Grows.put {r : Row → Row → Prop} (hr : ∀ row, r row row) {t : Table key} {row : Row}
    (h : ∀ old, t.find (key row) = some old → r old row) : t.Grows r (t.put row) := by
  intro k old hk
  by_cases hkey : key row = k
  · subst hkey
    exact ⟨row, find_put_self t row, h old hk⟩
  · exact ⟨old, by rw [find_put_of_ne t hkey, hk], hr old⟩

/-- A row under a new key. -/
theorem Grows.put_absent {r : Row → Row → Prop} (hr : ∀ row, r row row) {t : Table key}
    {row : Row} (h : t.find (key row) = none) : t.Grows r (t.put row) :=
  .put hr fun old hold => by rw [h] at hold; cases hold

/-- Of two versions of a row only the second is kept. -/
theorem put_put {t : Table key} {a b : Row} (h : key a = key b) : (t.put a).put b = t.put b := by
  apply ext
  obtain ⟨rows, hnodup⟩ := t
  simp only [Table.put]
  clear hnodup
  induction rows with
  | nil => simp [putRow, h]
  | cons y rest ih =>
      by_cases hy : key y = key b
      · simp [putRow, hy, h]
      · simp [putRow, hy, h, ih]

end Table

end Transactions
