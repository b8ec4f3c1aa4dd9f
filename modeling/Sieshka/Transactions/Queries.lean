import Sieshka.Transactions.Rules
import Sieshka.Transactions.Serial

/-!
# Queries by a condition

`SELECT ... WHERE p`, with and without row locks, and the statement with which
the database aborts a transaction.

## Implementation notes

A locking query picks its candidates in the snapshot of the statement. It then
locks them, waiting where another session holds one, and keeps those that still
meet the condition, so a row that came to meet it meanwhile is not found.
-/

namespace Transactions

variable {C D W L M E R α : Type} [RowStore D W L]

namespace Prog

/-- The database aborts the transaction with the exception `e`. -/
def abort (e : E) : Prog D W L M E α :=
  stmt (fun _ => []) (fun _ => []) (fun _ => false) (fun _ => raise e) (raise e)

@[simp] theorem returns_abort {E₀ : Engine D W} {s s' : Transactions.Quiet D M} {a : α} (e : E) :
    (abort e : Prog D W L M E α).Returns E₀ s a s' ↔ False := by
  simp [abort, returns_stmt]

end Prog

/-! ## Joins -/

section Joins

variable {α β : Type}

/-- `LEFT JOIN`: every row of the left with its matches, or once without one. -/
def leftJoin (on : α → β → Bool) (left : List α) (right : List β) : List (α × Option β) :=
  left.flatMap fun a => match right.filter (on a) with
    | [] => [(a, none)]
    | matched => matched.map fun b => (a, some b)

/-- A join in which a row has at most one match. -/
theorem leftJoin_eq_map {on : α → β → Bool} {left : List α} {right : List β}
    {found : α → Option β} (h : ∀ a ∈ left, right.filter (on a) = (found a).toList) :
    leftJoin on left right = left.map fun a => (a, found a) := by
  induction left with
  | nil => rfl
  | cons a rest ih =>
      have hrest := ih fun b hb => h b (List.mem_cons_of_mem a hb)
      rw [leftJoin] at hrest ⊢
      rw [List.flatMap_cons, hrest, h a List.mem_cons_self, List.map_cons]
      cases found a with
      | none => rfl
      | some b => rfl

end Joins

/-! ## Rows of a table -/

namespace Table

variable {Row Key : Type} [DecidableEq Key] {key : Row → Key}

/-- The rows that meet a condition. -/
def filter (t : Table key) (p : Row → Bool) : List Row := t.rows.filter p

omit [DecidableEq Key] in
theorem mem_filter {t : Table key} {p : Row → Bool} {r : Row} :
    r ∈ t.filter p ↔ r ∈ t.rows ∧ p r = true := by
  simp [filter]

section Distinct

variable {β : Type} (f : Row → β)

/-- No two rows agree on `f`. -/
def Distinct (t : Table key) : Prop :=
  ∀ p ∈ t.rows, ∀ q ∈ t.rows, f p = f q → key p = key q

instance [DecidableEq β] (t : Table key) : Decidable (t.Distinct f) :=
  inferInstanceAs (Decidable (∀ p ∈ t.rows, ∀ q ∈ t.rows, f p = f q → key p = key q))

variable {f} {t : Table key} {r : Row}

/-- A row version that takes the value of no other row. -/
theorem Distinct.put (h : t.Distinct f) (hr : ∀ q ∈ t.rows, f q = f r → key q = key r) :
    (t.put r).Distinct f := by
  intro p hp q hq heq
  by_cases hpr : p = r
  · by_cases hqr : q = r
    · rw [hpr, hqr]
    · rw [hpr] at heq ⊢
      exact (hr q ((mem_put hq).resolve_left hqr) heq.symm).symm
  · have hp := (mem_put hp).resolve_left hpr
    by_cases hqr : q = r
    · rw [hqr] at heq ⊢
      exact hr p hp heq
    · exact h p hp q ((mem_put hq).resolve_left hqr) heq

/-- A row version that takes the value of another row. -/
theorem not_distinct_put {q : Row} (hq : q ∈ t.rows) (hkey : key q ≠ key r) (heq : f q = f r) :
    ¬ (t.put r).Distinct f := by
  intro h
  have hq' : q ∈ (t.put r).rows := by
    rw [mem_rows_iff, find_put_of_ne t (Ne.symm hkey)]
    exact find_of_mem hq
  exact hkey (h q hq' r (mem_put_self t r) heq)

/-- Where no two rows agree on `f` a row is the one its value finds. -/
theorem Distinct.filter_eq [DecidableEq β] {p : Row} (h : t.Distinct f) (hp : p ∈ t.rows) :
    t.filter (fun q => f q = f p) = [p] := by
  have hall : ∀ q ∈ t.filter (fun q => f q = f p), q = p := by
    intro q hq
    obtain ⟨hq, heq⟩ := mem_filter.mp hq
    have hkey : key q = key p := h q hq p hp (by simpa using heq)
    have hfind := find_of_mem hq
    rw [hkey, find_of_mem hp] at hfind
    exact (Option.some.inj hfind).symm
  have hmem : p ∈ t.filter (fun q => f q = f p) := mem_filter.mpr ⟨hp, by simp⟩
  have hnodup : (t.filter (fun q => f q = f p)).Nodup := (List.Nodup.of_map _ t.nodup).filter _
  generalize t.filter (fun q => f q = f p) = rows at hall hmem hnodup
  match rows with
  | [] => cases hmem
  | [q] => rw [hall q List.mem_cons_self]
  | q :: r :: rest =>
      have hq := hall q List.mem_cons_self
      have hr := hall r (List.mem_cons_of_mem q List.mem_cons_self)
      simp [hq, hr] at hnodup

end Distinct

/-- The rows stored under keys, as far as they meet a condition. -/
def among (t : Table key) (ks : List Key) (p : Row → Bool) : List Row :=
  (ks.filterMap t.find).filter p

theorem mem_among {t : Table key} {ks : List Key} {p : Row → Bool} {r : Row}
    (h : r ∈ t.among ks p) : key r ∈ ks ∧ t.find (key r) = some r ∧ p r = true := by
  simp only [among, List.mem_filter, List.mem_filterMap] at h
  obtain ⟨⟨k, hk, hfind⟩, hp⟩ := h
  obtain ⟨hr, rfl⟩ := find_some hfind
  exact ⟨hk, hfind, hp⟩

/-- The candidates of a condition are the rows that meet it. -/
theorem among_filter (t : Table key) (p : Row → Bool) :
    t.among ((t.filter p).map key) p = t.filter p := by
  have hall : ∀ rs : List Row, (∀ r ∈ rs, r ∈ t.rows) →
      (rs.map key).filterMap t.find = rs := by
    intro rs hrs
    induction rs with
    | nil => rfl
    | cons r rest ih =>
        rw [List.map_cons, List.filterMap_cons, find_of_mem (hrs r List.mem_cons_self),
          ih fun x hx => hrs x (List.mem_cons_of_mem r hx)]
  rw [among, hall _ fun r hr => (mem_filter.mp hr).1]
  simp [filter]

end Table

namespace Schema

open Prog Contract

variable [DatabaseError E] {Row Key : Type} [DecidableEq Key] {key : Row → Key}
variable (T : Schema D key)

/-- `SELECT ... WHERE p`. -/
def filter (p : Row → Bool) : Prog D W L M E (List Row) :=
  select fun d => (T.table d).filter p

/-- The locks of the candidates, and the candidates that still meet `p`. -/
def lockAmong (ks : List Key) (p : Row → Bool) : Prog D W L M E (List Row) :=
  stmt (fun _ => ks.map T.lock) (fun _ => []) (fun _ => true)
    (fun d => ret ((T.table d).among ks p)) (raise DatabaseError.databaseError)

/-- `SELECT ... WHERE p FOR UPDATE`. -/
def filterForUpdate (p : Row → Bool) : Prog D W L M E (List Row) := do
  let candidates ← T.filter p
  T.lockAmong (candidates.map key) p

/-- `UPDATE ... WHERE key = k`: a new row version that violates a constraint raises. -/
def rewrite (check : D → Row → Bool) (k : Key) (f : Row → Row) : Prog D W L M E Unit :=
  stmt (fun _ => []) (fun d => ((T.table d).find k).toList.map fun r => T.write (f r))
    (fun d => ((T.table d).find k).all fun r => check d (f r)) (fun _ => ret ())
    (raise DatabaseError.databaseError)

section Serial

variable {E₀ : Engine D W} {s s' : Quiet D M} {p : Row → Bool} {rs : List Row}

@[simp] theorem returns_filter :
    (T.filter p : Prog D W L M E _).Returns E₀ s rs s' ↔
      s.failed = false ∧ rs = (T.table s.view).filter p ∧ s' = s :=
  returns_select _

@[simp] theorem returns_filterForUpdate :
    (T.filterForUpdate p : Prog D W L M E _).Returns E₀ s rs s' ↔
      s.failed = false ∧ rs = (T.table s.view).filter p ∧ s' = s := by
  rw [filterForUpdate, bind_eq, returns_andThen]
  simp only [returns_filter, lockAmong, returns_stmt]
  constructor
  · rintro ⟨_, _, ⟨hf, rfl, rfl⟩, -, -, -, h⟩
    simpa [hf, Table.among_filter] using h
  · rintro ⟨hf, rfl, rfl⟩
    exact ⟨_, _, ⟨hf, rfl, rfl⟩, hf, trivial, rfl, by simp [Table.among_filter]⟩

/-- A row version that violates no constraint is written. -/
@[simp] theorem returns_rewrite {check : D → Row → Bool} {k : Key} {f : Row → Row} {u : Unit} :
    (T.rewrite check k f : Prog D W L M E Unit).Returns E₀ s u s' ↔
      s.failed = false ∧
        match (T.table s.view).find k with
        | none => s' = s
        | some r => check s.view (f r) = true ∧ E₀.fits (T.write (f r)) = true ∧
            s' = { s with view := RowStore.put s.view (T.write (f r)) } := by
  rw [rewrite, returns_stmt]
  cases h : (T.table s.view).find k with
  | none => simp [Quiet.wrote]
  | some r => simp [Quiet.wrote]

end Serial

section Rules

variable {K : Contract C D W L M E R} {c : C} {x : CallState D W L M} {p : Row → Bool}

theorem wp_filter {Q : Except E (List Row) → CallState D W L M → Prop} (hx : x.txn.failed = false)
    (h : ∀ s, K.Later c x s → K.assume c (x.now s) →
      Q (.ok ((T.table (x.txn.view s.1)).filter p)) (x.now s))
    (he : ∀ y, K.Struck c x y → Q (.error DatabaseError.databaseError) y) :
    K.wp c (T.filter p) Q x :=
  wp_select hx h he

/-- The rows a locking query returns meet its condition and are pinned. -/
theorem wp_filterForUpdate {Q : Except E (List Row) → CallState D W L M → Prop}
    (hx : x.txn.failed = false)
    (h : ∀ y rs, K.Extends c x y → y.txn.failed = false → y.txn.writes = x.txn.writes →
      (∀ r ∈ rs, p r = true ∧
        y.Pins fun d => (T.table (x.txn.view d)).find (key r) = some r) → Q (.ok rs) y)
    (he : ∀ y, K.Struck c x y → Q (.error DatabaseError.databaseError) y) :
    K.wp c (T.filterForUpdate p) Q x := by
  rw [filterForUpdate, wp_bind]
  apply T.wp_filter hx
  · intro s hs ha
    dsimp only
    generalize ((T.table (x.txn.view s.1)).filter p).map key = ks
    apply wp_stmt (x := x.now s) hx
    · intro s' hs' ha' _
      rw [wp_ret]
      simp only [CallState.wrote_nil]
      apply h
      · exact (Extends.now hs).trans ((Extends.now hs').trans (.locked _))
      · exact hx
      · rfl
      · intro r hr
        obtain ⟨hk, hfind, hp⟩ := Table.mem_among hr
        refine ⟨hp, fun d hd => ?_⟩
        rw [← hfind]
        exact (T.find_view x.txn (hd _ (by simpa using Or.inr ⟨key r, hk, rfl⟩))).symm
    · exact fun y hy => he y (.of_follows (.now hs) hy)
  · exact he

end Rules

end Schema

end Transactions
