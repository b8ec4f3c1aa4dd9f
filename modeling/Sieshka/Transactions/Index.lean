import Sieshka.Transactions.Queries

/-!
# Unique indexes

A unique index lets at most one row take a value. It may leave rows out, as a
partial index or one on a nullable column does.

## Implementation notes

The entries of an index are rows of their own: a statement locks the entries of
the values it releases and takes, so it waits for a session that has one of them
under way and then finds the value taken or free. A refused statement aborts the
transaction with an exception of its own.
-/

namespace Transactions

variable {C D W L M E R : Type} [RowStore D W L]

/-- An entry of a unique index: a value, and the key of the row that takes it. -/
structure Entry (I Key : Type) where
  value : I
  owner : Option Key
deriving DecidableEq

/-- A unique index of the table `T`: the value a row takes, and the entries. -/
structure UniqueIndex {Row Key : Type} [DecidableEq Key] {key : Row → Key} (T : Schema D key)
    (I : Type) [DecidableEq I] where
  entries : Schema D (Entry.value : Entry I Key → I)
  value : Row → Option I
  entries_put : ∀ d r, entries.table (RowStore.put d (T.write r)) = entries.table d
  table_put : ∀ d e, T.table (RowStore.put d (entries.write e)) = T.table d

namespace UniqueIndex

variable {Row Key I : Type} [DecidableEq Key] [DecidableEq I] {key : Row → Key}
variable {T : Schema D key} (X : UniqueIndex T I)

/-- The row that takes a value. -/
def owner (d : D) (i : I) : Option Key := ((X.entries.table d).find i).bind Entry.owner

/-- The entries are those of the rows. -/
def Faithful (d : D) : Prop :=
  ∀ i k, X.owner d i = some k ↔ ∃ r, (T.table d).find k = some r ∧ X.value r = some i

/-- Another row takes the value of `r`. -/
def clash (d : D) (r : Row) : Bool :=
  (X.value r).any fun i => (X.owner d i).any fun k => k ≠ key r

/-- The writes that put `r` in the place of `old`. -/
def writes (old : Option Row) (r : Row) : List W :=
  ((old.bind X.value).toList.map fun i => X.entries.write ⟨i, none⟩) ++
    (((X.value r).toList.map fun i => X.entries.write ⟨i, some (key r)⟩) ++ [T.write r])

/-- The entry of the value `r` takes. -/
def locks (r : Row) : List L := (X.value r).toList.map X.entries.lock

section Faithful

variable {X} {d : D} {r : Row} {old : Option Row}

theorem clash_eq_false :
    X.clash d r = false ↔ ∀ i, X.value r = some i → ∀ k, X.owner d i = some k → k = key r := by
  cases hv : X.value r with
  | none => simp [clash, hv]
  | some i => cases ho : X.owner d i <;> simp [clash, hv, ho]

/-- Two rows that take one value are the same row. -/
theorem Faithful.eq_of_value (h : X.Faithful d) {p q : Row} {i : I} (hp : p ∈ (T.table d).rows)
    (hq : q ∈ (T.table d).rows) (hpi : X.value p = some i) (hqi : X.value q = some i) :
    key p = key q := by
  have hpo : X.owner d i = some (key p) := (h i _).mpr ⟨p, Table.find_of_mem hp, hpi⟩
  have hqo : X.owner d i = some (key q) := (h i _).mpr ⟨q, Table.find_of_mem hq, hqi⟩
  exact Option.some.inj (hpo.symm.trans hqo)

/-- A row clashes with the stored row that takes its value. -/
theorem Faithful.clash_eq_false_iff (h : X.Faithful d) :
    X.clash d r = false ↔
      ∀ q ∈ (T.table d).rows, ∀ i, X.value r = some i → X.value q = some i → key q = key r := by
  rw [clash_eq_false]
  constructor
  · intro hc q hq i hr hqi
    exact hc i hr (key q) ((h i _).mpr ⟨q, Table.find_of_mem hq, hqi⟩)
  · intro hc i hr k hk
    obtain ⟨q, hq, hqi⟩ := (h i k).mp hk
    obtain ⟨hmem, rfl⟩ := Table.find_some hq
    exact hc q hmem i hr hqi

theorem owner_put_entry (e : Entry I Key) (i : I) :
    X.owner (RowStore.put d (X.entries.write e)) i =
      if e.value = i then e.owner else X.owner d i := by
  rw [owner, X.entries.table_put, Table.find_put]
  split_ifs with h
  · rfl
  · rfl

theorem owner_put_row (i : I) : X.owner (RowStore.put d (T.write r)) i = X.owner d i := by
  rw [owner, X.entries_put]
  rfl

/-- A row version and its entries leave the rest of the index alone. -/
theorem owner_writes (i : I) :
    X.owner ((X.writes old r).foldl RowStore.put d) i =
      if X.value r = some i then some (key r)
      else if old.bind X.value = some i then none else X.owner d i := by
  simp only [writes, List.foldl_append, List.foldl_cons, List.foldl_nil, owner_put_row]
  cases hv : X.value r with
  | none =>
      cases ho : old.bind X.value with
      | none => simp
      | some j => simp [owner_put_entry]
  | some j =>
      cases ho : old.bind X.value with
      | none => simp [owner_put_entry]
      | some k => simp [owner_put_entry]

theorem table_writes :
    T.table ((X.writes old r).foldl RowStore.put d) = (T.table d).put r := by
  have hentries : ∀ (es : List (Entry I Key)) (d : D),
      T.table ((es.map X.entries.write).foldl RowStore.put d) = T.table d := by
    intro es
    induction es with
    | nil => exact fun _ => rfl
    | cons e rest ih =>
        intro d
        rw [List.map_cons, List.foldl_cons, ih, X.table_put]
  simp only [writes, List.foldl_append, List.foldl_cons, List.foldl_nil, T.table_put]
  rw [← Function.comp_def X.entries.write, ← Function.comp_def X.entries.write, ← List.map_map,
    ← List.map_map, hentries, hentries]

/-- A new version of a row that takes no value of another row keeps the index. -/
theorem Faithful.put (h : X.Faithful d) (hold : (T.table d).find (key r) = old)
    (hc : X.clash d r = false) : X.Faithful ((X.writes old r).foldl RowStore.put d) := by
  intro i k
  rw [owner_writes, table_writes]
  by_cases hk : key r = k
  · subst hk
    simp only [Table.find_put_self, Option.some.injEq, exists_eq_left']
    split_ifs with hv ho
    · simp [hv]
    · simp [hv]
    · -- the old version did not take `i`, so this row is not its owner
      simp only [hv, iff_false]
      intro howner
      obtain ⟨q, hq, hqi⟩ := (h i _).mp howner
      rw [hold] at hq
      exact ho (by rw [hq]; exact hqi)
  · rw [Table.find_put_of_ne _ hk]
    split_ifs with hv ho
    · simp only [Option.some.injEq, hk, false_iff]
      intro hq
      exact hk (clash_eq_false.mp hc i hv k ((h i k).mpr hq)).symm
    · simp only [false_iff]
      intro hq
      obtain ⟨q, hq', hqi⟩ := Option.bind_eq_some_iff.mp ho
      have howner : X.owner d i = some (key r) := (h i _).mpr ⟨q, hold.trans hq', hqi⟩
      rw [(h i k).mpr hq] at howner
      exact hk (Option.some.inj howner).symm
    · exact h i k

end Faithful

/-! ## Statements -/

open Prog Contract

/-- `INSERT`: a row whose key or value is taken is refused with `e`. -/
def insert (e : E) [DatabaseError E] (r : Row) : Prog D W L M E Unit := do
  let taken ← stmt (fun _ => X.locks r)
    (fun d => if ((T.table d).find (key r)).isSome || X.clash d r then [] else X.writes none r)
    (fun _ => true) (fun d => ret (((T.table d).find (key r)).isSome || X.clash d r))
    (raise DatabaseError.databaseError)
  if taken then abort e else return ()

/-- `UPDATE ... WHERE key = k RETURNING *`: a row version whose value is taken is
refused with `e`. -/
def rewrite (e : E) [DatabaseError E] (k : Key) (f : Row → Row) : Prog D W L M E (Option Row) := do
  let out ← stmt (fun d => ((T.table d).find k).toList.flatMap fun r => X.locks (f r))
    (fun d => ((T.table d).find k).toList.flatMap fun r =>
      if X.clash d (f r) then [] else X.writes (some r) (f r))
    (fun _ => true) (fun d => ret (((T.table d).find k).map fun r => (f r, X.clash d (f r))))
    (raise DatabaseError.databaseError)
  match out with
  | none => return none
  | some (r, taken) => if taken then abort e else return some r

variable [DatabaseError E] (e : E)

section Serial

variable {E₀ : Engine D W} {s s' : Quiet D M} {r : Row}

@[simp] theorem returns_insert {u : Unit} :
    (X.insert e r : Prog D W L M E Unit).Returns E₀ s u s' ↔
      s.failed = false ∧ (T.table s.view).find (key r) = none ∧ X.clash s.view r = false ∧
        (X.writes none r).all E₀.fits = true ∧ s' = s.wrote (X.writes none r) := by
  rw [insert, bind_eq, returns_andThen]
  simp only [returns_stmt]
  cases hf : (T.table s.view).find (key r) with
  | some q => simp
  | none => cases hc : X.clash s.view r <;> simp [and_assoc]

@[simp] theorem returns_rewrite {k : Key} {f : Row → Row} {o : Option Row} :
    (X.rewrite e k f : Prog D W L M E _).Returns E₀ s o s' ↔
      s.failed = false ∧
        match (T.table s.view).find k with
        | none => o = none ∧ s' = s
        | some r => X.clash s.view (f r) = false ∧ (X.writes (some r) (f r)).all E₀.fits = true ∧
            o = some (f r) ∧ s' = s.wrote (X.writes (some r) (f r)) := by
  rw [rewrite, bind_eq, returns_andThen]
  simp only [returns_stmt]
  cases hf : (T.table s.view).find k with
  | none => simp
  | some r => cases hc : X.clash s.view (f r) <;> simp [hc, and_assoc]

end Serial

section Rules

variable {K : Contract C D W L M E R} {c : C} {x : CallState D W L M} {r : Row}

omit [DatabaseError E] in
theorem wp_abort {α : Type} {Q : Except E α → CallState D W L M → Prop} (hx : x.txn.failed = false)
    (he : ∀ y, K.Follows c x y → Q (.error e) y) : K.wp c (abort e) Q x := by
  intro s hs _
  constructor
  · rw [if_neg (by simp [hx])]
    intro h
    cases h
  · intro _
    exact he _ ⟨rfl, hs.since⟩

/-- What the writes of `r` depend on stays as it was when they were made. -/
theorem pins_writes {old : Option Row} {t : Txn W L} {y : CallState D W L M}
    (hrow : (T.table (t.view y.db)).find (key r) = old) (hc : X.clash (t.view y.db) r = false)
    (hheld : ∀ w ∈ X.writes old r, RowStore.row D w ∈ y.txn.held) :
    y.Pins fun d => (T.table (t.view d)).find (key r) = old ∧ X.clash (t.view d) r = false := by
  intro d hd
  have hlock : T.lock (key r) ∈ y.txn.held := by
    rw [← T.row_write]
    exact hheld _ (by simp [writes])
  constructor
  · rw [← hrow]
    exact (T.find_view t (hd _ hlock)).symm
  · rw [clash_eq_false] at hc ⊢
    intro i hi k hk
    have hentry : X.entries.lock i ∈ y.txn.held := by
      have hrow := X.entries.row_write ⟨i, some (key r)⟩
      rw [← hrow]
      exact hheld _ (by simp [writes, hi])
    apply hc i hi
    rw [← hk, owner, owner, X.entries.find_view t (hd _ hentry)]

/-- What a session that has written only `r` and its entries is about to commit. -/
theorem lands {old : Option Row} {t : Txn W L} {y : CallState D W L M} (ht : t.writes = [])
    (hw : y.txn.writes = t.writes ++ X.writes old r)
    (hpin : y.Pins fun d => (T.table (t.view d)).find (key r) = old ∧
      X.clash (t.view d) r = false) :
    y.Pins fun d => (T.table d).find (key r) = old ∧ X.clash d r = false ∧
      T.table (y.txn.view d) = (T.table d).put r ∧
      (X.Faithful d → X.Faithful (y.txn.view d)) := by
  refine hpin.mono ?_
  intro d hd
  have hbefore : t.view d = d := by
    rw [Txn.view, ht]
    rfl
  have hafter : y.txn.view d = (X.writes old r).foldl RowStore.put d := by
    rw [Txn.view_of_writes hw, hbefore]
  rw [hbefore] at hd
  rw [hafter, table_writes]
  exact ⟨hd.1, hd.2, rfl, fun h => h.put hd.1 hd.2⟩

/-- A row is inserted under a key and a value that stay free. -/
theorem wp_insert {Q : Except E Unit → CallState D W L M → Prop} (hx : x.txn.failed = false)
    (hok : ∀ y, K.Extends c x y → y.txn.failed = false →
      y.txn.writes = x.txn.writes ++ X.writes none r →
      (y.Pins fun d => (T.table (x.txn.view d)).find (key r) = none ∧
        X.clash (x.txn.view d) r = false) → Q (.ok ()) y)
    (he : ∀ y, K.Follows c x y → Q (.error e) y)
    (hd : ∀ y, K.Struck c x y → Q (.error DatabaseError.databaseError) y) :
    K.wp c (X.insert e r) Q x := by
  rw [insert, wp_bind]
  apply wp_stmt hx
  · intro s hs _ _
    rw [wp_ret]
    dsimp only
    cases htaken : ((T.table (x.txn.view s.1)).find (key r)).isSome ||
        X.clash (x.txn.view s.1) r with
    | true =>
        rw [if_pos rfl]
        apply wp_abort e (by simpa using hx)
        intro y hy
        exact he y ((Follows.now hs).trans ⟨hy.past, hy.since⟩)
    | false =>
        simp only [Bool.or_eq_false_iff, Option.isSome_eq_false_iff, Option.isNone_iff_eq_none]
          at htaken
        apply hok
        · exact (Extends.now hs).trans ((Extends.locked _).trans (.wrote _))
        · exact hx
        · simp
        · apply X.pins_writes htaken.1 htaken.2
          intro w hw
          simp only [Bool.false_eq_true, if_false, CallState.wrote_held, List.mem_append]
          exact Or.inr (List.mem_map_of_mem hw)
  · exact hd

/-- A row version is written in the place of a row that stays as it is. -/
theorem wp_rewrite {k : Key} {f : Row → Row} {Q : Except E (Option Row) → CallState D W L M → Prop}
    (hx : x.txn.failed = false) (hkey : ∀ r, key (f r) = key r)
    (hnone : ∀ s, K.Later c x s → K.assume c (x.now s) →
      (T.table (x.txn.view s.1)).find k = none → Q (.ok none) (x.now s))
    (hok : ∀ y r, K.Extends c x y → y.txn.failed = false →
      y.txn.writes = x.txn.writes ++ X.writes (some r) (f r) →
      (y.Pins fun d => (T.table (x.txn.view d)).find k = some r ∧
        X.clash (x.txn.view d) (f r) = false) → Q (.ok (some (f r))) y)
    (he : ∀ y, K.Follows c x y → Q (.error e) y)
    (hd : ∀ y, K.Struck c x y → Q (.error DatabaseError.databaseError) y) :
    K.wp c (X.rewrite e k f) Q x := by
  rw [rewrite, wp_bind]
  apply wp_stmt hx
  · intro s hs ha _
    cases hr : (T.table (x.txn.view s.1)).find k with
    | none =>
        simp only [wp_ret, Option.map_none, Option.toList_none, List.flatMap_nil,
          CallState.locked_nil, CallState.wrote_nil, Prog.pure_eq]
        exact hnone s hs ha hr
    | some r =>
        obtain rfl : key r = k := (Table.find_some hr).2
        simp only [wp_ret, Option.map_some, Option.toList_some, List.flatMap_cons,
          List.flatMap_nil, List.append_nil]
        cases hc : X.clash (x.txn.view s.1) (f r) with
        | true =>
            rw [if_pos rfl]
            apply wp_abort e (by simpa using hx)
            intro y hy
            exact he y ((Follows.now hs).trans ⟨hy.past, hy.since⟩)
        | false =>
            apply hok
            · exact (Extends.now hs).trans ((Extends.locked _).trans (.wrote _))
            · exact hx
            · simp
            · rw [← hkey r]
              apply X.pins_writes (by rw [hkey]; exact hr) hc
              intro w hw
              simp only [Bool.false_eq_true, if_false, CallState.wrote_held, List.mem_append]
              exact Or.inr (List.mem_map_of_mem hw)
  · exact hd

end Rules

end UniqueIndex

end Transactions
