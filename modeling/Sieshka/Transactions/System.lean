import Sieshka.Transactions.Program

/-!
# Interleaved runs at READ COMMITTED

Any number of calls run at once on one database and one shared memory. A
statement sees the committed rows and the writes of its own session, waits
while another session holds a row lock it needs, and keeps the locks it takes
until its session commits, rolls back or dies.

## Implementation notes

A statement that has to wait is a step that is not enabled, so waiting and
deadlock need no queue. The database may fail any statement or commit (`fault`)
and a call may die between two of its steps (`kill`, `restart`), which covers
the abort of a deadlock victim.
-/

namespace Transactions

variable (C D W L M E R : Type)

/-- The open transaction of a session: uncommitted writes and row locks. After
a statement has failed, only the end of the transaction is accepted. -/
structure Txn (W L : Type) where
  writes : List W := []
  held : List L := []
  failed : Bool := false

/-- One call in flight, with the databases before and after each of its commits. -/
structure Thread where
  call : C
  prog : Prog D W L M E R
  txn : Txn W L := {}
  commits : List (D × D) := []
  dead : Bool := false

/-- The committed database, the shared memory and every call so far. -/
structure Config where
  db : D
  mem : M
  threads : List (Thread C D W L M E R) := []

/-- What runs: the program of each call, what a restart leaves of the shared
memory, and the moves of the world outside. -/
structure System where
  body : C → Prog D W L M E R
  restart : M → M
  Move : Type
  move : Move → M → Option M

/-- The scheduler's choice of the next step. -/
inductive Action (C V : Type) : Type
  | call (c : C)
  | run (i n : Nat)
  | fault (i : Nat)
  | kill (i : Nat)
  | restart
  | world (v : V)

variable {C D W L M E R}

/-- The database a session sees: committed rows under its own writes. -/
def Txn.view [RowStore D W L] (t : Txn W L) (d : D) : D :=
  t.writes.foldl RowStore.put d

/-- The transaction after a statement took locks and wrote rows. -/
def Txn.extend [RowStore D W L] (t : Txn W L) (d : D) (locks : D → List L)
    (writes : D → List W) : Txn W L where
  writes := t.writes ++ writes (t.view d)
  held := t.held ++ (locks (t.view d) ++ (writes (t.view d)).map (RowStore.row D))

/-- A transaction the database has aborted. -/
def Txn.broken : Txn W L := { failed := true }

namespace Thread

/-- The call has returned or raised. -/
def finished (t : Thread C D W L M E R) : Bool :=
  match t.prog with
  | .ret _ => true
  | .raise _ => true
  | _ => false

/-- The call still has steps to take. -/
def inProgress (t : Thread C D W L M E R) : Bool := !t.dead && !t.finished

/-- What the call has returned or raised; nothing while it is in progress or when
it has died. -/
def result (t : Thread C D W L M E R) : Option (Except E R) :=
  match t.dead, t.prog with
  | false, .ret a => some (.ok a)
  | false, .raise e => some (.error e)
  | _, _ => none

variable [RowStore D W L] [DecidableEq L]

/-- One step of a call, given the row locks of all other sessions. -/
def step (others : List L) (t : Thread C D W L M E R) (d : D) (m : M) (n : Nat) :
    Option (Thread C D W L M E R × D × M) :=
  match t.prog with
  | .ret _ => none
  | .raise _ => none
  | .stmt locks writes check next error =>
      if t.txn.failed then some ({ t with prog := error }, d, m)
      else
        let v := t.txn.view d
        if (locks v ++ (writes v).map (RowStore.row D)).any (· ∈ others) then none
        else if check v then
          some ({ t with prog := next v, txn := t.txn.extend d locks writes }, d, m)
        else some ({ t with prog := error, txn := .broken }, d, m)
  | .commit next _ =>
      if t.txn.failed then some ({ t with prog := next, txn := {} }, d, m)
      else
        let v := t.txn.view d
        some ({ t with prog := next, txn := {}, commits := t.commits ++ [(d, v)] }, v, m)
  | .close next => some ({ t with prog := next, txn := {} }, d, m)
  | .memory update next => some ({ t with prog := next m }, d, update m)
  | .choose next => some ({ t with prog := next n }, d, m)

/-- The database fails the statement or commit the call is at. -/
def fault (t : Thread C D W L M E R) : Option (Thread C D W L M E R) :=
  match t.prog with
  | .stmt _ _ _ _ error => some { t with prog := error, txn := .broken }
  | .commit _ error => some { t with prog := error, txn := .broken }
  | _ => none

omit [DecidableEq L] in
/-- The call is at a statement that violates a constraint. -/
def refused (t : Thread C D W L M E R) (d : D) : Bool :=
  match t.prog with
  | .stmt _ _ check _ _ => !t.txn.failed && !check (t.txn.view d)
  | _ => false

omit [DecidableEq L] in
/-- The call is at a statement that only reads. -/
def reading (t : Thread C D W L M E R) (d : D) : Bool :=
  match t.prog with
  | .stmt _ writes _ _ _ => (writes (t.txn.view d)).isEmpty
  | _ => false

/-- The call is at the commit of what it has written. -/
def committing (t : Thread C D W L M E R) : Bool :=
  match t.prog with
  | .commit _ _ => !t.txn.failed && !t.txn.writes.isEmpty
  | _ => false

/-- The call dies: its session ends and it takes no further step. -/
def kill (t : Thread C D W L M E R) : Thread C D W L M E R :=
  { t with txn := {}, dead := true }

end Thread

namespace Config

/-- The row locks of every session but the `i`-th. -/
def heldBeside (c : Config C D W L M E R) (i : Nat) : List L :=
  (c.threads.eraseIdx i).flatMap fun t => t.txn.held

/-- Every commit so far, with the call that made it. -/
def commits (c : Config C D W L M E R) : List (C × D × D) :=
  c.threads.flatMap fun t => t.commits.map fun p => (t.call, p)

section Once

variable (q : D → D → Prop) [∀ d d', Decidable (q d d')] (P : D → Prop)

/-- At most one commit is of the kind `q`, and `P` has held since. -/
def Once (c : Config C D W L M E R) : Prop :=
  c.commits.countP (fun p => q p.2.1 p.2.2) ≤ 1 ∧
    (0 < c.commits.countP (fun p => q p.2.1 p.2.2) → P c.db)

variable {q P} {c c' : Config C D W L M E R}

/-- A commit keeps `P`, and makes it hold when it is of the kind `q`. -/
theorem Once.commit (h : c.Once q P) {k : C} (hc : c'.commits.Perm ((k, c.db, c'.db) :: c.commits))
    (hkeep : P c.db → P c'.db) (hnew : q c.db c'.db → ¬ P c.db ∧ P c'.db) : c'.Once q P := by
  unfold Once
  rw [hc.countP_eq]
  by_cases hq : q c.db c'.db
  · obtain ⟨hno, hyes⟩ := hnew hq
    have hzero := Nat.eq_zero_of_not_pos fun hpos => hno (h.2 hpos)
    rw [List.countP_cons_of_pos (by simpa using hq), hzero]
    exact ⟨Nat.le_refl _, fun _ => hyes⟩
  · rw [List.countP_cons_of_neg (by simpa using hq)]
    exact ⟨h.1, fun hpos => hkeep (h.2 hpos)⟩

/-- Two calls that both made a commit of a kind that has one member are one. -/
theorem Once.eq (h : c.Once q P) {i j : Nat} {t u : Thread C D W L M E R}
    (ht : c.threads[i]? = some t) (hu : c.threads[j]? = some u) {p p' : D × D}
    (hp : p ∈ t.commits) (hp' : p' ∈ u.commits) (hq : q p.1 p.2) (hq' : q p'.1 p'.2) : i = j := by
  have h₁ := h.1
  have hpos : ∀ (ts : List (Thread C D W L M E R)) (v : Thread C D W L M E R) (r : D × D),
      v ∈ ts → r ∈ v.commits → q r.1 r.2 →
      0 < (ts.flatMap fun t => t.commits.map fun p => (t.call, p)).countP
        fun p => q p.2.1 p.2.2 := by
    intro ts v r hv hr hqr
    exact List.countP_pos_iff.mpr
      ⟨(v.call, r), List.mem_flatMap.mpr ⟨v, hv, List.mem_map_of_mem hr⟩, by simpa using hqr⟩
  rw [commits] at h₁
  generalize c.threads = ts at h₁ ht hu
  induction ts generalizing i j with
  | nil => simp at ht
  | cons v rest ih =>
      rw [List.flatMap_cons, List.countP_append] at h₁
      have hv : ∀ r ∈ v.commits, q r.1 r.2 →
          0 < (v.commits.map fun p => (v.call, p)).countP fun p => q p.2.1 p.2.2 := by
        intro r hr hqr
        simpa using hpos [v] v r List.mem_cons_self hr hqr
      cases i with
      | zero =>
          obtain rfl := Option.some.inj ht
          cases j with
          | zero => rfl
          | succ j =>
              have hfirst := hv p hp hq
              have hlater := hpos rest u p' (List.mem_of_getElem? hu) hp' hq'
              omega
      | succ i =>
          cases j with
          | zero =>
              obtain rfl := Option.some.inj hu
              have hfirst := hv p' hp' hq'
              have hlater := hpos rest t p (List.mem_of_getElem? ht) hp hq
              omega
          | succ j => rw [ih (by omega) ht hu]

end Once

/-- No call has steps left to take. -/
def Quiescent (c : Config C D W L M E R) : Prop :=
  ∀ t ∈ c.threads, t.inProgress = false

instance (c : Config C D W L M E R) : Decidable c.Quiescent :=
  inferInstanceAs (Decidable (∀ t ∈ c.threads, t.inProgress = false))

/-- A database and a memory on which no call has begun. -/
def start (d : D) (m : M) : Config C D W L M E R := { db := d, mem := m }

end Config

namespace System

variable [RowStore D W L] [DecidableEq L]
variable (S : System C D W L M E R)

/-- The configuration after one step, when the step is enabled. -/
def step (c : Config C D W L M E R) : Action C S.Move → Option (Config C D W L M E R)
  | .call k => some { c with threads := c.threads ++ [{ call := k, prog := S.body k }] }
  | .run i n =>
      c.threads[i]?.bind fun t =>
        if t.dead then none
        else (t.step (c.heldBeside i) c.db c.mem n).map fun r =>
          { db := r.2.1, mem := r.2.2, threads := c.threads.set i r.1 }
  | .fault i =>
      c.threads[i]?.bind fun t =>
        if t.dead then none
        else t.fault.map fun t' => { c with threads := c.threads.set i t' }
  | .kill i =>
      c.threads[i]?.bind fun t =>
        if t.inProgress then some { c with threads := c.threads.set i t.kill } else none
  | .restart =>
      some { c with
        mem := S.restart c.mem
        threads := c.threads.map fun t => if t.inProgress then t.kill else t }
  | .world v => (S.move v c.mem).map fun m => { c with mem := m }

/-- Take a list of steps, all of them enabled. -/
def exec (c : Config C D W L M E R) : List (Action C S.Move) → Option (Config C D W L M E R)
  | [] => some c
  | a :: rest => (S.step c a).bind fun c' => exec c' rest

/-- The runs from `c₀` all of whose steps meet `ok`. -/
inductive Runs (ok : Config C D W L M E R → Action C S.Move → Prop)
    (c₀ : Config C D W L M E R) : Config C D W L M E R → Prop
  | refl : Runs ok c₀ c₀
  | step {c c' a} : Runs ok c₀ c → ok c a → S.step c a = some c' → Runs ok c₀ c'

theorem Runs.mono {ok ok' : Config C D W L M E R → Action C S.Move → Prop}
    {c₀ c : Config C D W L M E R} (h : S.Runs ok c₀ c) (hok : ∀ c a, ok c a → ok' c a) :
    S.Runs ok' c₀ c := by
  induction h with
  | refl => exact .refl
  | step _ ha hs ih => exact .step ih (hok _ _ ha) hs

theorem Runs.trans {ok : Config C D W L M E R → Action C S.Move → Prop}
    {c₀ c₁ c₂ : Config C D W L M E R} (h₁ : S.Runs ok c₀ c₁) (h₂ : S.Runs ok c₁ c₂) :
    S.Runs ok c₀ c₂ := by
  induction h₂ with
  | refl => exact h₁
  | step _ ha hs ih => exact .step ih ha hs

/-- A list of enabled steps that all meet `ok` is a run. -/
theorem Runs.of_exec {ok : Config C D W L M E R → Action C S.Move → Prop}
    {c c' : Config C D W L M E R} {as : List (Action C S.Move)}
    (hok : ∀ a ∈ as, ∀ b, ok b a) (h : S.exec c as = some c') : S.Runs ok c c' := by
  induction as generalizing c with
  | nil =>
      simp only [exec, Option.some.injEq] at h
      exact h ▸ .refl
  | cons a rest ih =>
      simp only [exec, Option.bind_eq_some_iff] at h
      obtain ⟨b, hs, hr⟩ := h
      have hb : S.Runs ok c b := .step .refl (hok a List.mem_cons_self c) hs
      exact hb.trans S (ih (fun x hx => hok x (List.mem_cons_of_mem a hx)) hr)

/-- What is computed at the end of a list of enabled steps is so after a run. -/
theorem Runs.exists_of_exec (ok : Config C D W L M E R → Action C S.Move → Prop)
    (c : Config C D W L M E R) (as : List (Action C S.Move)) {α : Type}
    {f : Config C D W L M E R → α} {b : α} (hok : ∀ a ∈ as, ∀ b, ok b a)
    (h : (S.exec c as).map f = some b) : ∃ c', S.Runs ok c c' ∧ f c' = b := by
  obtain ⟨c', hc', hf⟩ := Option.map_eq_some_iff.mp h
  exact ⟨c', .of_exec S hok hc', hf⟩

/-- What is computed of the two ends of one more step is so of a run and a step. -/
theorem Runs.exists_step_of_exec (ok : Config C D W L M E R → Action C S.Move → Prop)
    (c : Config C D W L M E R) (as : List (Action C S.Move)) {a : Action C S.Move} {α : Type}
    {f : Config C D W L M E R → Config C D W L M E R → α} {v : α} (hok : ∀ a ∈ as, ∀ b, ok b a)
    (h : ((S.exec c as).bind fun b => (S.step b a).map (f b)) = some v) :
    ∃ b b', S.Runs ok c b ∧ S.step b a = some b' ∧ f b b' = v := by
  obtain ⟨b, hb, hs⟩ := Option.bind_eq_some_iff.mp h
  obtain ⟨b', hb', hf⟩ := Option.map_eq_some_iff.mp hs
  exact ⟨b, b', .of_exec S hok hb, hb', hf⟩

/-- Take a list of steps, all of them enabled and allowed. -/
def execIf (ok : Config C D W L M E R → Action C S.Move → Prop) [∀ c a, Decidable (ok c a)]
    (c : Config C D W L M E R) : List (Action C S.Move) → Option (Config C D W L M E R)
  | [] => some c
  | a :: rest => if ok c a then (S.step c a).bind fun c' => execIf ok c' rest else none

theorem Runs.of_execIf {ok : Config C D W L M E R → Action C S.Move → Prop}
    [∀ c a, Decidable (ok c a)] {c c' : Config C D W L M E R} {as : List (Action C S.Move)}
    (h : S.execIf ok c as = some c') : S.Runs ok c c' := by
  induction as generalizing c with
  | nil =>
      simp only [execIf, Option.some.injEq] at h
      exact h ▸ .refl
  | cons a rest ih =>
      simp only [execIf] at h
      split_ifs at h with ha
      obtain ⟨b, hs, hr⟩ := Option.bind_eq_some_iff.mp h
      exact (Runs.step .refl ha hs).trans S (ih hr)

/-- What is computed at the end of a list of allowed steps is so after a run. -/
theorem Runs.exists_of_execIf (ok : Config C D W L M E R → Action C S.Move → Prop)
    [∀ c a, Decidable (ok c a)] (c : Config C D W L M E R) (as : List (Action C S.Move)) {α : Type}
    {f : Config C D W L M E R → α} {v : α} (h : (S.execIf ok c as).map f = some v) :
    ∃ c', S.Runs ok c c' ∧ f c' = v := by
  obtain ⟨c', hc', hf⟩ := Option.map_eq_some_iff.mp h
  exact ⟨c', .of_execIf S hc', hf⟩

end System

end Transactions
