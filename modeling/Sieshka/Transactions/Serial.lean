import Sieshka.Transactions.Alone

/-!
# One call in a quiet database

The result of a program that nobody overtakes, computed in one go: every
statement sees the committed rows and the writes of its own session, and the
database refuses nothing but what violates a constraint.

## Implementation notes

The engine stands for what a program does not say itself: which rows fit their
columns, and which number the outside picks for a given database. `Runs.of_serial`
places the evaluation among the interleaved runs, where a row that does not fit
is one of the refusals a run may contain.
-/

namespace Transactions

variable {C D W L M E R α β : Type}

/-- What the database decides for a program that runs alone. -/
structure Engine (D W : Type) where
  fits : W → Bool := fun _ => true
  supply : D → Nat

/-- The state of a session that runs alone: the committed database, the database
the session sees, and the shared memory. -/
structure Quiet (D M : Type) where
  db : D
  view : D
  mem : M
  failed : Bool := false

/-- A quiet database on which no session is open. -/
def Quiet.start (d : D) (m : M) : Quiet D M := { db := d, view := d, mem := m }

namespace Quiet

variable (s : Quiet D M)

/-- The session after it wrote rows. -/
def wrote [RowStore D W L] (ws : List W) : Quiet D M :=
  { s with view := ws.foldl RowStore.put s.view }

/-- The session after the database aborted it. -/
def broken : Quiet D M := { s with view := s.db, failed := true }

/-- The session after its end. -/
def closed : Quiet D M := { s with view := s.db, failed := false }

/-- The session after its commit. -/
def committed : Quiet D M := { s with db := s.view }

@[simp] theorem wrote_nil [RowStore D W L] : s.wrote ([] : List W) = s := rfl

@[simp] theorem wrote_failed [RowStore D W L] (ws : List W) : (s.wrote ws).failed = s.failed := rfl

end Quiet

namespace Prog

variable [RowStore D W L] (E₀ : Engine D W)

/-- Evaluate a program that runs alone. -/
@[grind =] def serial : Prog D W L M E α → Transactions.Quiet D M → Except E α × Transactions.Quiet D M
  | ret a, s => (.ok a, s)
  | raise e, s => (.error e, s)
  | stmt _ writes check next error, s =>
      if s.failed then error.serial s
      else if check s.view && (writes s.view).all E₀.fits then
        (next s.view).serial (s.wrote (writes s.view))
      else error.serial s.broken
  | commit next _, s => if s.failed then next.serial s.closed else next.serial s.committed
  | close next, s => next.serial s.closed
  | memory update next, s => (next s.mem).serial { s with mem := update s.mem }
  | choose next, s => (next (E₀.supply s.view)).serial s

variable {E₀} {s s' : Transactions.Quiet D M}

/-- Sequencing: the continuation starts where the first program ends. -/
theorem serial_andThen (p : Prog D W L M E α) (ok : α → Prog D W L M E β)
    (err : E → Prog D W L M E β) :
    ∀ s, (p.andThen ok err).serial E₀ s =
      match p.serial E₀ s with
      | (.ok a, s') => (ok a).serial E₀ s'
      | (.error e, s') => (err e).serial E₀ s' := by
  induction p with
  | ret a => intro s; rfl
  | raise e => intro s; rfl
  | stmt locks writes check next error ihn ihe =>
      intro s
      simp only [andThen, serial]
      split_ifs with hf hc
      · exact ihe s
      · exact ihn s.view (s.wrote (writes s.view))
      · exact ihe s.broken
  | commit next error ihn ihe =>
      intro s
      simp only [andThen, serial]
      split_ifs with hf
      · exact ihn s.closed
      · exact ihn s.committed
  | close next ih => intro s; exact ih s.closed
  | memory update next ih => intro s; exact ih s.mem { s with mem := update s.mem }
  | choose next ih => intro s; exact ih (E₀.supply s.view) s

variable (E₀) in
/-- Alone, the program leaves the committed database as it is. -/
def Uncommitted (p : Prog D W L M E α) : Prop :=
  ∀ s : Transactions.Quiet D M, (p.serial E₀ s).2.db = s.db

theorem uncommitted_raise (e : E) : (raise e : Prog D W L M E α).Uncommitted E₀ := fun _ => rfl

theorem Uncommitted.andThen {p : Prog D W L M E α} {ok : α → Prog D W L M E β}
    {err : E → Prog D W L M E β} (hp : p.Uncommitted E₀) (hok : ∀ a, (ok a).Uncommitted E₀)
    (herr : ∀ e, (err e).Uncommitted E₀) : (p.andThen ok err).Uncommitted E₀ := by
  intro s
  rw [serial_andThen, ← hp s]
  rcases p.serial E₀ s with ⟨e | a, s'⟩
  · exact herr e s'
  · exact hok a s'

theorem Uncommitted.bind {p : Prog D W L M E α} {f : α → Prog D W L M E β}
    (hp : p.Uncommitted E₀) (hf : ∀ a, (f a).Uncommitted E₀) : (p >>= f).Uncommitted E₀ :=
  hp.andThen hf uncommitted_raise

/-- A session ends without the writes it did not commit, whatever its body comes to. -/
theorem serial_withSession (body : Prog D W L M E α) (s : Transactions.Quiet D M) :
    (withSession body).serial E₀ s = ((body.serial E₀ s).1, (body.serial E₀ s).2.closed) := by
  rw [withSession, serial_andThen]
  rcases body.serial E₀ s with ⟨e | a, s₁⟩ <;> rfl

variable (E₀)

/-- Alone from `s` the program returns `a` and leaves the state `s'`. -/
def Returns (p : Prog D W L M E α) (s : Transactions.Quiet D M) (a : α)
    (s' : Transactions.Quiet D M) : Prop :=
  p.serial E₀ s = (.ok a, s')

variable {E₀} {a : α} {b : β}

/-- A program that runs alone returns one value. -/
theorem Returns.unique {p : Prog D W L M E α} {a' : α} {t : Transactions.Quiet D M}
    (h : p.Returns E₀ s a s') (h' : p.Returns E₀ s a' t) : a = a' ∧ s' = t := by
  have heq : ((.ok a, s') : Except E α × Transactions.Quiet D M) = (.ok a', t) := h.symm.trans h'
  simpa using heq

@[simp] theorem returns_ret (c : α) :
    (ret c : Prog D W L M E α).Returns E₀ s a s' ↔ a = c ∧ s' = s := by
  simp only [Returns, serial, Prod.mk.injEq, Except.ok.injEq]
  constructor
  · intro h
    exact ⟨h.1.symm, h.2.symm⟩
  · intro h
    exact ⟨h.1.symm, h.2.symm⟩

@[simp] theorem returns_raise (e : E) :
    (raise e : Prog D W L M E α).Returns E₀ s a s' ↔ False := by
  simp [Returns, serial]

theorem returns_andThen_raise (p : Prog D W L M E α) (f : α → Prog D W L M E β) (g : E → E) :
    (p.andThen f fun e => raise (g e)).Returns E₀ s b s' ↔
      ∃ a s₁, p.Returns E₀ s a s₁ ∧ (f a).Returns E₀ s₁ b s' := by
  rw [Returns, serial_andThen]
  rcases hp : p.serial E₀ s with ⟨e | a, s₁⟩
  · simp [Returns, serial, hp]
  · simp only [Returns, hp, Prod.mk.injEq, Except.ok.injEq]
    constructor
    · intro h
      exact ⟨a, s₁, ⟨rfl, rfl⟩, h⟩
    · rintro ⟨a', t, ⟨rfl, rfl⟩, h⟩
      exact h

/-- A sequence returns when both programs do. -/
@[simp] theorem returns_andThen (p : Prog D W L M E α) (f : α → Prog D W L M E β) :
    (p.andThen f raise).Returns E₀ s b s' ↔
      ∃ a s₁, p.Returns E₀ s a s₁ ∧ (f a).Returns E₀ s₁ b s' :=
  returns_andThen_raise p f id

/-- A sequence goes on from what its first program returns. -/
theorem Returns.andThen_iff {p : Prog D W L M E α} {s₁ : Transactions.Quiet D M}
    (h : p.Returns E₀ s a s₁) (f : α → Prog D W L M E β) :
    (p.andThen f raise).Returns E₀ s b s' ↔ (f a).Returns E₀ s₁ b s' := by
  rw [returns_andThen]
  constructor
  · rintro ⟨a', t, h', hf⟩
    obtain ⟨rfl, rfl⟩ := h.unique h'
    exact hf
  · intro hf
    exact ⟨a, s₁, h, hf⟩

/-- What follows a program that returns, whatever its handler is. -/
theorem Returns.serial_andThen {p : Prog D W L M E α} {ok : α → Prog D W L M E β}
    {err : E → Prog D W L M E β} {s₁ : Transactions.Quiet D M} (h : p.Returns E₀ s a s₁) :
    (p.andThen ok err).serial E₀ s = (ok a).serial E₀ s₁ := by
  rw [Prog.serial_andThen, h]

/-- A handler that raises changes no return. -/
@[simp] theorem returns_handled (p : Prog D W L M E α) (g : E → E) :
    (p.andThen ret fun e => raise (g e)).Returns E₀ s a s' ↔ p.Returns E₀ s a s' := by
  rw [returns_andThen_raise]
  simp

@[simp] theorem returns_ite {c : Prop} [Decidable c] (p q : Prog D W L M E α) :
    (if c then p else q).Returns E₀ s a s' ↔
      (c ∧ p.Returns E₀ s a s') ∨ (¬ c ∧ q.Returns E₀ s a s') := by
  split_ifs with h <;> simp [h]

/-- A session ends without the writes it did not commit. -/
@[simp] theorem returns_withSession (body : Prog D W L M E α) :
    (withSession body).Returns E₀ s a s' ↔ ∃ s₁, body.Returns E₀ s a s₁ ∧ s' = s₁.closed := by
  rw [Returns, withSession, serial_andThen]
  rcases hp : body.serial E₀ s with ⟨e | b, s₁⟩
  · simp [Returns, serial, hp]
  · simp only [Returns, serial, hp, Prod.mk.injEq, Except.ok.injEq]
    constructor
    · rintro ⟨rfl, rfl⟩
      exact ⟨s₁, ⟨rfl, rfl⟩, rfl⟩
    · rintro ⟨t, ⟨rfl, rfl⟩, rfl⟩
      exact ⟨rfl, rfl⟩

@[simp] theorem returns_choose (next : Nat → Prog D W L M E α) :
    (choose next).Returns E₀ s a s' ↔ (next (E₀.supply s.view)).Returns E₀ s a s' := Iff.rfl

/-- A statement takes effect when no constraint is against it. -/
theorem returns_stmt {locks : D → List L} {writes : D → List W} {check : D → Bool}
    {next : D → Prog D W L M E α} {e : E} :
    (stmt locks writes check next (raise e)).Returns E₀ s a s' ↔
      s.failed = false ∧ check s.view = true ∧ (writes s.view).all E₀.fits = true ∧
        (next s.view).Returns E₀ (s.wrote (writes s.view)) a s' := by
  by_cases hf : s.failed = true
  · simp [Returns, serial, hf]
  · by_cases hc : (check s.view && (writes s.view).all E₀.fits) = true
    · simp only [Returns, serial, if_neg hf, if_pos hc]
      simp only [Bool.and_eq_true] at hc
      simp [hf, hc]
    · simp only [Returns, serial, if_neg hf, if_neg hc]
      simp only [Bool.and_eq_true, not_and] at hc
      constructor
      · intro h
        simp at h
      · intro h
        exact absurd h.2.2.1 (hc h.2.1)

variable [DatabaseError E]

@[simp] theorem returns_select (f : D → α) :
    (select f : Prog D W L M E α).Returns E₀ s a s' ↔
      s.failed = false ∧ a = f s.view ∧ s' = s := by
  rw [select, returns_stmt]
  simp

@[simp] theorem returns_commitSession {u : Unit} :
    (commitSession : Prog D W L M E Unit).Returns E₀ s u s' ↔
      s' = if s.failed then s.closed else s.committed := by
  cases hf : s.failed
  · simp [commitSession, Returns, serial, hf, eq_comm]
  · simp [commitSession, Returns, serial, hf, eq_comm]

end Prog

namespace Schema

open Prog

variable [RowStore D W L] [DatabaseError E] {Row Key : Type} [DecidableEq Key] {key : Row → Key}
variable (T : Schema D key) {E₀ : Engine D W} {s s' : Quiet D M} {k : Key}

@[simp] theorem returns_find {o : Option Row} :
    (T.find k : Prog D W L M E _).Returns E₀ s o s' ↔
      s.failed = false ∧ o = (T.table s.view).find k ∧ s' = s :=
  returns_select _

@[simp] theorem returns_findForUpdate {o : Option Row} :
    (T.findForUpdate k : Prog D W L M E _).Returns E₀ s o s' ↔
      s.failed = false ∧ o = (T.table s.view).find k ∧ s' = s := by
  rw [findForUpdate, returns_stmt]
  simp

/-- Rows that fit are updated, when the parameter is taken. -/
@[simp] theorem returns_updateIf {taken : Bool} {f : Row → Row} {u : Unit} :
    (T.updateIf taken k f : Prog D W L M E Unit).Returns E₀ s u s' ↔
      s.failed = false ∧ taken = true ∧
        (∀ r, (T.table s.view).find k = some r → E₀.fits (T.write (f r)) = true) ∧
        s' = s.wrote (((T.table s.view).find k).toList.map fun r => T.write (f r)) := by
  rw [updateIf, returns_stmt]
  simp

/-- A row that is there is updated. -/
theorem returns_update_of_find {f : Row → Row} {r : Row} (hs : s.failed = false)
    (hfind : (T.table s.view).find k = some r) (hfits : E₀.fits (T.write (f r)) = true) :
    (T.update k f : Prog D W L M E Unit).Returns E₀ s () (s.wrote [T.write (f r)]) := by
  rw [update, returns_stmt]
  simp [hs, hfind, hfits]

/-- A row is inserted where its key is free. -/
theorem returns_insertIfAbsent {r : Row} {new : Bool} :
    (T.insertIfAbsent r : Prog D W L M E Bool).Returns E₀ s new s' ↔
      s.failed = false ∧ new = ((T.table s.view).find (key r)).isNone ∧
        (new = true → E₀.fits (T.write r) = true) ∧
        s' = if new then s.wrote [T.write r] else s := by
  rw [insertIfAbsent, returns_stmt]
  cases (T.table s.view).find (key r) with
  | none =>
      simp only [Option.isSome_none, Bool.false_eq_true, if_false, List.all_cons, List.all_nil,
        Bool.and_true, returns_ret, Bool.not_false, Option.isNone_none, true_and]
      constructor
      · rintro ⟨hs, hfits, rfl, rfl⟩
        exact ⟨hs, rfl, fun _ => hfits, rfl⟩
      · rintro ⟨hs, rfl, hfits, rfl⟩
        exact ⟨hs, hfits rfl, rfl, rfl⟩
  | some old =>
      simp only [Option.isSome_some, if_true, List.all_nil, Quiet.wrote_nil, returns_ret,
        Bool.not_true, Option.isNone_some, true_and]
      constructor
      · rintro ⟨hs, rfl, rfl⟩
        exact ⟨hs, rfl, nofun, rfl⟩
      · rintro ⟨hs, rfl, -, rfl⟩
        exact ⟨hs, rfl, rfl⟩

theorem serial_insert {check : D → Bool} {r : Row} (hs : s.failed = false) :
    (T.insert check r : Prog D W L M E Unit).serial E₀ s =
      if (T.table s.view).find (key r) = none ∧ check s.view = true ∧
          E₀.fits (T.write r) = true then (.ok (), s.wrote [T.write r])
      else (.error DatabaseError.databaseError, s.broken) := by
  simp [insert, serial, hs, and_assoc]

/-- A row that violates no constraint is inserted. -/
@[simp] theorem returns_insert {check : D → Bool} {r : Row} {u : Unit} :
    (T.insert check r : Prog D W L M E Unit).Returns E₀ s u s' ↔
      s.failed = false ∧ (T.table s.view).find (key r) = none ∧ check s.view = true ∧
        E₀.fits (T.write r) = true ∧
        s' = { s with view := RowStore.put s.view (T.write r) } := by
  rw [insert, returns_stmt]
  simp [Quiet.wrote, and_assoc]

end Schema

/-! ## Calls one after another -/

namespace Prog

variable [RowStore D W L] [DatabaseError E]

/-- A session that commits what its body has written when the body returns. -/
def transact (body : Prog D W L M E α) : Prog D W L M E α :=
  withSession do
    let a ← body
    commitSession
    return a

/-- The body returns on `d`, and its session commits `d'`. -/
def Commits (E₀ : Engine D W) (body : Prog D W L Unit E α) (d d' : D) : Prop :=
  ∃ a s', (transact body).Returns E₀ (Quiet.start d ()) a s' ∧ s'.db = d'

/-- A body that returns is committed as the session sees it. -/
theorem Commits.returns {E₀ : Engine D W} {body : Prog D W L Unit E α} {d d' : D}
    (h : body.Commits E₀ d d') :
    ∃ a s', body.Returns E₀ (Quiet.start d ()) a s' ∧ (s'.failed = false → s'.view = d') := by
  obtain ⟨a, s', h, rfl⟩ := h
  simp only [transact, bind_eq, pure_eq, returns_withSession, returns_andThen,
    returns_commitSession, returns_ret] at h
  obtain ⟨s₁, ⟨b, s₂, hb, _, s₃, rfl, rfl, rfl⟩, rfl⟩ := h
  refine ⟨a, s₂, hb, fun hf => ?_⟩
  simp [hf, Quiet.committed, Quiet.closed]

theorem Commits.of_returns {E₀ : Engine D W} {body : Prog D W L Unit E α} {d : D} {a : α}
    {s' : Transactions.Quiet D Unit} (h : body.Returns E₀ (Quiet.start d ()) a s')
    (hf : s'.failed = false) :
    body.Commits E₀ d s'.view := by
  refine ⟨a, s'.committed.closed, ?_, rfl⟩
  simp only [transact, bind_eq, pure_eq, returns_withSession, returns_andThen,
    returns_commitSession, returns_ret]
  exact ⟨s'.committed, ⟨a, s', h, (), s'.committed, by simp [hf], rfl, rfl⟩, rfl⟩

/-- Calls that succeed one after another, each with the database it begins on. -/
inductive Sequence (body : C → Prog D W L Unit E α) (d : D) : List (D × C) → D → Prop
  | nil : Sequence body d [] d
  | call {history d₁ d₂ c} (E₀ : Engine D W) (h : Sequence body d history d₁)
      (hc : (body c).Commits E₀ d₁ d₂) : Sequence body d (history ++ [(d₁, c)]) d₂

/-- What every call keeps holds all along. -/
theorem Sequence.keeps {body : C → Prog D W L Unit E α} {d d' : D} {history : List (D × C)}
    {J : D → Prop} (hcall : ∀ E₀ c d₁ d₂, J d₁ → (body c).Commits E₀ d₁ d₂ → J d₂) (hJ : J d)
    (h : Sequence body d history d') : J d' := by
  induction h with
  | nil => exact hJ
  | call E₀ _ hc ih => exact hcall E₀ _ _ _ ih hc

/-- Where a call keeps `I` exactly under a condition on where it begins, `I` holds
all along exactly when every call meets the condition. -/
theorem Sequence.iff_of_call {body : C → Prog D W L Unit E α} {d d' : D} {history : List (D × C)}
    {I J : D → Prop} {ok : D → C → Prop}
    (hkeep : ∀ E₀ c d₁ d₂, J d₁ → (body c).Commits E₀ d₁ d₂ → J d₂)
    (hcall : ∀ E₀ c d₁ d₂, J d₁ → I d₁ → (body c).Commits E₀ d₁ d₂ → (I d₂ ↔ ok d₁ c))
    (hJ : J d) (hI : I d) (h : Sequence body d history d') :
    ((∀ p ∈ history, I p.1) ∧ I d') ↔ ∀ p ∈ history, ok p.1 p.2 := by
  induction h with
  | nil => simp [hI]
  | @call history d₁ d₂ c E₀ hrun hc ih =>
      have hJ₁ : J d₁ := hrun.keeps hkeep hJ
      simp only [List.forall_mem_append, List.forall_mem_singleton]
      constructor
      · intro h
        exact ⟨ih.mp ⟨h.1.1, h.1.2⟩, (hcall E₀ c d₁ d₂ hJ₁ h.1.2 hc).mp h.2⟩
      · intro h
        obtain ⟨hall, hd₁⟩ := ih.mpr h.1
        exact ⟨⟨hall, hd₁⟩, (hcall E₀ c d₁ d₂ hJ₁ hd₁ hc).mpr h.2⟩

end Prog

/-! ## Among the runs -/

section Runs

variable [RowStore D W L]

/-- The session of a call is the one that is evaluated. -/
structure Thread.InState (t : Thread C D W L M E R) (s : Quiet D M) : Prop where
  alive : t.dead = false
  view : t.txn.view s.db = s.view
  failed : t.txn.failed = s.failed

variable [DecidableEq L] (S : System C D W L M E R)
variable (ok : Config C D W L M E R → Action C S.Move → Prop)
variable (threads : List (Thread C D W L M E R))

/-- Behind the threads, the last call gets from `t` in the state `s` to `u` in the state
`q`, while the others stand still. -/
structure Thread.Moves (t : Thread C D W L M E R) (s : Quiet D M) (u : Thread C D W L M E R)
    (q : Quiet D M) : Prop where
  state : u.InState q
  call_eq : u.call = t.call
  runs : S.Runs ok ⟨s.db, s.mem, threads ++ [t]⟩ ⟨q.db, q.mem, threads ++ [u]⟩

variable {S ok threads} {t u v : Thread C D W L M E R} {s q s' : Quiet D M}

theorem Thread.Moves.trans (h : t.Moves S ok threads s u q) (h' : u.Moves S ok threads q v s') :
    t.Moves S ok threads s v s' where
  state := h'.state
  call_eq := h'.call_eq.trans h.call_eq
  runs := h.runs.trans S h'.runs

/-- Where a call ends, it also ends after a move. -/
theorem Thread.Moves.ends {r : Except E R} (h : t.Moves S ok threads s u q)
    (h' : ∃ v, u.Moves S ok threads q v s' ∧ v.result = some r) :
    ∃ v, t.Moves S ok threads s v s' ∧ v.result = some r := by
  obtain ⟨v, hv, hr⟩ := h'
  exact ⟨v, h.trans hv, hr⟩

namespace Thread.InState

theorem ends {r : Except E R} (ht : t.InState s) (hr : t.result = some r) :
    ∃ v, t.Moves S ok threads s v s ∧ v.result = some r :=
  ⟨t, ⟨ht, rfl, .refl⟩, hr⟩

/-! ### One move -/

section Moves

variable (hheld : (threads.flatMap fun u => u.txn.held) = [])
  (hrun : ∀ b n, ok b (.run threads.length n))

include hheld hrun

theorem moves_of_step (n : Nat) (ht : t.InState s) (hu : u.InState q)
    (hs : t.step [] s.db s.mem n = some (u, q.db, q.mem)) : t.Moves S ok threads s u q where
  state := hu
  call_eq := (Thread.step_cases hs).call_eq
  runs := by
    have hbeside : Config.heldBeside ⟨s.db, s.mem, threads ++ [t]⟩ threads.length = [] := by
      simp only [Config.heldBeside, List.eraseIdx_append_of_length_le (Nat.le_refl _)]
      simpa using hheld
    apply System.Runs.step .refl (hrun _ n)
    simp [System.step, ht.alive, hbeside, hs]

variable {locks : D → List L} {writes : D → List W} {check : D → Bool}
  {next : D → Prog D W L M E R} {done error : Prog D W L M E R}

theorem moves_stmt_failed (ht : t.InState s) (hp : t.prog = .stmt locks writes check next error)
    (hf : s.failed = true) : t.Moves S ok threads s { t with prog := error } s := by
  refine ht.moves_of_step hheld hrun 0 ⟨ht.alive, ht.view, ht.failed⟩ ?_
  simp [Thread.step, hp, ht.failed, hf]

theorem moves_stmt (ht : t.InState s) (hp : t.prog = .stmt locks writes check next error)
    (hf : ¬ s.failed = true) (hcheck : check s.view = true) :
    t.Moves S ok threads s
      { t with prog := next s.view, txn := t.txn.extend s.db locks writes }
      (s.wrote (writes s.view)) := by
  rw [Bool.not_eq_true] at hf
  refine ht.moves_of_step hheld hrun 0 ⟨ht.alive, ?_, hf.symm⟩ ?_
  · change (t.txn.extend s.db locks writes).view s.db = _
    rw [Txn.view_extend, ht.view]
    rfl
  · simp [Thread.step, hp, ht.failed, hf, ht.view, hcheck, Quiet.wrote]

theorem moves_stmt_violated (ht : t.InState s)
    (hp : t.prog = .stmt locks writes check next error) (hf : ¬ s.failed = true)
    (hcheck : ¬ check s.view = true) :
    t.Moves S ok threads s { t with prog := error, txn := .broken } s.broken := by
  rw [Bool.not_eq_true] at hf hcheck
  refine ht.moves_of_step hheld hrun 0 ⟨ht.alive, rfl, rfl⟩ ?_
  simp [Thread.step, hp, ht.failed, hf, ht.view, hcheck, Quiet.broken]

theorem moves_commit_failed (ht : t.InState s) (hp : t.prog = .commit done error)
    (hf : s.failed = true) :
    t.Moves S ok threads s { t with prog := done, txn := {} } s.closed := by
  refine ht.moves_of_step hheld hrun 0 ⟨ht.alive, rfl, rfl⟩ ?_
  simp [Thread.step, hp, ht.failed, hf, Quiet.closed]

theorem moves_commit (ht : t.InState s) (hp : t.prog = .commit done error)
    (hf : ¬ s.failed = true) :
    t.Moves S ok threads s
      { t with prog := done, txn := {}, commits := t.commits ++ [(s.db, t.txn.view s.db)] }
      s.committed := by
  rw [Bool.not_eq_true] at hf
  refine ht.moves_of_step hheld hrun 0 ⟨ht.alive, rfl, hf.symm⟩ ?_
  simp [Thread.step, hp, ht.failed, hf, ht.view, Quiet.committed]

theorem moves_close (ht : t.InState s) (hp : t.prog = .close done) :
    t.Moves S ok threads s { t with prog := done, txn := {} } s.closed := by
  refine ht.moves_of_step hheld hrun 0 ⟨ht.alive, rfl, rfl⟩ ?_
  simp [Thread.step, hp, Quiet.closed]

theorem moves_memory {update : M → M} {next : M → Prog D W L M E R} (ht : t.InState s)
    (hp : t.prog = .memory update next) :
    t.Moves S ok threads s { t with prog := next s.mem } { s with mem := update s.mem } := by
  refine ht.moves_of_step hheld hrun 0 ⟨ht.alive, ht.view, ht.failed⟩ ?_
  simp [Thread.step, hp]

theorem moves_choose {next : Nat → Prog D W L M E R} (n : Nat) (ht : t.InState s)
    (hp : t.prog = .choose next) : t.Moves S ok threads s { t with prog := next n } s := by
  refine ht.moves_of_step hheld hrun n ⟨ht.alive, ht.view, ht.failed⟩ ?_
  simp [Thread.step, hp]

end Moves

/-- A write that does not fit is a fault of the statement. -/
theorem moves_stmt_refused {locks : D → List L} {writes : D → List W} {check : D → Bool}
    {next : D → Prog D W L M E R} {error : Prog D W L M E R}
    (hfault : ∀ b, ok b (.fault threads.length)) (ht : t.InState s)
    (hp : t.prog = .stmt locks writes check next error) :
    t.Moves S ok threads s { t with prog := error, txn := .broken } s.broken where
  state := ⟨ht.alive, rfl, rfl⟩
  call_eq := rfl
  runs := by
    apply System.Runs.step .refl (hfault _)
    simp [System.step, ht.alive, Thread.fault, hp, Quiet.broken]

end Thread.InState

/-- What a program alone comes to, it comes to in a run in which the others stand
still and hold no lock. -/
theorem System.Runs.of_serial {E₀ : Engine D W} {p : Prog D W L M E R} {r : Except E R}
    (hheld : (threads.flatMap fun u => u.txn.held) = [])
    (hrun : ∀ b n, ok b (.run threads.length n)) (hfault : ∀ b, ok b (.fault threads.length))
    (hp : t.prog = p) (ht : t.InState s) (h : p.serial E₀ s = (r, s')) :
    ∃ v, t.Moves S ok threads s v s' ∧ v.result = some r := by
  induction p generalizing t s with
  | ret a =>
      obtain ⟨rfl, rfl⟩ := Prod.mk.inj h
      exact ht.ends (by simp [Thread.result, hp, ht.alive])
  | raise e =>
      obtain ⟨rfl, rfl⟩ := Prod.mk.inj h
      exact ht.ends (by simp [Thread.result, hp, ht.alive])
  | stmt locks writes check next error ihn ihe =>
      rw [Prog.serial] at h
      by_cases hf : s.failed = true
      · have hmove := ht.moves_stmt_failed hheld hrun hp hf
        rw [if_pos hf] at h
        exact hmove.ends (ihe rfl hmove.state h)
      · rw [if_neg hf] at h
        by_cases hcheck : check s.view = true
        · by_cases hfits : (writes s.view).all E₀.fits = true
          · have hmove := ht.moves_stmt hheld hrun hp hf hcheck
            rw [if_pos (by simp [hcheck, hfits])] at h
            exact hmove.ends (ihn s.view rfl hmove.state h)
          · have hmove := ht.moves_stmt_refused hfault hp
            rw [if_neg (by simp [hfits])] at h
            exact hmove.ends (ihe rfl hmove.state h)
        · have hmove := ht.moves_stmt_violated hheld hrun hp hf hcheck
          rw [if_neg (by simp [hcheck])] at h
          exact hmove.ends (ihe rfl hmove.state h)
  | commit next error ihn ihe =>
      rw [Prog.serial] at h
      by_cases hf : s.failed = true
      · have hmove := ht.moves_commit_failed hheld hrun hp hf
        rw [if_pos hf] at h
        exact hmove.ends (ihn rfl hmove.state h)
      · have hmove := ht.moves_commit hheld hrun hp hf
        rw [if_neg hf] at h
        exact hmove.ends (ihn rfl hmove.state h)
  | close next ih =>
      have hmove := ht.moves_close hheld hrun hp
      exact hmove.ends (ih rfl hmove.state h)
  | memory update next ih =>
      have hmove := ht.moves_memory hheld hrun hp
      exact hmove.ends (ih s.mem rfl hmove.state h)
  | choose next ih =>
      have hmove := ht.moves_choose hheld hrun (E₀.supply s.view) hp
      exact hmove.ends (ih (E₀.supply s.view) rfl hmove.state h)

end Runs

end Transactions
