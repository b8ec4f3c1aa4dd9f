import Sieshka.Transactions.Serial

/-!
# Calls that take turns

Runs in which a call begins only when no other is in progress, the database refuses nothing but
what violates a constraint, and no call dies. The world around may move at any time. What every
call keeps from its beginning to its end holds whenever no call is in progress, although the
calls may break it while they run.
-/

namespace Transactions

open Relation (ReflTransGen)

variable {C D W L M E R α β : Type}

namespace System

/-- What the world makes of the memory while a call waits. -/
def Drift (S : System C D W L M E R) (m m' : M) : Prop :=
  ReflTransGen (fun m m' => ∃ v, S.move v m = some m') m m'

variable [RowStore D W L] [DecidableEq L]

/-- The steps of runs whose calls take turns, with numbers that meet `picks`. -/
def InTurn (S : System C D W L M E R) (picks : Nat → Prop) (c : Config C D W L M E R) :
    Action C S.Move → Prop
  | .call _ => c.Quiescent
  | .run _ n => picks n
  | .world _ => True
  | _ => False

instance (S : System C D W L M E R) (picks : Nat → Prop) [DecidablePred picks]
    (c : Config C D W L M E R) (a : Action C S.Move) : Decidable (S.InTurn picks c a) := by
  cases a <;> unfold InTurn <;> infer_instance

end System

/-! ## One call -/

namespace Quiet

/-- The session with another memory. -/
def withMemory (s : Quiet D M) (m : M) : Quiet D M := { s with mem := m }

@[simp] theorem withMemory_db (s : Quiet D M) (m : M) : (s.withMemory m).db = s.db := rfl
@[simp] theorem withMemory_view (s : Quiet D M) (m : M) : (s.withMemory m).view = s.view := rfl
@[simp] theorem withMemory_mem (s : Quiet D M) (m : M) : (s.withMemory m).mem = m := rfl
@[simp] theorem withMemory_failed (s : Quiet D M) (m : M) :
    (s.withMemory m).failed = s.failed := rfl
@[simp] theorem withMemory_withMemory (s : Quiet D M) (m m' : M) :
    (s.withMemory m).withMemory m' = s.withMemory m' := rfl
@[simp] theorem withMemory_self (s : Quiet D M) : s.withMemory s.mem = s := rfl

end Quiet

namespace Prog

variable [RowStore D W L] (Drift : M → M → Prop) (picks : Nat → Prop)

/-- The weakest precondition for `Q` of a program in its turn. -/
def inTurn : Prog D W L M E α → (Except E α → Transactions.Quiet D M → Prop) →
    Transactions.Quiet D M → Prop
  | ret a, Q, s => Q (.ok a) s
  | raise e, Q, s => Q (.error e) s
  | stmt _ writes check next error, Q, s => ∀ m, Drift s.mem m →
      if s.failed then inTurn error Q (s.withMemory m)
      else if check s.view then
        inTurn (next s.view) Q ((s.withMemory m).wrote (writes s.view))
      else inTurn error Q (s.withMemory m).broken
  | commit next _, Q, s => ∀ m, Drift s.mem m →
      if s.failed then inTurn next Q (s.withMemory m).closed
      else inTurn next Q (s.withMemory m).committed
  | close next, Q, s => ∀ m, Drift s.mem m → inTurn next Q (s.withMemory m).closed
  | memory update next, Q, s => ∀ m, Drift s.mem m →
      inTurn (next m) Q (s.withMemory (update m))
  | choose next, Q, s => ∀ m, Drift s.mem m → ∀ n, picks n →
      inTurn (next n) Q (s.withMemory m)

variable {Drift picks} {s : Transactions.Quiet D M}

theorem inTurn_mono {p : Prog D W L M E α} {Q Q' : Except E α → Transactions.Quiet D M → Prop}
    (hQ : ∀ r s, Q r s → Q' r s) : ∀ {s}, p.inTurn Drift picks Q s → p.inTurn Drift picks Q' s := by
  induction p with
  | ret a => exact fun h => hQ _ _ h
  | raise e => exact fun h => hQ _ _ h
  | stmt locks writes check next error ihn ihe =>
      intro s h m hm
      have h := h m hm
      split_ifs at h ⊢
      · exact ihe h
      · exact ihn _ h
      · exact ihe h
  | commit next error ihn ihe =>
      intro s h m hm
      have h := h m hm
      split_ifs at h ⊢
      · exact ihn h
      · exact ihn h
  | close next ih => exact fun h m hm => ih (h m hm)
  | memory update next ih => exact fun h m hm => ih m (h m hm)
  | choose next ih => exact fun h m hm n hn => ih n (h m hm n hn)

/-- Sequencing: the continuation starts where the first program ends. -/
theorem inTurn_andThen (p : Prog D W L M E α) (ok : α → Prog D W L M E β)
    (err : E → Prog D W L M E β) (Q : Except E β → Transactions.Quiet D M → Prop) :
    ∀ s, (p.andThen ok err).inTurn Drift picks Q s ↔
      p.inTurn Drift picks (fun r s => match r with
        | .ok a => (ok a).inTurn Drift picks Q s
        | .error e => (err e).inTurn Drift picks Q s) s := by
  induction p with
  | ret a => exact fun s => Iff.rfl
  | raise e => exact fun s => Iff.rfl
  | stmt locks writes check next error ihn ihe =>
      intro s
      simp only [andThen, inTurn, ihn, ihe]
  | commit next error ihn ihe =>
      intro s
      simp only [andThen, inTurn, ihn]
  | close next ih =>
      intro s
      simp only [andThen, inTurn, ih]
  | memory update next ih =>
      intro s
      simp only [andThen, inTurn, ih]
  | choose next ih =>
      intro s
      simp only [andThen, inTurn, ih]

theorem inTurn_bind (p : Prog D W L M E α) (f : α → Prog D W L M E β)
    (Q : Except E β → Transactions.Quiet D M → Prop) :
    (p >>= f).inTurn Drift picks Q s ↔
      p.inTurn Drift picks (fun r s => match r with
        | .ok a => (f a).inTurn Drift picks Q s
        | .error e => Q (.error e) s) s :=
  inTurn_andThen p f raise Q s

/-- Leaving a session. -/
theorem inTurn_withSession {body : Prog D W L M E α}
    {Q : Except E α → Transactions.Quiet D M → Prop}
    (h : body.inTurn Drift picks (fun r s => ∀ m, Drift s.mem m →
      Q r (s.withMemory m).closed) s) : (withSession body).inTurn Drift picks Q s := by
  rw [withSession, inTurn_andThen]
  refine inTurn_mono (fun r s hs => ?_) h
  cases r with
  | ok a => exact hs
  | error e => exact hs

/-- What is owed to a program that has steps left survives a drift. -/
theorem inTurn_drift (htrans : ∀ {a b c}, Drift a b → Drift b c → Drift a c)
    {p : Prog D W L M E α} {Q : Except E α → Transactions.Quiet D M → Prop} {m : M}
    (hm : Drift s.mem m) (h : p.inTurn Drift picks Q s)
    (hret : ∀ a, p ≠ ret a) (hraise : ∀ e, p ≠ raise e) :
    p.inTurn Drift picks Q (s.withMemory m) := by
  cases p with
  | ret a => exact absurd rfl (hret a)
  | raise e => exact absurd rfl (hraise e)
  | stmt locks writes check next error => exact fun m' hm' => h m' (htrans hm hm')
  | commit next error => exact fun m' hm' => h m' (htrans hm hm')
  | close next => exact fun m' hm' => h m' (htrans hm hm')
  | memory update next => exact fun m' hm' => h m' (htrans hm hm')
  | choose next => exact fun m' hm' => h m' (htrans hm hm')

end Prog

/-! ## Runs -/

section Runs

variable [RowStore D W L] {S : System C D W L M E R} {picks : Nat → Prop} {I : D → M → Prop}

/-- What is owed to the one call in progress. -/
structure Owed (S : System C D W L M E R) (picks : Nat → Prop) (I : D → M → Prop)
    (t : Thread C D W L M E R) (d : D) (m : M) : Prop where
  alive : t.dead = false
  owed : t.prog.inTurn S.Drift picks (fun _ s => I s.db s.mem)
    ⟨d, t.txn.view d, m, t.txn.failed⟩

theorem Owed.of_finished {t : Thread C D W L M E R} {d : D} {m : M} (h : Owed S picks I t d m)
    (hp : t.inProgress = false) : I d m := by
  have hfinished : t.finished = true := by simpa [Thread.inProgress, h.alive] using hp
  have howed := h.owed
  rw [Thread.finished] at hfinished
  cases hq : t.prog with
  | ret a => simpa [hq, Prog.inTurn] using howed
  | raise e => simpa [hq, Prog.inTurn] using howed
  | stmt locks writes check next error => simp [hq] at hfinished
  | commit next error => simp [hq] at hfinished
  | close next => simp [hq] at hfinished
  | memory update next => simp [hq] at hfinished
  | choose next => simp [hq] at hfinished

/-- A call's own step keeps what it is owed. -/
theorem Owed.run [DecidableEq L] {t t' : Thread C D W L M E R} {d d' : D} {m m' : M}
    {others : List L} {n : Nat} (h : Owed S picks I t d m) (hn : picks n)
    (hs : t.step others d m n = some (t', d', m')) : Owed S picks I t' d' m' := by
  obtain ⟨halive, howed⟩ := h
  cases hp : t.prog with
  | ret a => simp [Thread.step, hp] at hs
  | raise e => simp [Thread.step, hp] at hs
  | stmt locks writes check next error =>
      simp only [Thread.step, hp] at hs
      rw [hp] at howed
      have howed := howed m .refl
      split_ifs at hs howed with hf hany hc
      · cases hs
        exact ⟨halive, howed⟩
      · cases hs
        refine ⟨halive, ?_⟩
        have hf : t.txn.failed = false := by simpa using hf
        have hview : (t.txn.extend d locks writes).view d =
            (writes (t.txn.view d)).foldl RowStore.put (t.txn.view d) :=
          Txn.view_extend t.txn d d locks writes
        rw [hf] at howed
        change (next (t.txn.view d)).inTurn _ _ _
          ⟨d, (t.txn.extend d locks writes).view d, m, false⟩
        rw [hview]
        exact howed
      · cases hs
        exact ⟨halive, howed⟩
  | commit next error =>
      simp only [Thread.step, hp] at hs
      rw [hp] at howed
      have howed := howed m .refl
      split_ifs at hs howed with hf
      · cases hs
        exact ⟨halive, howed⟩
      · cases hs
        have hf : t.txn.failed = false := by simpa using hf
        rw [hf] at howed
        exact ⟨halive, howed⟩
  | close next =>
      simp only [Thread.step, hp] at hs
      rw [hp] at howed
      cases hs
      exact ⟨halive, howed m .refl⟩
  | memory update next =>
      simp only [Thread.step, hp] at hs
      rw [hp] at howed
      cases hs
      exact ⟨halive, howed m .refl⟩
  | choose next =>
      simp only [Thread.step, hp] at hs
      rw [hp] at howed
      cases hs
      exact ⟨halive, howed m .refl n hn⟩

/-- A call in progress is the only one, and what it is owed leads back to `I`. -/
structure Turn (S : System C D W L M E R) (picks : Nat → Prop) (I : D → M → Prop)
    (c : Config C D W L M E R) : Prop where
  idle : c.Quiescent → I c.db c.mem
  busy : ∀ (i : Nat) t, c.threads[i]? = some t → t.inProgress = true →
    Owed S picks I t c.db c.mem ∧
      ∀ (j : Nat) u, j ≠ i → c.threads[j]? = some u → u.inProgress = false

/-- The last call is owed what its program is, and all before it have ended. -/
theorem Turn.of_call {c : Config C D W L M E R} (hq : c.Quiescent) {k : C}
    (howed : Owed S picks I { call := k, prog := S.body k } c.db c.mem) :
    Turn S picks I { c with threads := c.threads ++ [{ call := k, prog := S.body k }] } where
  idle hidle := howed.of_finished (hidle _ (by simp))
  busy i t hi ht := by
    have hold : ∀ (j : Nat) u, c.threads[j]? = some u → u.inProgress = false :=
      fun j u hu => hq u (List.mem_of_getElem? hu)
    rcases Nat.lt_trichotomy i c.threads.length with hlt | rfl | hgt
    · rw [List.getElem?_append_left hlt] at hi
      rw [hold i t hi] at ht
      cases ht
    · rw [List.getElem?_append_right (Nat.le_refl _), Nat.sub_self] at hi
      obtain rfl := Option.some.inj hi
      refine ⟨howed, fun j u hne hu => ?_⟩
      have hlt : j < c.threads.length := by
        have hbound := (List.getElem?_eq_some_iff.mp hu).1
        simp only [List.length_append, List.length_singleton] at hbound
        omega
      rw [List.getElem?_append_left hlt] at hu
      exact hold j u hu
    · rw [List.getElem?_eq_none (by simp; omega)] at hi
      cases hi

/-- The call in progress takes a step. -/
theorem Turn.run [DecidableEq L] {c : Config C D W L M E R} (h : Turn S picks I c) {i n : Nat}
    {t t' : Thread C D W L M E R} {d : D} {m : M} (ht : c.threads[i]? = some t) (hn : picks n)
    (hp : t.inProgress = true) (hs : t.step (c.heldBeside i) c.db c.mem n = some (t', d, m)) :
    Turn S picks I { db := d, mem := m, threads := c.threads.set i t' } := by
  obtain ⟨howed, hothers⟩ := h.busy i t ht hp
  have howed' := howed.run hn hs
  have hlt : i < c.threads.length := (List.getElem?_eq_some_iff.mp ht).1
  have hset : (c.threads.set i t')[i]? = some t' := by
    rw [List.getElem?_set_self hlt]
  refine ⟨fun hq => howed'.of_finished (hq t' (List.mem_of_getElem? hset)), fun j u hu hpu => ?_⟩
  rw [List.getElem?_set] at hu
  split_ifs at hu with hij
  · subst hij
    obtain rfl := Option.some.inj hu
    refine ⟨howed', fun k v hne hv => ?_⟩
    rw [List.getElem?_set_ne (Ne.symm hne)] at hv
    exact hothers k v hne hv
  · rw [hothers j u (Ne.symm hij) hu] at hpu
    cases hpu

/-- The world moves. -/
theorem Turn.world {c : Config C D W L M E R} (h : Turn S picks I c) {v : S.Move} {m : M}
    (hv : S.move v c.mem = some m) (hmove : I c.db c.mem → I c.db m) :
    Turn S picks I { c with mem := m } where
  idle hq := hmove (h.idle hq)
  busy i t ht hp := by
    obtain ⟨⟨halive, howed⟩, hothers⟩ := h.busy i t ht hp
    refine ⟨⟨halive, ?_⟩, hothers⟩
    have hend : t.finished = false := by simpa [Thread.inProgress, halive] using hp
    refine Prog.inTurn_drift (s := ⟨c.db, t.txn.view c.db, c.mem, t.txn.failed⟩)
      (fun hab hbc => hab.trans hbc) (.single ⟨v, hv⟩) howed ?_ ?_
    · intro a ha
      simp [Thread.finished, ha] at hend
    · intro e he
      simp [Thread.finished, he] at hend

/-- What every call keeps from its beginning to its end, and every move of the world, holds
whenever no call is in progress. -/
theorem System.Runs.inTurn_induction [DecidableEq L] {d : D} {m : M} {c : Config C D W L M E R}
    (hbody : ∀ k d m, I d m →
      (S.body k).inTurn S.Drift picks (fun _ s => I s.db s.mem) (Quiet.start d m))
    (hmove : ∀ v d m m', I d m → S.move v m = some m' → I d m') (hI : I d m)
    (h : S.Runs (S.InTurn picks) (Config.start d m) c) (hq : c.Quiescent) : I c.db c.mem := by
  have hturn : Turn S picks I c := by
    clear hq
    induction h with
    | refl => exact ⟨fun _ => hI, by simp [Config.start]⟩
    | @step b b' a _ ha hs ih =>
        cases a with
        | call k =>
            obtain rfl := Option.some.inj hs
            exact Turn.of_call ha ⟨rfl, hbody k b.db b.mem (ih.idle ha)⟩
        | run i n =>
            obtain ⟨t, ht, hs⟩ := Option.bind_eq_some_iff.mp hs
            split_ifs at hs with hdead
            obtain ⟨⟨t', d', m'⟩, hst, rfl⟩ := Option.map_eq_some_iff.mp hs
            refine ih.run ht ha ?_ hst
            have hend : t.finished = false := by
              cases hp : t.prog with
              | ret a => simp [Thread.step, hp] at hst
              | raise e => simp [Thread.step, hp] at hst
              | stmt locks writes check next error => simp [Thread.finished, hp]
              | commit next error => simp [Thread.finished, hp]
              | close next => simp [Thread.finished, hp]
              | memory update next => simp [Thread.finished, hp]
              | choose next => simp [Thread.finished, hp]
            simp [Thread.inProgress, hend, hdead]
        | fault i => exact ha.elim
        | kill i => exact ha.elim
        | restart => exact ha.elim
        | world v =>
            obtain ⟨m', hv, rfl⟩ := Option.map_eq_some_iff.mp hs
            exact ih.world hv fun hI => hmove v _ _ _ hI hv
  exact hturn.idle hq

end Runs

end Transactions
