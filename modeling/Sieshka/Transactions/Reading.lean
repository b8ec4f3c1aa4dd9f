import Sieshka.Transactions.Counting

/-!
# Calls that only read

What a call comes to while a fact about the database lasts, when it writes
nothing as long as that fact holds: its results are read off its program, in
any interleaving with the others. And the run of one more call while all the
others stand still.
-/

namespace Transactions

variable {C D W L M E R α β : Type}

/-! ## Programs that write nothing while a fact holds -/

namespace Prog

/-- On databases with the property `I` the program writes nothing and ends as `Q`
says. -/
inductive Reads (I : D → Prop) (Q : Except E α → Prop) : Prog D W L M E α → Prop
  | ret {a} (h : Q (.ok a)) : Reads I Q (ret a)
  | raise {e} (h : Q (.error e)) : Reads I Q (raise e)
  | stmt {locks writes check next error} (hw : ∀ d, I d → writes d = [])
      (hn : ∀ d, I d → Reads I Q (next d)) (he : Reads I Q error) :
      Reads I Q (stmt locks writes check next error)
  | commit {next error} (hn : Reads I Q next) (he : Reads I Q error) :
      Reads I Q (commit next error)
  | close {next} (hn : Reads I Q next) : Reads I Q (close next)
  | memory {update next} (hn : ∀ m, Reads I Q (next m)) : Reads I Q (memory update next)
  | choose {next} (hn : ∀ n, Reads I Q (next n)) : Reads I Q (choose next)

variable {I : D → Prop} {Q : Except E α → Prop} {Q' : Except E β → Prop}

theorem Reads.andThen {p : Prog D W L M E α} {ok : α → Prog D W L M E β}
    {err : E → Prog D W L M E β} (h : p.Reads I Q)
    (hok : ∀ a, Q (.ok a) → (ok a).Reads I Q') (herr : ∀ e, Q (.error e) → (err e).Reads I Q') :
    (p.andThen ok err).Reads I Q' := by
  induction h with
  | ret h => exact hok _ h
  | raise h => exact herr _ h
  | stmt hw _ _ ihn ihe => exact .stmt hw ihn ihe
  | commit _ _ ihn ihe => exact .commit ihn ihe
  | close _ ih => exact .close ih
  | memory _ ih => exact .memory ih
  | choose _ ih => exact .choose ih

theorem Reads.bind {p : Prog D W L M E α} {f : α → Prog D W L M E β} (h : p.Reads I Q)
    (hok : ∀ a, Q (.ok a) → (f a).Reads I Q') (herr : ∀ e, Q (.error e) → Q' (.error e)) :
    (p >>= f).Reads I Q' :=
  h.andThen hok fun e he => .raise (herr e he)

theorem Reads.withSession {p : Prog D W L M E α} (h : p.Reads I Q) : (withSession p).Reads I Q :=
  h.andThen (fun _ ha => .close (.ret ha)) fun _ he => .close (.raise he)

theorem reads_commitSession [DatabaseError E] {Q : Except E Unit → Prop} (h : Q (.ok ()))
    (he : Q (.error DatabaseError.databaseError)) :
    (commitSession : Prog D W L M E Unit).Reads I Q :=
  .commit (.ret h) (.raise he)

end Prog

namespace Schema

variable [RowStore D W L] [DatabaseError E] {Row Key : Type} [DecidableEq Key] {key : Row → Key}
variable {I : D → Prop} (T : Schema D key)

theorem reads_find {k : Key} {Q : Except E (Option Row) → Prop}
    (h : ∀ d, I d → Q (.ok ((T.table d).find k))) (he : Q (.error DatabaseError.databaseError)) :
    (T.find k : Prog D W L M E _).Reads I Q :=
  .stmt (fun _ _ => rfl) (fun d hd => .ret (h d hd)) (.raise he)

/-- A row whose key is taken is not inserted. -/
theorem reads_insertIfAbsent {r : Row} {Q : Except E Bool → Prop}
    (hI : ∀ d, I d → ((T.table d).find (key r)).isSome = true) (h : Q (.ok false))
    (he : Q (.error DatabaseError.databaseError)) :
    (T.insertIfAbsent r : Prog D W L M E _).Reads I Q := by
  refine .stmt (fun d hd => if_pos (hI d hd)) (fun d hd => ?_) (.raise he)
  rw [hI d hd]
  exact .ret h

end Schema

variable [RowStore D W L]

namespace Thread

variable {others : List L} {t t' : Thread C D W L M E R} {d d' : D} {m m' : M}
variable {I : D → Prop} {Q : Except E R → Prop}

/-- The rest of a call that has written nothing, and writes nothing while `I` holds. -/
structure Reading (I : D → Prop) (Q : Except E R → Prop) (t : Thread C D W L M E R) : Prop where
  writes : t.txn.writes = []
  reads : t.prog.Reads I Q

theorem Reading.step (ht : t.Reading I Q) (h : t.Step others d m t' d' m') (hd : I d) :
    t'.Reading I Q ∧ d' = d := by
  obtain ⟨hw, hr⟩ := ht
  have hview : t.txn.view d = d := by rw [Txn.view, hw]; rfl
  cases h with
  | rejected hp _ => rw [hp] at hr; cases hr with | stmt _ _ he => exact ⟨⟨hw, he⟩, rfl⟩
  | executed hp _ _ _ =>
      rw [hp] at hr
      cases hr with
      | stmt hnone hn _ =>
          rw [hview]
          exact ⟨⟨by rw [Txn.extend_writes, hw, hview, hnone d hd]; rfl, hn d hd⟩, rfl⟩
  | violated hp _ _ => rw [hp] at hr; cases hr with | stmt _ _ he => exact ⟨⟨rfl, he⟩, rfl⟩
  | rolledBack hp _ => rw [hp] at hr; cases hr with | commit hn _ => exact ⟨⟨rfl, hn⟩, rfl⟩
  | committed hp _ => rw [hp] at hr; cases hr with | commit hn _ => exact ⟨⟨rfl, hn⟩, hview⟩
  | closed hp => rw [hp] at hr; cases hr with | close hn => exact ⟨⟨rfl, hn⟩, rfl⟩
  | memory hp => rw [hp] at hr; cases hr with | memory hn => exact ⟨⟨hw, hn m⟩, rfl⟩
  | chose hp n => rw [hp] at hr; cases hr with | choose hn => exact ⟨⟨hw, hn n⟩, rfl⟩

omit [RowStore D W L] in
theorem Reading.fault (ht : t.Reading I Q) (h : t.fault = some t') : t'.Reading I Q := by
  obtain ⟨-, hr⟩ := ht
  cases hp : t.prog <;> simp only [Thread.fault, hp, Option.some.injEq, reduceCtorEq] at h
  all_goals
    subst h
    rw [hp] at hr
    cases hr
    exact ⟨rfl, by assumption⟩

omit [RowStore D W L] in
theorem Reading.kill (ht : t.Reading I Q) : t.kill.Reading I Q := ⟨rfl, ht.reads⟩

omit [RowStore D W L] in
/-- What a call that only reads has ended with. -/
theorem Reading.result (ht : t.Reading I Q) {r : Except E R} (hr : t.result = some r) : Q r := by
  obtain ⟨-, hreads⟩ := ht
  rw [Thread.result] at hr
  split at hr
  · rename_i a _ hprog
    rw [hprog] at hreads
    cases hreads with
    | ret h => exact Option.some.inj hr ▸ h
  · rename_i e _ hprog
    rw [hprog] at hreads
    cases hreads with
    | raise h => exact Option.some.inj hr ▸ h
  · cases hr

end Thread

namespace System

variable [DecidableEq L] {S : System C D W L M E R} {c c' : Config C D W L M E R}
variable {I : D → Prop} {Q : Except E R → Prop}

/-- Calls that only read while `I` holds still do after a step. -/
theorem reading_of_step {a : Action C S.Move} (hs : S.step c a = some c') {j : Nat}
    {u : Thread C D W L M E R} (hu : c'.threads[j]? = some u) (hd : I c.db)
    (hbegin : ∀ k, a = .call k → j = c.threads.length → (S.body k).Reads I Q)
    (hold : ∀ t, c.threads[j]? = some t → t.Reading I Q) : u.Reading I Q := by
  cases moved_of_step hs hu with
  | began k ha hj hu => exact hu ▸ ⟨rfl, hbegin k ha hj⟩
  | stayed h => exact hold u h
  | killed t h hu => exact hu ▸ (hold t h).kill
  | ran t n _ h hs => exact ((hold t h).step hs hd).1
  | faulted t _ h hs => exact (hold t h).fault hs


end System

end Transactions
