import Sieshka.Transactions.Logic

/-!
# Contracts hold along every interleaving

When each call meets its contract on its own, every run keeps the contract's
invariant, every step is one the acting call promised, and a call that has
returned has met its postcondition. Row locks are what makes this sound: two
sessions never hold the same row, and a session writes only rows it holds.
-/

namespace Transactions

variable {C D W L M E R : Type} [RowStore D W L]

theorem get_foldl_put {ws : List W} {l : L} (h : l ∉ ws.map (RowStore.row D)) (d : D) :
    RowStore.get l (ws.foldl RowStore.put d) = RowStore.get l d := by
  induction ws generalizing d with
  | nil => rfl
  | cons w rest ih =>
      simp only [List.map_cons, List.mem_cons, not_or] at h
      rw [List.foldl_cons, ih h.2, RowStore.get_put_of_ne d w l h.1]

/-- The content a list of writes gives a row does not depend on the rest of
the database. -/
theorem get_foldl_put_congr {ws : List W} {d d' : D} {l : L}
    (h : RowStore.get l d = RowStore.get l d') :
    RowStore.get l (ws.foldl RowStore.put d) = RowStore.get l (ws.foldl RowStore.put d') := by
  induction ws generalizing d d' with
  | nil => exact h
  | cons w rest ih =>
      rw [List.foldl_cons, List.foldl_cons]
      apply ih
      by_cases hl : l = RowStore.row D w
      · subst hl
        exact RowStore.get_put_self d d' w
      · rw [RowStore.get_put_of_ne d w l hl, RowStore.get_put_of_ne d' w l hl, h]

namespace Thread

/-- The state of a call under the given shared state. -/
def state (t : Thread C D W L M E R) (d : D) (m : M) : CallState D W L M :=
  ⟨t.txn, t.commits, d, m⟩

omit [RowStore D W L] in
@[simp] theorem state_txn (t : Thread C D W L M E R) (d : D) (m : M) :
    (t.state d m).txn = t.txn := rfl

/-- The ways a call can take one step. -/
inductive Step (others : List L) (t : Thread C D W L M E R) (d : D) (m : M) :
    Thread C D W L M E R → D → M → Prop
  | rejected {locks writes check next error}
      (hp : t.prog = .stmt locks writes check next error) (hf : t.txn.failed = true) :
      Step others t d m { t with prog := error } d m
  | executed {locks writes check next error}
      (hp : t.prog = .stmt locks writes check next error) (hf : t.txn.failed = false)
      (hfree : ∀ l ∈ locks (t.txn.view d) ++
        (writes (t.txn.view d)).map (RowStore.row D), l ∉ others)
      (hc : check (t.txn.view d) = true) :
      Step others t d m
        { t with prog := next (t.txn.view d), txn := t.txn.extend d locks writes } d m
  | violated {locks writes check next error}
      (hp : t.prog = .stmt locks writes check next error) (hf : t.txn.failed = false)
      (hc : check (t.txn.view d) = false) :
      Step others t d m { t with prog := error, txn := .broken } d m
  | rolledBack {next error} (hp : t.prog = .commit next error)
      (hf : t.txn.failed = true) :
      Step others t d m { t with prog := next, txn := {} } d m
  | committed {next error} (hp : t.prog = .commit next error)
      (hf : t.txn.failed = false) :
      Step others t d m
        { t with prog := next, txn := {}, commits := t.commits ++ [(d, t.txn.view d)] }
        (t.txn.view d) m
  | closed {next} (hp : t.prog = .close next) :
      Step others t d m { t with prog := next, txn := {} } d m
  | memory {update next} (hp : t.prog = .memory update next) :
      Step others t d m { t with prog := next m } d (update m)
  | chose {next} (hp : t.prog = .choose next) (n : Nat) :
      Step others t d m { t with prog := next n } d m

theorem step_cases [DecidableEq L] {others : List L} {t t' : Thread C D W L M E R}
    {d d' : D} {m m' : M} {n : Nat} (h : t.step others d m n = some (t', d', m')) :
    Step others t d m t' d' m' := by
  cases hp : t.prog with
  | ret a => simp [step, hp] at h
  | raise e => simp [step, hp] at h
  | stmt locks writes check next error =>
      simp only [step, hp] at h
      split_ifs at h with hf hany hc
      · cases h
        exact .rejected hp hf
      · cases h
        refine .executed hp (by simpa using hf) (fun l hl ho => hany ?_) hc
        exact List.any_eq_true.mpr ⟨l, hl, by simpa using ho⟩
      · cases h
        exact .violated hp (by simpa using hf) (by simpa using hc)
  | commit next error =>
      simp only [step, hp] at h
      split_ifs at h with hf
      · cases h
        exact .rolledBack hp hf
      · cases h
        exact .committed hp (by simpa using hf)
  | close next =>
      simp only [step, hp] at h
      cases h
      exact .closed hp
  | memory update next =>
      simp only [step, hp] at h
      cases h
      exact .memory hp
  | choose next =>
      simp only [step, hp] at h
      cases h
      exact .chose hp n

section Step

variable {others : List L} {t t' : Thread C D W L M E R} {d d' : D} {m m' : M}

theorem Step.call_eq (h : t.Step others d m t' d' m') : t'.call = t.call := by
  cases h <;> rfl

theorem Step.dead_eq (h : t.Step others d m t' d' m') : t'.dead = t.dead := by
  cases h <;> rfl

/-- A step leaves the database alone or commits. -/
theorem Step.commits_cases (h : t.Step others d m t' d' m') :
    d' = d ∨ t'.commits = t.commits ++ [(d, d')] := by
  cases h with
  | committed => exact Or.inr rfl
  | rejected => exact Or.inl rfl
  | executed => exact Or.inl rfl
  | violated => exact Or.inl rfl
  | rolledBack => exact Or.inl rfl
  | closed => exact Or.inl rfl
  | memory => exact Or.inl rfl
  | chose => exact Or.inl rfl

/-- A step takes only row locks that no other session holds. -/
theorem Step.held_cases (h : t.Step others d m t' d' m') {l : L} (hl : l ∈ t'.txn.held) :
    l ∈ t.txn.held ∨ l ∉ others := by
  cases h with
  | rejected => exact Or.inl hl
  | executed _ _ hfree _ =>
      simp only [Txn.extend_held] at hl
      exact (List.mem_append.mp hl).imp_right (hfree l)
  | violated => simp [Txn.broken] at hl
  | rolledBack => simp at hl
  | committed => simp at hl
  | closed => simp at hl
  | memory => exact Or.inl hl
  | chose => exact Or.inl hl

/-- A session holds every row it has written. -/
theorem Step.locked (h : t.Step others d m t' d' m')
    (ht : ∀ w ∈ t.txn.writes, RowStore.row D w ∈ t.txn.held) :
    ∀ w ∈ t'.txn.writes, RowStore.row D w ∈ t'.txn.held := by
  cases h with
  | rejected => exact ht
  | executed _ _ _ _ =>
      intro w hw
      simp only [Txn.extend_held, Txn.extend_writes, List.mem_append] at hw ⊢
      rcases hw with hw | hw
      · exact Or.inl (ht w hw)
      · exact Or.inr (Or.inr (List.mem_map_of_mem hw))
  | violated => simp [Txn.broken]
  | rolledBack => simp
  | committed => simp
  | closed => simp
  | memory => exact ht
  | chose => exact ht

/-- A step changes committed rows only where the session holds the row. -/
theorem Step.get_eq (h : t.Step others d m t' d' m')
    (ht : ∀ w ∈ t.txn.writes, RowStore.row D w ∈ t.txn.held) {l : L}
    (hl : l ∉ t.txn.held) : RowStore.get l d' = RowStore.get l d := by
  cases h with
  | committed =>
      apply get_foldl_put
      intro hm
      obtain ⟨w, hw, rfl⟩ := List.mem_map.mp hm
      exact hl (ht w hw)
  | rejected => rfl
  | executed => rfl
  | violated => rfl
  | rolledBack => rfl
  | closed => rfl
  | memory => rfl
  | chose => rfl

/-- What a step of a call did: nothing to the shared state, or a commit or a
memory write that the call had promised. -/
def Promised (K : Contract C D W L M E R) (t t' : Thread C D W L M E R) (d : D) (m : M)
    (d' : D) (m' : M) : Prop :=
  (d' = d ∧ m' = m ∧ t'.commits = t.commits) ∨
    K.guar t.call t.commits (d, m) (d', m') ∧
      (m' = m ∧ t'.commits = t.commits ++ [(d, d')] ∨ d' = d ∧ t'.commits = t.commits)

/-- One step of a call that meets its contract: the shared state changes as
promised, and the rest of the call still meets the contract. -/
theorem Step.safe {K : Contract C D W L M E R}
    {Q : Except E R → CallState D W L M → Prop} (h : t.Step others d m t' d' m')
    (hi : K.inv d m) (ha : K.assume t.call (t.state d m))
    (hf' : t.refused d = true → K.faulty t.call (t.state d m))
    (hw : K.wp t.call t.prog Q (t.state d m)) :
    Promised K t t' d m d' m' ∧ K.inv d' m' ∧
      K.wp t.call t'.prog Q (t'.state d' m') := by
  have hnow : K.Later t.call (t.state d m) (d, m) := Contract.Later.refl hi
  cases h with
  | rejected hp hf =>
      rw [hp] at hw
      have h₁ := (hw (d, m) hnow ha).1
      simp only [state_txn, hf, if_true] at h₁
      exact ⟨Or.inl ⟨rfl, rfl, rfl⟩, hi, h₁⟩
  | executed hp hf _ hc =>
      rw [hp] at hw
      have h₁ := (hw (d, m) hnow ha).1
      simp only [state_txn, hf, if_false, Bool.false_eq_true] at h₁
      exact ⟨Or.inl ⟨rfl, rfl, rfl⟩, hi, h₁ hc⟩
  | violated hp hf hc =>
      have hfaulty := hf' (by simp [refused, hp, hf, hc])
      rw [hp] at hw
      exact ⟨Or.inl ⟨rfl, rfl, rfl⟩, hi, (hw (d, m) hnow ha).2 hfaulty⟩
  | rolledBack hp hf =>
      rw [hp] at hw
      have h₁ := (hw (d, m) hnow ha).1
      simp only [state_txn, hf, if_true] at h₁
      exact ⟨Or.inl ⟨rfl, rfl, rfl⟩, hi, h₁⟩
  | committed hp hf =>
      rw [hp] at hw
      have h₁ := (hw (d, m) hnow ha).1
      simp only [state_txn, hf, if_false, Bool.false_eq_true] at h₁
      exact ⟨Or.inr ⟨h₁.1, Or.inl ⟨rfl, rfl⟩⟩, h₁.2.1, h₁.2.2⟩
  | closed hp =>
      rw [hp] at hw
      exact ⟨Or.inl ⟨rfl, rfl, rfl⟩, hi, hw (d, m) hnow ha⟩
  | @memory update _ hp =>
      rw [hp] at hw
      obtain ⟨hg, hi', hw'⟩ := hw (d, m) hnow ha
      refine ⟨?_, hi', hw'⟩
      by_cases hu : update m = m
      · exact Or.inl ⟨rfl, hu, rfl⟩
      · exact Or.inr ⟨hg hu, Or.inr ⟨rfl, rfl⟩⟩
  | chose hp n =>
      rw [hp] at hw
      exact ⟨Or.inl ⟨rfl, rfl, rfl⟩, hi, hw (d, m) hnow ha n⟩

end Step

/-- A call the database failed goes on in its exception handler. -/
theorem fault_safe {K : Contract C D W L M E R}
    {Q : Except E R → CallState D W L M → Prop} {t t' : Thread C D W L M E R} {d : D} {m : M}
    (h : t.fault = some t') (hi : K.inv d m) (ha : K.assume t.call (t.state d m))
    (hf : K.faulty t.call (t.state d m)) (hw : K.wp t.call t.prog Q (t.state d m)) :
    t'.call = t.call ∧ t'.txn = .broken ∧ t'.commits = t.commits ∧
      K.wp t.call t'.prog Q (t'.state d m) := by
  have hnow : K.Later t.call (t.state d m) (d, m) := Contract.Later.refl hi
  cases hp : t.prog with
  | stmt locks writes check next error =>
      rw [hp] at hw
      simp only [fault, hp, Option.some.injEq] at h
      subst h
      exact ⟨rfl, rfl, rfl, (hw (d, m) hnow ha).2 hf⟩
  | commit next error =>
      rw [hp] at hw
      simp only [fault, hp, Option.some.injEq] at h
      subst h
      exact ⟨rfl, rfl, rfl, (hw (d, m) hnow ha).2 hf⟩
  | ret a => simp [fault, hp] at h
  | raise e => simp [fault, hp] at h
  | close next => simp [fault, hp] at h
  | memory update next => simp [fault, hp] at h
  | choose next => simp [fault, hp] at h

end Thread

/-- The database changes only by a commit, which is recorded with the call. -/
theorem System.db_of_step [DecidableEq L] {S : System C D W L M E R} {c c' : Config C D W L M E R} {a : Action C S.Move} (h : S.step c a = some c') :
    c'.db = c.db ∨ ∃ i n t t', a = .run i n ∧ c.threads[i]? = some t ∧ c'.threads[i]? = some t' ∧
      t'.call = t.call ∧ t'.commits = t.commits ++ [(c.db, c'.db)] := by
  cases a with
  | call k =>
      obtain rfl := Option.some.inj h
      exact Or.inl rfl
  | run i n =>
      simp only [System.step, Option.bind_eq_some_iff] at h
      obtain ⟨t, ht, h⟩ := h
      split_ifs at h with hdead
      obtain ⟨⟨t', d, m⟩, hstep, rfl⟩ := Option.map_eq_some_iff.mp h
      have hset : (c.threads.set i t')[i]? = some t' := by
        obtain ⟨hi, -⟩ := List.getElem?_eq_some_iff.mp ht
        simp [hi]
      rcases (Thread.step_cases hstep).commits_cases with hd | hc
      · exact Or.inl hd
      · exact Or.inr ⟨i, n, t, t', rfl, ht, hset, (Thread.step_cases hstep).call_eq, hc⟩
  | fault i =>
      simp only [System.step, Option.bind_eq_some_iff] at h
      obtain ⟨t, -, h⟩ := h
      split_ifs at h
      obtain ⟨t', -, rfl⟩ := Option.map_eq_some_iff.mp h
      exact Or.inl rfl
  | kill i =>
      simp only [System.step, Option.bind_eq_some_iff] at h
      obtain ⟨t, -, h⟩ := h
      split_ifs at h
      obtain rfl := Option.some.inj h
      exact Or.inl rfl
  | restart =>
      obtain rfl := Option.some.inj h
      exact Or.inl rfl
  | world v =>
      obtain ⟨m, -, rfl⟩ := Option.map_eq_some_iff.mp h
      exact Or.inl rfl

namespace Contract

variable (K : Contract C D W L M E R) (S : System C D W L M E R)

/-- One step of the whole system as the shared state sees it. -/
def Happens (s s' : D × M) : Prop :=
  (∃ c past, K.calls c ∧ K.guar c past s s') ∨
    (∃ v, s'.1 = s.1 ∧ S.move v s.2 = some s'.2) ∨ s' = (s.1, S.restart s.2)

/-- Every call meets its contract on its own, and the promises of each are
enough for the expectations of all others. -/
structure Valid : Prop where
  body : ∀ c d m, K.calls c → K.inv d m → K.wp c (S.body c) (K.post c) ⟨{}, [], d, m⟩
  compat : ∀ c c' past s s', K.calls c → K.calls c' → K.apart c c' → K.inv s.1 s.2 →
    K.guar c past s s' → K.rely c' s s'
  move : ∀ v d m m', S.move v m = some m' → K.inv d m →
    K.inv d m' ∧ ∀ c, K.rely c (d, m) (d, m')
  restart : ∀ d m, K.inv d m → K.inv d (S.restart m)
  post : ∀ c r x s, K.Happens S (x.db, x.mem) s → K.post c r x → K.post c r (x.now s)

variable {S}

/-- The steps a run under the contract may take. -/
def Allows (c : Config C D W L M E R) : Action C S.Move → Prop
  | .call k => K.calls k ∧
      ∀ t ∈ c.threads, t.inProgress = true → K.apart k t.call ∧ K.apart t.call k
  | .run i _ => ∀ t, c.threads[i]? = some t → K.assume t.call (t.state c.db c.mem) ∧
      (t.refused c.db = true → K.faulty t.call (t.state c.db c.mem))
  | .fault i => ∀ t, c.threads[i]? = some t →
      K.assume t.call (t.state c.db c.mem) ∧ K.faulty t.call (t.state c.db c.mem)
  | _ => True

variable (S)

/-- What one step of a run did to the shared state, and on whose behalf. -/
inductive Caused (c c' : Config C D W L M E R) : Prop
  | nothing (hd : c'.db = c.db) (hm : c'.mem = c.mem) (hc : c'.commits = c.commits)
  | committed (t : Thread C D W L M E R) (ht : t ∈ c.threads)
      (hg : K.guar t.call t.commits (c.db, c.mem) (c'.db, c'.mem)) (hm : c'.mem = c.mem)
      (hc : c'.commits.Perm ((t.call, c.db, c'.db) :: c.commits))
  | wrote (t : Thread C D W L M E R) (ht : t ∈ c.threads)
      (hg : K.guar t.call t.commits (c.db, c.mem) (c'.db, c'.mem)) (hd : c'.db = c.db)
      (hc : c'.commits = c.commits)
  | restarted (hd : c'.db = c.db) (hm : c'.mem = S.restart c.mem) (hc : c'.commits = c.commits)
  | moved (v : S.Move) (hd : c'.db = c.db) (hm : S.move v c.mem = some c'.mem)
      (hc : c'.commits = c.commits)

variable {S}

/-- The commits of a call, each of which the call had promised. -/
inductive Recorded (k : C) : List (D × D) → Prop
  | nil : Recorded k []
  | snoc {past d d'} (h : Recorded k past) (m : M) (hg : K.guar k past (d, m) (d', m)) :
      Recorded k (past ++ [(d, d')])

end Contract

end Transactions
