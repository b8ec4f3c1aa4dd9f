import Sieshka.Transactions.Runs

/-!
# Counting steps of a run

How often something happens in a run: a count kept along the run, and a bound
on what one call can add to it that is read off its program. A kind of step
that only one call can take, and that its program has once, is taken at most
once in any run.
-/

namespace Transactions

variable {C D W L M E R α β : Type}

/-! ## Programs that write the memory a bounded number of times -/

namespace Prog

/-- On every path the program makes at most `n` memory writes that change the
memory as `Δ` says. -/
inductive Within (Δ : M → M → Prop) : Prog D W L M E α → Nat → Prop
  | ret (x : α) (n : Nat) : Within Δ (ret x) n
  | raise (e : E) (n : Nat) : Within Δ (raise e) n
  | stmt {locks writes check next error n} (hn : ∀ d, Within Δ (next d) n)
      (he : Within Δ error n) : Within Δ (stmt locks writes check next error) n
  | commit {next error n} (hn : Within Δ next n) (he : Within Δ error n) :
      Within Δ (commit next error) n
  | close {next n} (hn : Within Δ next n) : Within Δ (close next) n
  | keeps {update next n} (hno : ∀ m, ¬ Δ m (update m)) (hn : ∀ m, Within Δ (next m) n) :
      Within Δ (memory update next) n
  | writes {update next n} (hn : ∀ m, Within Δ (next m) n) : Within Δ (memory update next) (n + 1)
  | choose {next n} (hn : ∀ i, Within Δ (next i) n) : Within Δ (choose next) n

attribute [simp] Within.ret Within.raise

variable {Δ : M → M → Prop} {a b : Nat}

theorem Within.mono {p : Prog D W L M E α} (h : p.Within Δ a) :
    ∀ {b}, a ≤ b → p.Within Δ b := by
  induction h with
  | ret x _ => exact fun _ => .ret x _
  | raise e _ => exact fun _ => .raise e _
  | stmt _ _ ihn ihe => exact fun hab => .stmt (fun d => ihn d hab) (ihe hab)
  | commit _ _ ihn ihe => exact fun hab => .commit (ihn hab) (ihe hab)
  | close _ ih => exact fun hab => .close (ih hab)
  | keeps hno _ ih => exact fun hab => .keeps hno fun m => ih m hab
  | writes _ ih =>
      intro b hab
      obtain ⟨k, rfl⟩ : ∃ k, b = k + 1 := ⟨b - 1, by omega⟩
      exact .writes fun m => ih m (by omega)
  | choose _ ih => exact fun hab => .choose fun i => ih i hab

/-- A program and what follows it add up. -/
theorem Within.andThen {p : Prog D W L M E α} {ok : α → Prog D W L M E β}
    {err : E → Prog D W L M E β} (h : p.Within Δ a) (hok : ∀ x, (ok x).Within Δ b)
    (herr : ∀ e, (err e).Within Δ b) : (p.andThen ok err).Within Δ (a + b) := by
  induction h with
  | ret x _ => exact (hok x).mono (Nat.le_add_left _ _)
  | raise e _ => exact (herr e).mono (Nat.le_add_left _ _)
  | stmt _ _ ihn ihe => exact .stmt ihn ihe
  | commit _ _ ihn ihe => exact .commit ihn ihe
  | close _ ih => exact .close ih
  | keeps hno _ ih => exact .keeps hno ih
  | @writes _ _ n _ ih =>
      rw [Nat.add_right_comm]
      exact .writes ih
  | choose _ ih => exact .choose ih

theorem Within.bind {p : Prog D W L M E α} {f : α → Prog D W L M E β} (hp : p.Within Δ a)
    (hf : ∀ x, (f x).Within Δ b) : (p >>= f).Within Δ (a + b) :=
  hp.andThen hf fun e => .raise e b

theorem Within.withSession {p : Prog D W L M E α} (h : p.Within Δ a) :
    (withSession p).Within Δ a :=
  h.andThen (fun x => .close (.ret x 0)) fun e => .close (.raise e 0)

/-- A program that never writes the memory as `Δ` says. -/
def Quiet (Δ : M → M → Prop) (p : Prog D W L M E α) : Prop := p.Within Δ 0

theorem Quiet.within {p : Prog D W L M E α} (h : p.Quiet Δ) (n : Nat) : p.Within Δ n :=
  Within.mono h (Nat.zero_le n)

@[simp] theorem quiet_ret (x : α) : (ret x : Prog D W L M E α).Quiet Δ := .ret x 0

@[simp] theorem quiet_raise (e : E) : (raise e : Prog D W L M E α).Quiet Δ := .raise e 0

theorem Quiet.andThen {p : Prog D W L M E α} {ok : α → Prog D W L M E β}
    {err : E → Prog D W L M E β} (hp : p.Quiet Δ) (hok : ∀ x, (ok x).Quiet Δ)
    (herr : ∀ e, (err e).Quiet Δ) : (p.andThen ok err).Quiet Δ :=
  Within.andThen hp hok herr

theorem Quiet.bind {p : Prog D W L M E α} {f : α → Prog D W L M E β} (hp : p.Quiet Δ)
    (hf : ∀ x, (f x).Quiet Δ) : (p >>= f).Quiet Δ := Within.bind hp hf

theorem Quiet.withSession {p : Prog D W L M E α} (h : p.Quiet Δ) : (withSession p).Quiet Δ :=
  Within.withSession h

@[simp] theorem quiet_commitSession [DatabaseError E] :
    (commitSession : Prog D W L M E Unit).Quiet Δ := .commit (.ret _ 0) (.raise _ 0)

@[simp] theorem quiet_select [DatabaseError E] (f : D → α) :
    (select f : Prog D W L M E α).Quiet Δ := .stmt (fun _ => .ret _ 0) (.raise _ 0)

end Prog

namespace Schema

variable [RowStore D W L] [DatabaseError E] {Row Key : Type} [DecidableEq Key] {key : Row → Key}
variable {Δ : M → M → Prop} (T : Schema D key)

@[simp] theorem quiet_find (k : Key) : (T.find k : Prog D W L M E _).Quiet Δ :=
  .stmt (fun _ => .ret _ 0) (.raise _ 0)

@[simp] theorem quiet_findForUpdate (k : Key) : (T.findForUpdate k : Prog D W L M E _).Quiet Δ :=
  .stmt (fun _ => .ret _ 0) (.raise _ 0)

@[simp] theorem quiet_update (k : Key) (f : Row → Row) :
    (T.update k f : Prog D W L M E _).Quiet Δ := .stmt (fun _ => .ret _ 0) (.raise _ 0)

@[simp] theorem quiet_updateIf (taken : Bool) (k : Key) (f : Row → Row) :
    (T.updateIf taken k f : Prog D W L M E _).Quiet Δ := .stmt (fun _ => .ret _ 0) (.raise _ 0)

@[simp] theorem quiet_insertIfAbsent (r : Row) :
    (T.insertIfAbsent r : Prog D W L M E _).Quiet Δ := .stmt (fun _ => .ret _ 0) (.raise _ 0)

@[simp] theorem quiet_upsert (r : Row) : (T.upsert r : Prog D W L M E _).Quiet Δ :=
  .stmt (fun _ => .ret _ 0) (.raise _ 0)

@[simp] theorem quiet_insert (check : D → Bool) (r : Row) :
    (T.insert check r : Prog D W L M E _).Quiet Δ := .stmt (fun _ => .ret _ 0) (.raise _ 0)

end Schema

variable [RowStore D W L]

/-! ## What a step does to one call -/

namespace Thread

variable {others : List L} {t t' : Thread C D W L M E R} {d d' : D} {m m' : M}
variable {Δ : M → M → Prop} {n : Nat}

/-- A step that changes the memory as `Δ` says uses up one of the writes. -/
theorem Step.within_of_change (h : t.Step others d m t' d' m') (hw : t.prog.Within Δ n)
    (hΔ : Δ m m') (hirr : ∀ m, ¬ Δ m m) : ∃ k, n = k + 1 ∧ t'.prog.Within Δ k := by
  cases h with
  | memory hp =>
      rw [hp] at hw
      cases hw with
      | keeps hno _ => exact absurd hΔ (hno m)
      | @writes _ _ k hn => exact ⟨k, rfl, hn m⟩
  | rejected => exact absurd hΔ (hirr m)
  | executed => exact absurd hΔ (hirr m)
  | violated => exact absurd hΔ (hirr m)
  | rolledBack => exact absurd hΔ (hirr m)
  | committed => exact absurd hΔ (hirr m)
  | closed => exact absurd hΔ (hirr m)
  | chose => exact absurd hΔ (hirr m)

theorem Step.within (h : t.Step others d m t' d' m') (hw : t.prog.Within Δ n) :
    t'.prog.Within Δ n := by
  cases h with
  | rejected hp => rw [hp] at hw; cases hw; assumption
  | executed hp => rw [hp] at hw; cases hw with | stmt hn _ => exact hn _
  | violated hp => rw [hp] at hw; cases hw; assumption
  | rolledBack hp => rw [hp] at hw; cases hw; assumption
  | committed hp => rw [hp] at hw; cases hw; assumption
  | closed hp => rw [hp] at hw; cases hw; assumption
  | memory hp =>
      rw [hp] at hw
      cases hw with
      | keeps _ hn => exact hn m
      | @writes _ _ k hn => exact (hn m).mono (Nat.le_succ k)
  | chose hp i => rw [hp] at hw; cases hw with | choose hn => exact hn i

/-- A step adds at most its own commit. -/
theorem Step.past_cases (h : t.Step others d m t' d' m') :
    t'.commits = t.commits ∨ t'.commits = t.commits ++ [(d, d')] := by
  cases h with
  | committed => exact Or.inr rfl
  | rejected => exact Or.inl rfl
  | executed => exact Or.inl rfl
  | violated => exact Or.inl rfl
  | rolledBack => exact Or.inl rfl
  | closed => exact Or.inl rfl
  | memory => exact Or.inl rfl
  | chose => exact Or.inl rfl

/-- The commits of a call are added to. -/
theorem Step.commits_prefix (h : t.Step others d m t' d' m') : t.commits <+: t'.commits := by
  rcases h.past_cases with h | h
  · exact h ▸ List.prefix_rfl
  · exact h ▸ List.prefix_append _ _

omit [RowStore D W L] in
theorem within_of_fault (h : t.fault = some t') (hw : t.prog.Within Δ n) :
    t'.prog.Within Δ n := by
  cases hp : t.prog <;> simp only [fault, hp, Option.some.injEq, reduceCtorEq] at h
  all_goals
    subst h
    rw [hp] at hw
    cases hw
    assumption

end Thread

namespace System

variable [DecidableEq L] {S : System C D W L M E R} {c c' : Config C D W L M E R}
variable {a : Action C S.Move}

/-- How a call comes to where it is after a step of the system. -/
inductive Moved (c c' : Config C D W L M E R) (a : Action C S.Move) (j : Nat)
    (u : Thread C D W L M E R) : Prop
  | began (k : C) (ha : a = .call k) (hj : j = c.threads.length)
      (hu : u = { call := k, prog := S.body k })
  | stayed (h : c.threads[j]? = some u)
  | killed (t : Thread C D W L M E R) (h : c.threads[j]? = some t) (hu : u = t.kill)
  | ran (t : Thread C D W L M E R) (n : Nat) (ha : a = .run j n) (h : c.threads[j]? = some t)
      (hs : t.Step (c.heldBeside j) c.db c.mem u c'.db c'.mem)
  | faulted (t : Thread C D W L M E R) (ha : a = .fault j) (h : c.threads[j]? = some t)
      (hs : t.fault = some u)

theorem moved_of_step (hs : S.step c a = some c') {j : Nat} {u : Thread C D W L M E R}
    (hu : c'.threads[j]? = some u) : S.Moved c c' a j u := by
  cases a with
  | call k =>
      obtain rfl := Option.some.inj hs
      rw [List.getElem?_append] at hu
      split_ifs at hu with hj
      · exact .stayed hu
      · rw [List.getElem?_singleton] at hu
        split_ifs at hu with h₀
        exact .began k rfl (by omega) (Option.some.inj hu).symm
  | run i n =>
      simp only [System.step, Option.bind_eq_some_iff] at hs
      obtain ⟨t, ht, hs⟩ := hs
      split_ifs at hs
      obtain ⟨⟨t', d, m⟩, hstep, rfl⟩ := Option.map_eq_some_iff.mp hs
      rcases getElem?_set_cases hu with ⟨rfl, rfl⟩ | ⟨-, hu⟩
      · exact .ran t n rfl ht (Thread.step_cases hstep)
      · exact .stayed hu
  | fault i =>
      simp only [System.step, Option.bind_eq_some_iff] at hs
      obtain ⟨t, ht, hs⟩ := hs
      split_ifs at hs
      obtain ⟨t', hstep, rfl⟩ := Option.map_eq_some_iff.mp hs
      rcases getElem?_set_cases hu with ⟨rfl, rfl⟩ | ⟨-, hu⟩
      · exact .faulted t rfl ht hstep
      · exact .stayed hu
  | kill i =>
      simp only [System.step, Option.bind_eq_some_iff] at hs
      obtain ⟨t, ht, hs⟩ := hs
      split_ifs at hs
      obtain rfl := Option.some.inj hs
      rcases getElem?_set_cases hu with ⟨rfl, rfl⟩ | ⟨-, hu⟩
      · exact .killed t ht rfl
      · exact .stayed hu
  | restart =>
      obtain rfl := Option.some.inj hs
      rw [List.getElem?_map, Option.map_eq_some_iff] at hu
      obtain ⟨t, ht, rfl⟩ := hu
      split_ifs
      · exact .killed t ht rfl
      · exact .stayed ht
  | world v =>
      obtain ⟨m, -, rfl⟩ := Option.map_eq_some_iff.mp hs
      exact .stayed hu

/-- What a call has committed after a step: nothing when it has just begun, and at
most the commit of the step more than before. -/
theorem past_of_step (hs : S.step c a = some c') {j : Nat} {u : Thread C D W L M E R}
    (hu : c'.threads[j]? = some u) : u.commits = [] ∨ ∃ t, c.threads[j]? = some t ∧
      u.call = t.call ∧ (u.commits = t.commits ∨ u.commits = t.commits ++ [(c.db, c'.db)]) := by
  cases moved_of_step hs hu with
  | began k _ _ hu => exact Or.inl (hu ▸ rfl)
  | stayed h => exact Or.inr ⟨u, h, rfl, Or.inl rfl⟩
  | killed t h hu => exact Or.inr ⟨t, h, hu ▸ rfl, Or.inl (hu ▸ rfl)⟩
  | ran t n _ h hs => exact Or.inr ⟨t, h, hs.call_eq, hs.past_cases⟩
  | faulted t _ h hs =>
      cases hp : t.prog <;> simp only [Thread.fault, hp, Option.some.injEq, reduceCtorEq] at hs
      all_goals exact Or.inr ⟨t, h, hs ▸ rfl, Or.inl (hs ▸ rfl)⟩

/-- A call keeps its place, and its commits are added to. -/
theorem thread_of_step (hs : S.step c a = some c') {j : Nat} {t : Thread C D W L M E R}
    (ht : c.threads[j]? = some t) :
    ∃ u, c'.threads[j]? = some u ∧ u.call = t.call ∧ t.commits <+: u.commits := by
  have hj : j < c.threads.length := (List.getElem?_eq_some_iff.mp ht).1
  have hlen : j < c'.threads.length := by
    cases a with
    | call k =>
        obtain rfl := Option.some.inj hs
        simp only [List.length_append]
        omega
    | run i n =>
        simp only [System.step, Option.bind_eq_some_iff] at hs
        obtain ⟨_, _, hs⟩ := hs
        split_ifs at hs
        obtain ⟨_, _, rfl⟩ := Option.map_eq_some_iff.mp hs
        simpa using hj
    | fault i =>
        simp only [System.step, Option.bind_eq_some_iff] at hs
        obtain ⟨_, _, hs⟩ := hs
        split_ifs at hs
        obtain ⟨_, _, rfl⟩ := Option.map_eq_some_iff.mp hs
        simpa using hj
    | kill i =>
        simp only [System.step, Option.bind_eq_some_iff] at hs
        obtain ⟨_, _, hs⟩ := hs
        split_ifs at hs
        obtain rfl := Option.some.inj hs
        simpa using hj
    | restart =>
        obtain rfl := Option.some.inj hs
        simpa using hj
    | world v =>
        obtain ⟨_, _, rfl⟩ := Option.map_eq_some_iff.mp hs
        exact hj
  obtain ⟨u, hu⟩ : ∃ u, c'.threads[j]? = some u := ⟨_, List.getElem?_eq_getElem hlen⟩
  refine ⟨u, hu, ?_⟩
  have hsame : ∀ v, c.threads[j]? = some v → v = t := fun v hv =>
    Option.some.inj (hv.symm.trans ht)
  cases moved_of_step hs hu with
  | began k _ hj' _ => omega
  | stayed h => exact hsame u h ▸ ⟨rfl, List.prefix_rfl⟩
  | killed v h hu => exact hsame v h ▸ hu ▸ ⟨rfl, List.prefix_rfl⟩
  | ran v n _ h hs =>
      obtain rfl := hsame v h
      exact ⟨hs.call_eq, hs.commits_prefix⟩
  | faulted v _ h hs =>
      obtain rfl := hsame v h
      cases hp : v.prog <;> simp only [Thread.fault, hp, Option.some.injEq, reduceCtorEq] at hs
      all_goals exact hs ▸ ⟨rfl, List.prefix_rfl⟩

/-- Only a call that has steps left takes one. -/
theorem inProgress_of_run {i n : Nat} {t : Thread C D W L M E R} (hs : S.step c (.run i n) = some c')
    (ht : c.threads[i]? = some t) : t.inProgress = true := by
  simp only [System.step, ht, Option.bind_some] at hs
  split_ifs at hs with hdead
  obtain ⟨⟨t', d, m⟩, hstep, -⟩ := Option.map_eq_some_iff.mp hs
  cases hp : t.prog with
  | ret a => simp [Thread.step, hp] at hstep
  | raise e => simp [Thread.step, hp] at hstep
  | stmt locks writes check next error => simp [Thread.inProgress, Thread.finished, hp, hdead]
  | commit next error => simp [Thread.inProgress, Thread.finished, hp, hdead]
  | close next => simp [Thread.inProgress, Thread.finished, hp, hdead]
  | memory update next => simp [Thread.inProgress, Thread.finished, hp, hdead]
  | choose next => simp [Thread.inProgress, Thread.finished, hp, hdead]

/-- A call that has ended stays as it is. -/
theorem thread_of_idle (hs : S.step c a = some c') {j : Nat} {t : Thread C D W L M E R}
    (ht : c.threads[j]? = some t) (hidle : t.inProgress = false) : c'.threads[j]? = some t := by
  obtain ⟨u, hu, -⟩ := thread_of_step hs ht
  have hsame : ∀ v, c.threads[j]? = some v → v = t := fun v hv =>
    Option.some.inj (hv.symm.trans ht)
  cases a with
  | call k =>
      obtain rfl := Option.some.inj hs
      rw [List.getElem?_append_left (List.getElem?_eq_some_iff.mp ht).1]
      exact ht
  | run i n =>
      by_cases hij : i = j
      · subst hij
        rw [inProgress_of_run hs ht] at hidle
        cases hidle
      · simp only [System.step, Option.bind_eq_some_iff] at hs
        obtain ⟨v, -, hs⟩ := hs
        split_ifs at hs
        obtain ⟨_, _, rfl⟩ := Option.map_eq_some_iff.mp hs
        exact (List.getElem?_set_ne hij).trans ht
  | fault i =>
      simp only [System.step, Option.bind_eq_some_iff] at hs
      obtain ⟨v, hv, hs⟩ := hs
      split_ifs at hs with hdead
      obtain ⟨v', hf, rfl⟩ := Option.map_eq_some_iff.mp hs
      by_cases hij : i = j
      · subst hij
        obtain rfl := hsame v hv
        cases hp : v.prog <;> simp_all [Thread.fault, Thread.inProgress, Thread.finished]
      · exact (List.getElem?_set_ne hij).trans ht
  | kill i =>
      simp only [System.step, Option.bind_eq_some_iff] at hs
      obtain ⟨v, hv, hs⟩ := hs
      split_ifs at hs with hprog
      obtain rfl := Option.some.inj hs
      by_cases hij : i = j
      · subst hij
        obtain rfl := hsame v hv
        rw [hprog] at hidle
        cases hidle
      · exact (List.getElem?_set_ne hij).trans ht
  | restart =>
      obtain rfl := Option.some.inj hs
      rw [List.getElem?_map, ht, Option.map_some, hidle]
      rfl
  | world v =>
      obtain ⟨m, -, rfl⟩ := Option.map_eq_some_iff.mp hs
      exact ht

variable (S)

/-! ## Runs with a count -/

/-- The runs from `c₀` whose steps meet `ok`, with the number of their steps that
are of the kind `q`. -/
inductive Tally (ok : Config C D W L M E R → Action C S.Move → Prop)
    (q : Config C D W L M E R → Action C S.Move → Config C D W L M E R → Prop)
    (c₀ : Config C D W L M E R) : Config C D W L M E R → Nat → Prop
  | refl : Tally ok q c₀ c₀ 0
  | other {c c' a n} : Tally ok q c₀ c n → ok c a → S.step c a = some c' → ¬ q c a c' →
      Tally ok q c₀ c' n
  | counted {c c' a n} : Tally ok q c₀ c n → ok c a → S.step c a = some c' → q c a c' →
      Tally ok q c₀ c' (n + 1)

variable {S} {ok : Config C D W L M E R → Action C S.Move → Prop}
variable {q : Config C D W L M E R → Action C S.Move → Config C D W L M E R → Prop}
variable {c₀ : Config C D W L M E R}

theorem Tally.runs {n : Nat} (h : S.Tally ok q c₀ c n) : S.Runs ok c₀ c := by
  induction h with
  | refl => exact .refl
  | other _ ha hs _ ih => exact .step ih ha hs
  | counted _ ha hs _ ih => exact .step ih ha hs

/-- What holds in every configuration of a run may be asked of its steps. -/
theorem Runs.also {P : Config C D W L M E R → Prop} (hP : ∀ b, S.Runs ok c₀ b → P b)
    (h : S.Runs ok c₀ c) : S.Runs (fun b a => ok b a ∧ P b) c₀ c := by
  induction h with
  | refl => exact .refl
  | step hr ha hs ih => exact .step ih ⟨ha, hP _ hr⟩ hs

/-- The step is one of the `i`-th call, which is one of `J`, and changes the memory
as `Δ` says. -/
def Writes (J : C → Prop) (Δ : M → M → Prop) (i : Nat) (b : Config C D W L M E R)
    (a : Action C S.Move) (b' : Config C D W L M E R) : Prop :=
  (∃ n, a = .run i n) ∧ (∃ t, b.threads[i]? = some t ∧ J t.call) ∧ Δ b.mem b'.mem

/-- Only one call can make such a step, and its program has one of them: it is
made once. -/
theorem Tally.le_one {J : C → Prop} {Δ : M → M → Prop} (hirr : ∀ m, ¬ Δ m m)
    (hbody : ∀ k, J k → (S.body k).Within Δ 1) (h₀ : c₀.threads = [])
    (owner : Config C D W L M E R → Nat → Prop)
    (hown : ∀ b a b' i, S.Runs ok c₀ b → ok b a → S.step b a = some b' → S.Writes J Δ i b a b' →
      owner b i)
    (hkeep : ∀ b a b' i, S.Runs ok c₀ b → ok b a → S.step b a = some b' → owner b i → owner b' i)
    (hone : ∀ b i j, S.Runs ok c₀ b → owner b i → owner b j → i = j) {n : Nat}
    (h : S.Tally ok (fun b a b' => ∃ i, S.Writes J Δ i b a b') c₀ c n) : n ≤ 1 := by
  suffices hinv : (∀ (j : Nat) (u : Thread C D W L M E R), c.threads[j]? = some u → J u.call →
      u.prog.Within Δ 1) ∧
      (n = 0 ∨ n = 1 ∧ ∃ i, ∃ u : Thread C D W L M E R, owner c i ∧ c.threads[i]? = some u ∧ J u.call ∧
        u.prog.Within Δ 0) by
    rcases hinv.2 with h | ⟨h, -⟩ <;> omega
  have hstep : ∀ {b b' : Config C D W L M E R} {a : Action C S.Move},
      S.step b a = some b' →
      (∀ (j : Nat) (u : Thread C D W L M E R), b.threads[j]? = some u → J u.call → u.prog.Within Δ 1) →
      ∀ (j : Nat) (u : Thread C D W L M E R), b'.threads[j]? = some u → J u.call → u.prog.Within Δ 1 := by
    intro b b' a hs ih j u hu hJ
    cases moved_of_step hs hu with
    | began k _ _ hu => exact hu ▸ hbody k (by rw [hu] at hJ; exact hJ)
    | stayed h => exact ih j u h hJ
    | killed t h hu => exact hu ▸ ih j t h (by rw [hu] at hJ; exact hJ)
    | ran t i _ h hs => exact hs.within (ih j t h (hs.call_eq ▸ hJ))
    | faulted t _ h hs =>
        have hcall : u.call = t.call := by
          cases hp : t.prog <;> simp only [Thread.fault, hp, Option.some.injEq, reduceCtorEq] at hs
          all_goals exact hs ▸ rfl
        exact Thread.within_of_fault hs (ih j t h (hcall ▸ hJ))
  have hafter : ∀ {b b' : Config C D W L M E R} {a : Action C S.Move} {i : Nat}
      {u : Thread C D W L M E R} {k : Nat}, S.step b a = some b' → b.threads[i]? = some u →
      J u.call → u.prog.Within Δ k →
      ∃ v, b'.threads[i]? = some v ∧ J v.call ∧ v.prog.Within Δ k := by
    intro b b' a i u k hs hu hJ hw
    obtain ⟨v, hv, hcall, -⟩ := thread_of_step hs hu
    refine ⟨v, hv, hcall ▸ hJ, ?_⟩
    have hlt : i < b.threads.length := (List.getElem?_eq_some_iff.mp hu).1
    have hsame : ∀ w, b.threads[i]? = some w → w = u := fun w hw =>
      Option.some.inj (hw.symm.trans hu)
    cases moved_of_step hs hv with
    | began _ _ hj _ => omega
    | stayed h => exact hsame v h ▸ hw
    | killed t h hv => exact hv ▸ hsame t h ▸ hw
    | ran t _ _ h hs => exact hs.within (hsame t h ▸ hw)
    | faulted t _ h hs => exact Thread.within_of_fault hs (hsame t h ▸ hw)
  induction h with
  | refl => exact ⟨by simp [h₀], Or.inl rfl⟩
  | @other b b' a k hr ha hs _ ih =>
      obtain ⟨hall, hk⟩ := ih
      refine ⟨hstep hs hall, hk.imp_right ?_⟩
      rintro ⟨rfl, i, u, ho, hu, hJ, hw⟩
      obtain ⟨v, hv, hJv, hwv⟩ := hafter hs hu hJ hw
      exact ⟨rfl, i, v, hkeep b a b' i hr.runs ha hs ho, hv, hJv, hwv⟩
  | @counted b b' a k hr ha hs hq ih =>
      obtain ⟨hall, hk⟩ := ih
      obtain ⟨i, hi⟩ := hq
      have ho := hown b a b' i hr.runs ha hs hi
      obtain ⟨⟨n, rfl⟩, ⟨t, ht, hJ⟩, hΔ⟩ := hi
      obtain ⟨v, hv, hcall, -⟩ := thread_of_step hs ht
      -- the step the call has made
      have hran : ∀ {m}, t.prog.Within Δ m → ∃ m', m = m' + 1 ∧ v.prog.Within Δ m' := by
        intro m hw
        have hlt : i < b.threads.length := (List.getElem?_eq_some_iff.mp ht).1
        simp only [System.step, ht, Option.bind_some] at hs
        split_ifs at hs
        obtain ⟨⟨t', d, m₁⟩, hstep, rfl⟩ := Option.map_eq_some_iff.mp hs
        have hv' : (b.threads.set i t')[i]? = some v := hv
        rw [List.getElem?_set_self hlt] at hv'
        obtain rfl := Option.some.inj hv'
        exact (Thread.step_cases hstep).within_of_change hw hΔ hirr
      obtain ⟨m', hm', hw⟩ := hran (hall i t ht hJ)
      obtain rfl : m' = 0 := by omega
      rcases hk with rfl | ⟨rfl, j, u, hoj, hu, -, hw₀⟩
      · exact ⟨hstep hs hall, Or.inr ⟨rfl, i, v, hkeep b _ b' i hr.runs ha hs ho, hv,
          hcall ▸ hJ, hw⟩⟩
      · -- the call that has made it before is the same, and has none left
        obtain rfl := hone b i j hr.runs ho hoj
        obtain rfl := Option.some.inj (ht.symm.trans hu)
        obtain ⟨m'', hm'', -⟩ := hran hw₀
        omega

end System

end Transactions
