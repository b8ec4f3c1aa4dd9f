import Sieshka.Transactions.Counting
import Sieshka.Transactions.Runs

/-!
# Runs with their history

What a call does after its first step may depend on the database that step was
taken on. Along a run with its history a call can be held to a promise about
that database, which a contract cannot mention.

## Implementation notes

The promise is kept by the rest of the call alone, so it is stated for calls that
expect nothing of the others beyond the rows they have locked.
-/

namespace Transactions

variable {C D W L M E R : Type} [RowStore D W L] [DecidableEq L]

namespace System

variable (S : System C D W L M E R)

/-- The runs from `c₀` with the steps they took, each with the configuration it was
taken in. Every step meets `ok`, given the steps before it. -/
inductive Histories
    (ok : List (Config C D W L M E R × Action C S.Move) → Config C D W L M E R →
      Action C S.Move → Prop) (c₀ : Config C D W L M E R) :
    List (Config C D W L M E R × Action C S.Move) → Config C D W L M E R → Prop
  | refl : Histories ok c₀ [] c₀
  | step {past c c' a} (h : Histories ok c₀ past c) (ha : ok past c a)
      (hs : S.step c a = some c') : Histories ok c₀ (past ++ [(c, a)]) c'

variable {S} {c₀ c c' : Config C D W L M E R} {a : Action C S.Move}
variable {past : List (Config C D W L M E R × Action C S.Move)}
variable {ok : List (Config C D W L M E R × Action C S.Move) → Config C D W L M E R →
  Action C S.Move → Prop}

theorem Histories.runs (h : S.Histories ok c₀ past c) : S.Runs (fun _ _ => True) c₀ c := by
  induction h with
  | refl => exact .refl
  | step _ _ hs ih => exact .step ih trivial hs

variable (S) in
/-- Take a list of steps, all of them enabled and allowed after the steps before. -/
def historyIf
    (ok : List (Config C D W L M E R × Action C S.Move) → Config C D W L M E R →
      Action C S.Move → Prop) [∀ past c a, Decidable (ok past c a)]
    (past : List (Config C D W L M E R × Action C S.Move)) (c : Config C D W L M E R) :
    List (Action C S.Move) →
      Option (List (Config C D W L M E R × Action C S.Move) × Config C D W L M E R)
  | [] => some (past, c)
  | a :: rest =>
      if ok past c a then (S.step c a).bind fun c' => historyIf ok (past ++ [(c, a)]) c' rest
      else none

theorem Histories.of_historyIf [∀ past c a, Decidable (ok past c a)] {as : List (Action C S.Move)}
    {past' : List (Config C D W L M E R × Action C S.Move)} (h₀ : S.Histories ok c₀ past c)
    (h : S.historyIf ok past c as = some (past', c')) : S.Histories ok c₀ past' c' := by
  induction as generalizing past c with
  | nil =>
      obtain ⟨rfl, rfl⟩ := Prod.mk.inj (Option.some.inj h)
      exact h₀
  | cons a rest ih =>
      rw [historyIf] at h
      split_ifs at h with ha
      obtain ⟨b, hs, hr⟩ := Option.bind_eq_some_iff.mp h
      exact ih (.step h₀ ha hs) hr

/-- What is computed at the end of a list of allowed steps is so after a run. -/
theorem Histories.exists_of_historyIf
    (ok : List (Config C D W L M E R × Action C S.Move) → Config C D W L M E R →
      Action C S.Move → Prop) [∀ past c a, Decidable (ok past c a)] (c : Config C D W L M E R)
    (as : List (Action C S.Move)) {α : Type} {f : Config C D W L M E R → α} {b : α}
    (h : ((S.historyIf ok [] c as).map fun s => f s.2) = some b) :
    ∃ past c', S.Histories ok c past c' ∧ f c' = b := by
  obtain ⟨s, hs, hf⟩ := Option.map_eq_some_iff.mp h
  exact ⟨s.1, s.2, .of_historyIf .refl hs, hf⟩

/-- The step is one of the `i`-th call. -/
def stepsFor (i : Nat) (s : Config C D W L M E R × Action C S.Move) : Bool :=
  match s.2 with
  | .run j _ => j = i
  | _ => false

/-- The configuration in which the `i`-th call took its first step. -/
def firstStep (past : List (Config C D W L M E R × Action C S.Move)) (i : Nat) :
    Option (Config C D W L M E R) :=
  (past.find? (stepsFor i)).map Prod.fst

omit [RowStore D W L] [DecidableEq L] in
theorem firstStep_concat (i : Nat) : firstStep (past ++ [(c, a)]) i =
    (firstStep past i).or (if stepsFor i (c, a) then some c else none) := by
  rw [firstStep, firstStep, List.find?_append, Option.map_or, List.find?_singleton]
  split_ifs
  · rfl
  · rfl

/-- A call that took a step is one of the run. -/
theorem Histories.lt_of_firstStep (h : S.Histories ok c₀ past c) {i : Nat}
    (hi : firstStep past i ≠ none) : i < c.threads.length := by
  induction h with
  | refl => exact absurd rfl hi
  | @step past c c' a _ _ hs ih =>
      have hlt : i < c.threads.length := by
        cases hf : firstStep past i with
        | some b => exact ih (by rw [hf]; exact Option.some_ne_none b)
        | none =>
            rw [firstStep_concat, hf, Option.none_or] at hi
            split_ifs at hi with hfor
            · cases a with
              | run j n =>
                  obtain rfl : j = i := by simpa [stepsFor] using hfor
                  simp only [System.step, Option.bind_eq_some_iff] at hs
                  obtain ⟨t, ht, -⟩ := hs
                  exact (List.getElem?_eq_some_iff.mp ht).1
              | call k => cases hfor
              | fault j => cases hfor
              | kill j => cases hfor
              | restart => cases hfor
              | world v => cases hfor
            · exact absurd rfl hi
      obtain ⟨u, hu, -⟩ := thread_of_step hs (List.getElem?_eq_getElem hlt)
      exact (List.getElem?_eq_some_iff.mp hu).1

end System

omit [RowStore D W L] [DecidableEq L] in
theorem Thread.call_of_fault {t u : Thread C D W L M E R} (h : t.fault = some u) :
    u.call = t.call ∧ u.dead = t.dead := by
  cases hp : t.prog <;> simp only [Thread.fault, hp, Option.some.injEq, reduceCtorEq] at h
  all_goals exact ⟨h ▸ rfl, h ▸ rfl⟩

namespace Contract

variable {S : System C D W L M E R} {K : Contract C D W L M E R} {c c' : Config C D W L M E R}
variable {a : Action C S.Move}

/-- The contract under which a call keeps the promise `g`. -/
def promising (K : Contract C D W L M E R) (g : List (D × D) → D × M → D × M → Prop) :
    Contract C D W L M E R :=
  { K with guar := fun _ => g, post := fun _ _ _ => True }

/-- The rest of a call keeps the promise `g`. -/
def Keeps (K : Contract C D W L M E R) (g : List (D × D) → D × M → D × M → Prop)
    (t : Thread C D W L M E R) (d : D) (m : M) : Prop :=
  (K.promising g).wp t.call t.prog (fun _ _ => True) (t.state d m)

/-- The rows a call holds stay as they are while others take steps. -/
theorem Ok.agree_of_step (hc : K.Ok c) (hs : S.step c a = some c') {j : Nat}
    {u : Thread C D W L M E R} (hu : c.threads[j]? = some u) (ha : ∀ n, a ≠ .run j n) :
    Agree u.txn.held c.db c'.db := by
  cases a with
  | call k =>
      obtain rfl := Option.some.inj hs
      exact .refl _ _
  | run i n =>
      simp only [System.step, Option.bind_eq_some_iff] at hs
      obtain ⟨t, ht, hs⟩ := hs
      split_ifs at hs
      obtain ⟨⟨t', d, m⟩, hstep, rfl⟩ := Option.map_eq_some_iff.mp hs
      have hij : i ≠ j := fun h => ha n (by rw [h])
      intro l hl
      apply Eq.symm
      apply (Thread.step_cases hstep).get_eq (hc.locked t (List.mem_of_getElem? ht))
      exact hc.disjoint j i u t hij.symm hu ht l hl
  | fault i =>
      simp only [System.step, Option.bind_eq_some_iff] at hs
      obtain ⟨t, -, hs⟩ := hs
      split_ifs at hs
      obtain ⟨t', -, rfl⟩ := Option.map_eq_some_iff.mp hs
      exact .refl _ _
  | kill i =>
      simp only [System.step, Option.bind_eq_some_iff] at hs
      obtain ⟨t, -, hs⟩ := hs
      split_ifs at hs
      obtain rfl := Option.some.inj hs
      exact .refl _ _
  | restart =>
      obtain rfl := Option.some.inj hs
      exact .refl _ _
  | world v =>
      obtain ⟨m, -, rfl⟩ := Option.map_eq_some_iff.mp hs
      exact .refl _ _

variable {g : List (D × D) → D × M → D × M → Prop}

omit [DecidableEq L] in
/-- A promise outlasts the steps of others. -/
theorem Keeps.stay (hrely : ∀ k s s', K.rely k s s') {t : Thread C D W L M E R} {d d' : D}
    {m m' : M} (hi : K.inv d' m') (ha : Agree t.txn.held d d') (h : K.Keeps g t d m) :
    K.Keeps g t d' m' := by
  apply wp_later (K := K.promising g) (x := t.state d m) (s := (d', m')) _ h
  · intro _ _
    trivial
  · intro _ _
    trivial
  · exact Later.step ⟨hrely _ _ _, ha⟩ hi

omit [DecidableEq L] in
/-- A step of the call itself keeps its promise, and what it does to the shared state
is as promised. -/
theorem Keeps.run (hK : ∀ b x, K.assume b x ∧ K.faulty b x) {others : List L}
    {t u : Thread C D W L M E R} {d d' : D} {m m' : M} (hi : K.inv d m)
    (hs : t.Step others d m u d' m') (h : K.Keeps g t d m) :
    K.Keeps g u d' m' ∧ (d' = d ∨ g t.commits (d, m) (d', m')) := by
  obtain ⟨hp, -, hw⟩ := hs.safe (K := K.promising g) hi (hK _ _).1 (fun _ => (hK _ _).2) h
  constructor
  · rw [Keeps, hs.call_eq]
    exact hw
  · rcases hp with ⟨hd, -, -⟩ | ⟨hg, -⟩
    · exact Or.inl hd
    · exact Or.inr hg

omit [DecidableEq L] in
/-- A refused step keeps the promise. -/
theorem Keeps.fault (hK : ∀ b x, K.assume b x ∧ K.faulty b x) {t u : Thread C D W L M E R} {d : D}
    {m : M} (hi : K.inv d m) (hs : t.fault = some u) (h : K.Keeps g t d m) : K.Keeps g u d m := by
  obtain ⟨hcall, -, -, hw⟩ :=
    Thread.fault_safe (K := K.promising g) hs hi (hK _ _).1 (hK _ _).2 h
  rw [Keeps, hcall]
  exact hw

/-- What a call is held to between its steps: its first step is ahead, or was refused
and it keeps any promise, or it keeps a promise about the database its first step was
taken on. -/
def Held (K : Contract C D W L M E R) (S : System C D W L M E R)
    (P : D → List (D × D) → D × M → D × M → Prop) (c : Config C D W L M E R)
    (t : Thread C D W L M E R) : Option (Config C D W L M E R) → Prop
  | some b => K.Keeps (P b.db) t c.db c.mem
  | none => t = { call := t.call, prog := S.body t.call } ∨ ∀ g, K.Keeps g t c.db c.mem

section Promises

variable {k : C} {P : D → List (D × D) → D × M → D × M → Prop}
variable {ok : List (Config C D W L M E R × Action C S.Move) → Config C D W L M E R →
  Action C S.Move → Prop} {past : List (Config C D W L M E R × Action C S.Move)}

/-- A call `k` whose first step only reads makes a promise about the database it has read. -/
structure Promise (K : Contract C D W L M E R) (S : System C D W L M E R) (k : C)
    (P : D → List (D × D) → D × M → D × M → Prop) : Prop where
  valid : K.Valid S
  allows : ∀ b a, K.Allows (S := S) b a
  rely : ∀ b s s', K.rely b s s'
  quiet : ∀ b x, K.assume b x ∧ K.faulty b x
  read : ∀ others d m u d' m', K.inv d m →
    ({ call := k, prog := S.body k } : Thread C D W L M E R).Step others d m u d' m' →
    d' = d ∧ K.Keeps (P d) u d' m'
  fault : ∀ d m u g, K.inv d m →
    ({ call := k, prog := S.body k } : Thread C D W L M E R).fault = some u → K.Keeps g u d m

/-- Every configuration of a run is in order. -/
theorem Promise.inOrder (hP : K.Promise S k P) {d₀ : D} {m₀ : M} (h₀ : K.inv d₀ m₀)
    (h : S.Histories ok (Config.start d₀ m₀) past c) : K.Ok c :=
  (Ok.start h₀).runs hP.valid (fun b a _ _ => hP.allows b a) h.runs

omit [DecidableEq L] in
/-- A call is held to the same while the others take steps. -/
theorem Held.stay (hrely : ∀ k s s', K.rely k s s') {t : Thread C D W L M E R}
    {first : Option (Config C D W L M E R)} (hi : K.inv c'.db c'.mem)
    (ha : Agree t.txn.held c.db c'.db) (h : K.Held S P c t first) : K.Held S P c' t first := by
  cases first with
  | some b => exact Keeps.stay hrely hi ha h
  | none =>
      rcases h with hfresh | hkeeps
      · exact Or.inl hfresh
      · exact Or.inr fun g => Keeps.stay hrely hi ha (hkeeps g)

omit [DecidableEq L] in
/-- A step of the call itself, its first one included: it reads, or keeps the promise. -/
theorem Promise.run (hP : K.Promise S k P) {others : List L} {t u : Thread C D W L M E R}
    {first : Option (Config C D W L M E R)} (hi : K.inv c.db c.mem) (hcall : t.call = k)
    (hs : t.Step others c.db c.mem u c'.db c'.mem) (h : K.Held S P c t first) :
    K.Held S P c' u (first.or (some c)) ∧ (c'.db = c.db ∨ ∃ b, first = some b ∧
      P b.db t.commits (c.db, c.mem) (c'.db, c'.mem)) := by
  cases first with
  | some b =>
      obtain ⟨hkeeps, hdone⟩ := Keeps.run hP.quiet hi hs h
      exact ⟨hkeeps, hdone.imp_right fun hg => ⟨b, rfl, hg⟩⟩
  | none =>
      rcases h with hfresh | hkeeps
      · rw [hcall] at hfresh
        rw [hfresh] at hs
        obtain ⟨hd, hread⟩ := hP.read _ _ _ _ _ _ hi hs
        exact ⟨hread, Or.inl hd⟩
      · -- a call that keeps every promise commits nothing
        have hnothing := (Keeps.run hP.quiet hi hs (hkeeps fun _ _ _ => False)).2
        exact ⟨(Keeps.run hP.quiet hi hs (hkeeps _)).1, Or.inl (hnothing.resolve_right id)⟩

omit [DecidableEq L] in
/-- A call whose step is refused is held to the same. -/
theorem Promise.refused (hP : K.Promise S k P) {t u : Thread C D W L M E R}
    {first : Option (Config C D W L M E R)} (hi : K.inv c.db c.mem) (hcall : t.call = k)
    (hs : t.fault = some u) (hd : c'.db = c.db) (hm : c'.mem = c.mem)
    (h : K.Held S P c t first) : K.Held S P c' u first := by
  cases first with
  | some b =>
      rw [Held, hd, hm]
      exact Keeps.fault hP.quiet hi hs h
  | none =>
      rw [Held, hd, hm]
      apply Or.inr
      intro g
      rcases h with hfresh | hkeeps
      · rw [hcall] at hfresh
        rw [hfresh] at hs
        exact hP.fault _ _ _ g hi hs
      · exact Keeps.fault hP.quiet hi hs (hkeeps g)

/-- A refused step leaves the shared state as it is. -/
theorem shared_of_fault {i : ℕ} (hs : S.step c (.fault i) = some c') :
    c'.db = c.db ∧ c'.mem = c.mem := by
  simp only [System.step, Option.bind_eq_some_iff] at hs
  obtain ⟨_, -, hs⟩ := hs
  split_ifs at hs
  obtain ⟨_, -, rfl⟩ := Option.map_eq_some_iff.mp hs
  exact ⟨rfl, rfl⟩

/-- A step that is not one of the call. -/
theorem Promise.others (hP : K.Promise S k P) (hok : K.Ok c) (hs : S.step c a = some c')
    {i : ℕ} {u : Thread C D W L M E R} {first : Option (Config C D W L M E R)}
    (hu : c'.threads[i]? = some u) (hcall : u.call = k) (hlive : u.dead = false)
    (hno : ∀ n, a ≠ .run i n) (hlate : c.threads.length ≤ i → first = none)
    (h : ∀ t, c.threads[i]? = some t → t.call = k → t.dead = false → K.Held S P c t first) :
    K.Held S P c' u first := by
  have hok' : K.Ok c' := (hok.step hP.valid (hP.allows c a) hs).1
  cases System.moved_of_step hs hu with
  | began k' ha hi hu' =>
      rw [hlate (by omega)]
      exact Or.inl (by rw [hu'])
  | stayed hstay =>
      exact (h u hstay hcall hlive).stay hP.rely hok'.inv (hok.agree_of_step hs hstay hno)
  | killed t _ hkill =>
      rw [hkill] at hlive
      cases hlive
  | ran t n ha _ _ => exact absurd ha (hno n)
  | faulted t ha ht hstep =>
      obtain ⟨hd, hm⟩ := shared_of_fault (ha ▸ hs)
      obtain ⟨hcall', hdead⟩ := Thread.call_of_fault hstep
      have hcall' : t.call = k := hcall'.symm.trans hcall
      exact hP.refused hok.inv hcall' hstep hd hm (h t ht hcall' (hdead.symm.trans hlive))

/-- Along a run every call `k` is held to the promise. -/
theorem Promise.held (hP : K.Promise S k P) {d₀ : D} {m₀ : M} (h₀ : K.inv d₀ m₀)
    (h : S.Histories ok (Config.start d₀ m₀) past c) : ∀ i t, c.threads[i]? = some t →
      t.call = k → t.dead = false → K.Held S P c t (System.firstStep past i) := by
  induction h with
  | refl =>
      intro i t ht
      simp [Config.start] at ht
  | @step past c c' a h _ hs ih =>
      have hok : K.Ok c := hP.inOrder h₀ h
      intro i u hu hcall hlive
      rw [System.firstStep_concat]
      by_cases hfor : System.stepsFor i (c, a) = true
      · obtain ⟨n, rfl⟩ : ∃ n, a = .run i n := by
          cases a with
          | run j n => exact ⟨n, by simpa [System.stepsFor] using hfor⟩
          | _ => cases hfor
        simp only [System.step, Option.bind_eq_some_iff] at hs
        obtain ⟨t, ht, hs⟩ := hs
        split_ifs at hs with hdead
        obtain ⟨⟨t', d, m⟩, hstep, rfl⟩ := Option.map_eq_some_iff.mp hs
        obtain rfl : t' = u := by
          rcases getElem?_set_cases hu with ⟨-, rfl⟩ | ⟨hne, -⟩
          · rfl
          · exact absurd rfl hne
        have hstep := Thread.step_cases hstep
        have hcall' : t.call = k := hstep.call_eq.symm.trans hcall
        rw [if_pos hfor]
        exact (hP.run hok.inv hcall' hstep (ih i t ht hcall' (by simpa using hdead))).1
      · rw [if_neg hfor, Option.or_none]
        apply hP.others hok hs hu hcall hlive _ _ (ih i)
        · rintro n rfl
          exact hfor (by simp [System.stepsFor])
        · intro hlate
          by_contra hfirst
          have hlt := h.lt_of_firstStep hfirst
          omega

/-- The commits of a call `k` are as promised. -/
theorem Promise.of_step (hP : K.Promise S k P) {d₀ : D} {m₀ : M} (h₀ : K.inv d₀ m₀)
    (h : S.Histories ok (Config.start d₀ m₀) past c) {i n : Nat} {t : Thread C D W L M E R}
    (ht : c.threads[i]? = some t) (hcall : t.call = k) (hs : S.step c (.run i n) = some c') :
    c'.db = c.db ∨ ∃ b, System.firstStep past i = some b ∧
      P b.db t.commits (c.db, c.mem) (c'.db, c'.mem) := by
  have hheld := hP.held h₀ h i t ht hcall
  simp only [System.step, ht, Option.bind_some] at hs
  split_ifs at hs with hdead
  obtain ⟨⟨t', d, m⟩, hstep, rfl⟩ := Option.map_eq_some_iff.mp hs
  have hstep := Thread.step_cases hstep
  exact (hP.run (hP.inOrder h₀ h).inv hcall hstep (hheld (by simpa using hdead))).2

end Promises

end Contract

end Transactions
