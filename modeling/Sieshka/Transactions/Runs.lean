import Sieshka.Transactions.Soundness

/-!
# Runs under a contract

The invariant of a whole configuration: the shared state meets the contract's
invariant, no row lock is held twice, and every call that is alive still meets
its contract from where it stands. Each enabled step keeps it.
-/

namespace Transactions

variable {C D W L M E R : Type} [RowStore D W L]

theorem getElem?_set_cases {α : Type} {l : List α} {i j : Nat} {a b : α}
    (h : (l.set i a)[j]? = some b) : j = i ∧ b = a ∨ j ≠ i ∧ l[j]? = some b := by
  rw [List.getElem?_set] at h
  split_ifs at h with hij hi
  · exact Or.inl ⟨hij.symm, (Option.some.inj h).symm⟩
  · exact Or.inr ⟨fun he => hij he.symm, h⟩

namespace Contract

variable (K : Contract C D W L M E R)

/-- A configuration that a run under the contract can be in. -/
structure Ok (c : Config C D W L M E R) : Prop where
  inv : K.inv c.db c.mem
  calls : ∀ t ∈ c.threads, K.calls t.call
  locked : ∀ t ∈ c.threads, ∀ w ∈ t.txn.writes, RowStore.row D w ∈ t.txn.held
  disjoint : ∀ (i j : Nat) t u, i ≠ j → c.threads[i]? = some t → c.threads[j]? = some u →
    ∀ l ∈ t.txn.held, l ∉ u.txn.held
  apart : ∀ (i j : Nat) t u, i ≠ j → c.threads[i]? = some t → c.threads[j]? = some u →
    t.inProgress = true → u.inProgress = true → K.apart t.call u.call
  recorded : ∀ t ∈ c.threads, K.Recorded t.call t.commits
  safe : ∀ t ∈ c.threads, t.dead = false → K.wp t.call t.prog (K.post t.call) (t.state c.db c.mem)

variable {K} {S : System C D W L M E R} {c c' : Config C D W L M E R}

theorem Ok.start {d : D} {m : M} (hi : K.inv d m) :
    K.Ok (Config.start d m : Config C D W L M E R) where
  inv := hi
  calls := by simp [Config.start]
  locked := by simp [Config.start]
  disjoint := by simp [Config.start]
  apart := by simp [Config.start]
  recorded := by simp [Config.start]
  safe := by simp [Config.start]

/-- What a call is owed survives a step of another. -/
theorem Valid.safe_of_happens (hV : K.Valid S) {t : Thread C D W L M E R} {d : D} {m : M}
    {s : D × M} (hdead : t.dead = false) (hi : K.inv s.1 s.2) (hh : K.Happens S (d, m) s)
    (hl : t.inProgress = true → K.Meanwhile t.call t.txn.held (d, m) s)
    (hw : K.wp t.call t.prog (K.post t.call) (t.state d m)) :
    K.wp t.call t.prog (K.post t.call) (t.state s.1 s.2) := by
  by_cases hp : t.inProgress = true
  · refine wp_later (x := t.state d m) (Later.step (hl hp) hi) hw (fun a ha => ?_) fun e he => ?_
    · simp [Thread.inProgress, Thread.finished, ha] at hp
    · simp [Thread.inProgress, Thread.finished, he] at hp
  · cases hq : t.prog with
    | ret a =>
        rw [hq] at hw
        exact hV.post t.call (.ok a) (t.state d m) s hh hw
    | raise e =>
        rw [hq] at hw
        exact hV.post t.call (.error e) (t.state d m) s hh hw
    | stmt locks writes check next error =>
        simp [Thread.inProgress, Thread.finished, hdead, hq] at hp
    | commit next error => simp [Thread.inProgress, Thread.finished, hdead, hq] at hp
    | close next => simp [Thread.inProgress, Thread.finished, hdead, hq] at hp
    | memory update next => simp [Thread.inProgress, Thread.finished, hdead, hq] at hp
    | choose next => simp [Thread.inProgress, Thread.finished, hdead, hq] at hp

/-- One call takes a step and the shared state changes as the others allow. -/
theorem Ok.replace (hc : K.Ok c) {i : Nat} {t t' : Thread C D W L M E R} {d : D} {m : M}
    (ht : c.threads[i]? = some t) (hcall : t'.call = t.call)
    (hprog : t'.inProgress = true → t.inProgress = true)
    (hheld : ∀ l ∈ t'.txn.held, l ∈ t.txn.held ∨ l ∉ c.heldBeside i)
    (hlocked : ∀ w ∈ t'.txn.writes, RowStore.row D w ∈ t'.txn.held)
    (hrec : K.Recorded t'.call t'.commits) (hi : K.inv d m)
    (hsafe : t'.dead = false → K.wp t'.call t'.prog (K.post t'.call) (t'.state d m))
    (hothers : ∀ u ∈ c.threads, u.dead = false → (∀ l ∈ u.txn.held, l ∉ t.txn.held) →
      (u.inProgress = true → t.inProgress = true → K.apart t.call u.call) →
      K.wp u.call u.prog (K.post u.call) (u.state d m)) :
    K.Ok { db := d, mem := m, threads := c.threads.set i t' } := by
  have hmem : ∀ u, u ∈ c.threads.set i t' → u = t' ∨
      u ∈ c.threads ∧ ∃ j, j ≠ i ∧ c.threads[j]? = some u := by
    intro u hu
    obtain ⟨j, hj⟩ := List.mem_iff_getElem?.mp hu
    rcases getElem?_set_cases hj with ⟨-, rfl⟩ | ⟨hne, hj⟩
    · exact Or.inl rfl
    · exact Or.inr ⟨List.mem_of_getElem? hj, j, hne, hj⟩
  have hbeside : ∀ j u, j ≠ i → c.threads[j]? = some u → ∀ l ∈ u.txn.held, l ∈ c.heldBeside i := by
    intro j u hne hu l hl
    exact List.mem_flatMap.mpr ⟨u, List.mem_eraseIdx_iff_getElem?.mpr ⟨j, hne, hu⟩, hl⟩
  refine ⟨hi, fun u hu => ?_, fun u hu => ?_, fun j k u v hne hu hv => ?_,
    fun j k u v hne hu hv hpu hpv => ?_, fun u hu => ?_, fun u hu hdead => ?_⟩
  · rcases hmem u hu with rfl | ⟨hu, -⟩
    · exact hcall ▸ hc.calls t (List.mem_of_getElem? ht)
    · exact hc.calls u hu
  · rcases hmem u hu with rfl | ⟨hu, -⟩
    · exact hlocked
    · exact hc.locked u hu
  · intro l hl hl'
    rcases getElem?_set_cases hu with ⟨rfl, rfl⟩ | ⟨hj, hju⟩
    · rcases getElem?_set_cases hv with ⟨rfl, -⟩ | ⟨hk, hkv⟩
      · exact hne rfl
      · rcases hheld l hl with h | h
        · exact hc.disjoint j k t v hne ht hkv l h hl'
        · exact h (hbeside k v hk hkv l hl')
    · rcases getElem?_set_cases hv with ⟨rfl, rfl⟩ | ⟨hk, hkv⟩
      · rcases hheld l hl' with h | h
        · exact hc.disjoint j k u t hne hju ht l hl h
        · exact h (hbeside j u hj hju l hl)
      · exact hc.disjoint j k u v hne hju hkv l hl hl'
  · rcases getElem?_set_cases hu with ⟨rfl, rfl⟩ | ⟨hj, hju⟩
    · rcases getElem?_set_cases hv with ⟨rfl, -⟩ | ⟨hk, hkv⟩
      · exact absurd rfl hne
      · exact hcall ▸ hc.apart j k t v hne ht hkv (hprog hpu) hpv
    · rcases getElem?_set_cases hv with ⟨rfl, rfl⟩ | ⟨hk, hkv⟩
      · exact hcall ▸ hc.apart j k u t hne hju ht hpu (hprog hpv)
      · exact hc.apart j k u v hne hju hkv hpu hpv
  · rcases hmem u hu with rfl | ⟨hu, -⟩
    · exact hrec
    · exact hc.recorded u hu
  · rcases hmem u hu with rfl | ⟨hu, j, hj, hju⟩
    · exact hsafe hdead
    · refine hothers u hu hdead (fun l hl hl' => ?_) fun hpu hpt => ?_
      · exact hc.disjoint j i u t hj hju ht l hl hl'
      · exact hc.apart i j t u hj.symm ht hju hpt hpu

/-- A call's own step: what it did it had promised. -/
theorem Ok.run (hV : K.Valid S) (hc : K.Ok c) {i : Nat} {t t' : Thread C D W L M E R} {d : D}
    {m : M} (ht : c.threads[i]? = some t) (hdead : t.dead = false)
    (ha : K.assume t.call (t.state c.db c.mem))
    (hf : t.refused c.db = true → K.faulty t.call (t.state c.db c.mem))
    (h : t.Step (c.heldBeside i) c.db c.mem t' d m) :
    K.Ok { db := d, mem := m, threads := c.threads.set i t' } ∧
      t.Promised K t' c.db c.mem d m := by
  have hmem := List.mem_of_getElem? ht
  obtain ⟨hg, hi, hw⟩ := h.safe hc.inv ha hf (hc.safe t hmem hdead)
  have hprog : t.inProgress = true := by
    cases h <;> simp [Thread.inProgress, Thread.finished, *]
  refine ⟨hc.replace ht h.call_eq (fun _ => hprog) (fun l hl => h.held_cases hl)
    (h.locked (hc.locked t hmem)) ?_ hi (fun _ => by rw [h.call_eq]; exact hw)
    fun u hu hdu hheld hap => ?_, hg⟩
  · have hrec := hc.recorded t hmem
    rw [h.call_eq]
    rcases hg with ⟨-, -, he⟩ | ⟨hg, ⟨rfl, he⟩ | ⟨-, he⟩⟩
    · exact he ▸ hrec
    · exact he ▸ hrec.snoc c.mem hg
    · exact he ▸ hrec
  · rcases hg with ⟨rfl, rfl, -⟩ | ⟨hg, -⟩
    · exact hc.safe u hu hdu
    · refine hV.safe_of_happens (s := (d, m)) hdu hi
        (Or.inl ⟨t.call, t.commits, hc.calls t hmem, hg⟩) (fun hpu => ⟨?_, fun l hl => ?_⟩)
        (hc.safe u hu hdu)
      · exact hV.compat t.call u.call t.commits _ _ (hc.calls t hmem) (hc.calls u hu)
          (hap hpu hprog) hc.inv hg
      · exact (h.get_eq (hc.locked t hmem) (hheld l hl)).symm

omit [RowStore D W L] in
/-- Replacing a call by one with more commits adds these commits. -/
theorem commits_set {i : Nat} {t t' : Thread C D W L M E R} {ts : List (Thread C D W L M E R)}
    (ht : ts[i]? = some t) (hcall : t'.call = t.call) {p : List (D × D)}
    (hp : t'.commits = t.commits ++ p) :
    ((ts.set i t').flatMap fun t => t.commits.map fun q => (t.call, q)).Perm
      (p.map (fun q => (t.call, q)) ++ ts.flatMap fun t => t.commits.map fun q => (t.call, q)) := by
  obtain ⟨hi, hti⟩ := List.getElem?_eq_some_iff.mp ht
  have hts : ts = ts.take i ++ t :: ts.drop (i + 1) := by
    rw [← hti, ← List.drop_eq_getElem_cons hi, List.take_append_drop]
  rw [List.set_eq_take_append_cons_drop, if_pos hi]
  conv_rhs => rw [hts]
  simp only [List.flatMap_append, List.flatMap_cons, hp, hcall, List.map_append]
  rw [← List.append_assoc, ← List.append_assoc, ← List.append_assoc, ← List.append_assoc]
  refine List.Perm.append_right _ ?_
  rw [List.append_assoc (p.map _)]
  exact List.perm_append_comm

omit [RowStore D W L] in
theorem commits_set_same {i : Nat} {t t' : Thread C D W L M E R}
    {ts : List (Thread C D W L M E R)} (ht : ts[i]? = some t) (hcall : t'.call = t.call)
    (hp : t'.commits = t.commits) :
    ((ts.set i t').flatMap fun t => t.commits.map fun q => (t.call, q)) =
      ts.flatMap fun t => t.commits.map fun q => (t.call, q) := by
  obtain ⟨hi, hti⟩ := List.getElem?_eq_some_iff.mp ht
  have hts : ts = ts.take i ++ t :: ts.drop (i + 1) := by
    rw [← hti, ← List.drop_eq_getElem_cons hi, List.take_append_drop]
  rw [List.set_eq_take_append_cons_drop, if_pos hi]
  conv_rhs => rw [hts]
  simp only [List.flatMap_append, List.flatMap_cons, hp, hcall]

/-- A call begins. -/
theorem Ok.call (hV : K.Valid S) (hc : K.Ok c) {k : C} (hk : K.calls k)
    (hap : ∀ t ∈ c.threads, t.inProgress = true → K.apart k t.call ∧ K.apart t.call k) :
    K.Ok { c with threads := c.threads ++ [{ call := k, prog := S.body k }] } := by
  have hget : ∀ (j : Nat) (u : Thread C D W L M E R),
      (c.threads ++ [({ call := k, prog := S.body k } : Thread C D W L M E R)])[j]? = some u →
      c.threads[j]? = some u ∨ j = c.threads.length ∧ u = { call := k, prog := S.body k } := by
    intro j u hu
    rw [List.getElem?_append] at hu
    split_ifs at hu with hj
    · exact Or.inl hu
    · rw [List.getElem?_singleton] at hu
      split_ifs at hu with h₀
      exact Or.inr ⟨by omega, (Option.some.inj hu).symm⟩
  have hmem : ∀ u : Thread C D W L M E R,
      u ∈ c.threads ++ [({ call := k, prog := S.body k } : Thread C D W L M E R)] →
      u ∈ c.threads ∨ u = { call := k, prog := S.body k } := by
    intro u hu
    rcases List.mem_append.mp hu with hu | hu
    · exact Or.inl hu
    · exact Or.inr (List.mem_singleton.mp hu)
  refine ⟨hc.inv, fun u hu => ?_, fun u hu => ?_, fun i j t u hne ht hu => ?_,
    fun i j t u hne ht hu hpt hpu => ?_, fun u hu => ?_, fun u hu hdead => ?_⟩
  · rcases hmem u hu with hu | rfl
    · exact hc.calls u hu
    · exact hk
  · rcases hmem u hu with hu | rfl
    · exact hc.locked u hu
    · simp
  · rcases hget i t ht with hit | ⟨-, rfl⟩
    · rcases hget j u hu with hju | ⟨-, rfl⟩
      · exact hc.disjoint i j t u hne hit hju
      · simp
    · simp
  · rcases hget i t ht with hit | ⟨hi, rfl⟩
    · rcases hget j u hu with hju | ⟨-, rfl⟩
      · exact hc.apart i j t u hne hit hju hpt hpu
      · exact (hap t (List.mem_of_getElem? hit) hpt).2
    · rcases hget j u hu with hju | ⟨hj, rfl⟩
      · exact (hap u (List.mem_of_getElem? hju) hpu).1
      · exact absurd (hi.trans hj.symm) hne
  · rcases hmem u hu with hu | rfl
    · exact hc.recorded u hu
    · exact .nil
  · rcases hmem u hu with hu | rfl
    · exact hc.safe u hu hdead
    · exact hV.body k c.db c.mem hk hc.inv

/-- Every call in progress dies with the process. -/
theorem Ok.restart (hV : K.Valid S) (hc : K.Ok c) :
    K.Ok { c with
      mem := S.restart c.mem
      threads := c.threads.map fun t => if t.inProgress then t.kill else t } := by
  have hmem : ∀ u ∈ (c.threads.map fun t => if t.inProgress then t.kill else t),
      ∃ t ∈ c.threads, u = t.kill ∨ u = t ∧ t.inProgress = false := by
    intro u hu
    obtain ⟨t, ht, rfl⟩ := List.mem_map.mp hu
    refine ⟨t, ht, ?_⟩
    split_ifs with hp
    · exact Or.inl rfl
    · exact Or.inr ⟨rfl, by simpa using hp⟩
  have hget : ∀ (j : Nat) (u : Thread C D W L M E R),
      (c.threads.map fun t => if t.inProgress then t.kill else t)[j]? = some u →
      ∃ t, c.threads[j]? = some t ∧ (u = t.kill ∨ u = t ∧ t.inProgress = false) := by
    intro j u hu
    rw [List.getElem?_map, Option.map_eq_some_iff] at hu
    obtain ⟨t, ht, rfl⟩ := hu
    refine ⟨t, ht, ?_⟩
    split_ifs with hp
    · exact Or.inl rfl
    · exact Or.inr ⟨rfl, by simpa using hp⟩
  refine ⟨hV.restart c.db c.mem hc.inv, fun u hu => ?_, fun u hu => ?_,
    fun i j t u hne ht hu l hl => ?_, fun i j t u hne ht hu hpt hpu => ?_, fun u hu => ?_,
    fun u hu hdead => ?_⟩
  · obtain ⟨t, ht, rfl | ⟨rfl, -⟩⟩ := hmem u hu
    · exact hc.calls t ht
    · exact hc.calls _ ht
  · obtain ⟨t, ht, rfl | ⟨rfl, -⟩⟩ := hmem u hu
    · simp [Thread.kill]
    · exact hc.locked _ ht
  · obtain ⟨t', ht', rfl | ⟨rfl, -⟩⟩ := hget i t ht
    · simp [Thread.kill] at hl
    · obtain ⟨u', hu', rfl | ⟨rfl, -⟩⟩ := hget j u hu
      · simp [Thread.kill]
      · exact hc.disjoint i j _ _ hne ht' hu' l hl
  · obtain ⟨t', -, rfl | ⟨rfl, hp⟩⟩ := hget i t ht
    · simp [Thread.kill, Thread.inProgress] at hpt
    · simp [hp] at hpt
  · obtain ⟨t, ht, rfl | ⟨rfl, -⟩⟩ := hmem u hu
    · exact hc.recorded t ht
    · exact hc.recorded _ ht
  · obtain ⟨t, ht, rfl | ⟨rfl, hp⟩⟩ := hmem u hu
    · simp [Thread.kill] at hdead
    · exact hV.safe_of_happens (d := c.db) (m := c.mem) (s := (c.db, S.restart c.mem)) hdead
        (hV.restart c.db c.mem hc.inv) (Or.inr (Or.inr rfl)) (by simp [hp])
        (hc.safe _ ht hdead)

/-- A step of the system keeps the configuration in order, and the shared state
changes as the acting call had promised, by a restart or by the world outside. -/
theorem Ok.step [DecidableEq L] (hV : K.Valid S) (hc : K.Ok c) {a : Action C S.Move}
    (ha : K.Allows c a) (hs : S.step c a = some c') : K.Ok c' ∧ K.Caused S c c' := by
  cases a with
  | call k =>
      simp only [System.step, Option.some.injEq] at hs
      subst hs
      exact ⟨hc.call hV ha.1 ha.2, .nothing rfl rfl (by simp [Config.commits])⟩
  | run i n =>
      simp only [System.step, Option.bind_eq_some_iff] at hs
      obtain ⟨t, ht, hs⟩ := hs
      split_ifs at hs with hdead
      rw [Option.map_eq_some_iff] at hs
      obtain ⟨⟨t', d, m⟩, hs, rfl⟩ := hs
      have h := Thread.step_cases hs
      obtain ⟨hok, hg⟩ := hc.run hV ht (by simpa using hdead) (ha t ht).1 (ha t ht).2 h
      refine ⟨hok, ?_⟩
      rcases hg with ⟨hd, hm, he⟩ | ⟨hg, ⟨hm, he⟩ | ⟨hd, he⟩⟩
      · exact .nothing hd hm (commits_set_same ht h.call_eq he)
      · exact .committed t (List.mem_of_getElem? ht) hg hm (commits_set ht h.call_eq he)
      · exact .wrote t (List.mem_of_getElem? ht) hg hd (commits_set_same ht h.call_eq he)
  | fault i =>
      simp only [System.step, Option.bind_eq_some_iff] at hs
      obtain ⟨t, ht, hs⟩ := hs
      split_ifs at hs with hdead
      rw [Option.map_eq_some_iff] at hs
      obtain ⟨t', hs, rfl⟩ := hs
      have hmem := List.mem_of_getElem? ht
      obtain ⟨h₁, h₂⟩ := ha t ht
      obtain ⟨hcall, htxn, hpast, hw⟩ := Thread.fault_safe hs hc.inv h₁ h₂ (hc.safe t hmem (by simpa using hdead))
      have hprog : t.inProgress = true := by
        cases hp : t.prog <;> simp_all [Thread.inProgress, Thread.finished, Thread.fault]
      refine ⟨hc.replace ht hcall (fun _ => hprog) (by simp [htxn, Txn.broken])
        (by simp [htxn, Txn.broken]) (by rw [hcall, hpast]; exact hc.recorded t hmem) hc.inv
        (fun _ => by rw [hcall]; exact hw) fun u hu hdu _ _ => hc.safe u hu hdu, ?_⟩
      exact .nothing rfl rfl (commits_set_same ht hcall hpast)
  | kill i =>
      simp only [System.step, Option.bind_eq_some_iff] at hs
      obtain ⟨t, ht, hs⟩ := hs
      split_ifs at hs with hprog
      obtain rfl := Option.some.inj hs
      refine ⟨hc.replace ht rfl (fun _ => hprog) (by simp [Thread.kill]) (by simp [Thread.kill])
        (hc.recorded t (List.mem_of_getElem? ht)) hc.inv (by simp [Thread.kill])
        fun u hu hdu _ _ => hc.safe u hu hdu, ?_⟩
      exact .nothing rfl rfl (commits_set_same ht rfl rfl)
  | restart =>
      simp only [System.step, Option.some.injEq] at hs
      subst hs
      refine ⟨hc.restart hV, .restarted rfl rfl ?_⟩
      simp only [Config.commits, List.flatMap_map]
      congr 1
      funext t
      split_ifs <;> rfl
  | world v =>
      simp only [System.step, Option.map_eq_some_iff] at hs
      obtain ⟨m, hm, rfl⟩ := hs
      obtain ⟨hi, hr⟩ := hV.move v c.db c.mem m hm hc.inv
      refine ⟨{ hc with inv := hi, safe := fun t ht hdead => ?_ }, .moved v rfl hm rfl⟩
      exact hV.safe_of_happens (d := c.db) (m := c.mem) (s := (c.db, m)) hdead hi
        (Or.inr (Or.inl ⟨v, rfl, hm⟩)) (fun _ => ⟨hr t.call, Agree.refl _ _⟩)
        (hc.safe t ht hdead)

/-- The database changes only where a call commits what it has written, as it
had promised. -/
theorem Ok.db_of_step [DecidableEq L] (hc : K.Ok c) {a : Action C S.Move}
    (ha : ∀ t ∈ c.threads, K.assume t.call (t.state c.db c.mem)) (hs : S.step c a = some c') :
    c'.db = c.db ∨ ∃ i n t, a = .run i n ∧ c.threads[i]? = some t ∧ t.committing = true ∧
      K.guar t.call t.commits (c.db, c.mem) (c'.db, c.mem) := by
  cases a with
  | call k =>
      obtain rfl := Option.some.inj hs
      exact Or.inl rfl
  | fault i =>
      simp only [System.step, Option.bind_eq_some_iff] at hs
      obtain ⟨t, -, hs⟩ := hs
      split_ifs at hs
      obtain ⟨t', -, rfl⟩ := Option.map_eq_some_iff.mp hs
      exact Or.inl rfl
  | kill i =>
      simp only [System.step, Option.bind_eq_some_iff] at hs
      obtain ⟨t, -, hs⟩ := hs
      split_ifs at hs
      obtain rfl := Option.some.inj hs
      exact Or.inl rfl
  | restart =>
      obtain rfl := Option.some.inj hs
      exact Or.inl rfl
  | world v =>
      obtain ⟨m, -, rfl⟩ := Option.map_eq_some_iff.mp hs
      exact Or.inl rfl
  | run i n =>
      simp only [System.step, Option.bind_eq_some_iff] at hs
      obtain ⟨t, ht, hs⟩ := hs
      split_ifs at hs with hdead
      obtain ⟨⟨t', d, m⟩, hstep, rfl⟩ := Option.map_eq_some_iff.mp hs
      have hmem := List.mem_of_getElem? ht
      have hw := hc.safe t hmem (by simpa using hdead)
      cases Thread.step_cases hstep with
      | committed hp hf =>
          rw [hp] at hw
          have h₁ := (hw (c.db, c.mem) (Later.refl hc.inv) (ha t hmem)).1
          simp only [Thread.state_txn, hf, if_false, Bool.false_eq_true] at h₁
          cases hws : t.txn.writes with
          | nil => exact Or.inl (by simp [Txn.view, hws])
          | cons w rest =>
              exact Or.inr ⟨i, n, t, rfl, ht, by simp [Thread.committing, hp, hf, hws], h₁.1⟩
      | rejected => exact Or.inl rfl
      | executed => exact Or.inl rfl
      | violated => exact Or.inl rfl
      | rolledBack => exact Or.inl rfl
      | closed => exact Or.inl rfl
      | memory => exact Or.inl rfl
      | chose => exact Or.inl rfl

/-- A commit is one of a call, which had promised it. -/
theorem Ok.commit_of_step [DecidableEq L] (hc : K.Ok c) {a : Action C S.Move}
    (ha : ∀ t ∈ c.threads, K.assume t.call (t.state c.db c.mem)) (hs : S.step c a = some c') :
    c'.db = c.db ∧ c'.commits = c.commits ∨ ∃ i n t t', a = .run i n ∧ c.threads[i]? = some t ∧
      c'.threads[i]? = some t' ∧ t'.call = t.call ∧ t'.commits = t.commits ++ [(c.db, c'.db)] ∧
      c'.commits.Perm ((t.call, c.db, c'.db) :: c.commits) ∧
      K.guar t.call t.commits (c.db, c.mem) (c'.db, c.mem) := by
  have hrest : (∀ i n, a ≠ .run i n) → c'.db = c.db ∧ c'.commits = c.commits := by
    intro hno
    cases a with
    | call k =>
        obtain rfl := Option.some.inj hs
        exact ⟨rfl, by simp [Config.commits]⟩
    | run i n => exact absurd rfl (hno i n)
    | fault i =>
        simp only [System.step, Option.bind_eq_some_iff] at hs
        obtain ⟨t, ht, hs⟩ := hs
        split_ifs at hs
        obtain ⟨t', hf, rfl⟩ := Option.map_eq_some_iff.mp hs
        cases hp : t.prog <;> simp only [Thread.fault, hp, Option.some.injEq, reduceCtorEq] at hf
        all_goals exact ⟨rfl, commits_set_same ht (hf ▸ rfl) (hf ▸ rfl)⟩
    | kill i =>
        simp only [System.step, Option.bind_eq_some_iff] at hs
        obtain ⟨t, ht, hs⟩ := hs
        split_ifs at hs
        obtain rfl := Option.some.inj hs
        exact ⟨rfl, commits_set_same ht rfl rfl⟩
    | restart =>
        obtain rfl := Option.some.inj hs
        refine ⟨rfl, ?_⟩
        simp only [Config.commits, List.flatMap_map]
        congr 1
        funext t
        split_ifs <;> rfl
    | world v =>
        obtain ⟨m, -, rfl⟩ := Option.map_eq_some_iff.mp hs
        exact ⟨rfl, rfl⟩
  by_cases hrun : ∀ i n, a ≠ .run i n
  · exact Or.inl (hrest hrun)
  obtain ⟨i, n, rfl⟩ : ∃ i n, a = .run i n := by simpa using hrun
  simp only [System.step, Option.bind_eq_some_iff] at hs
  obtain ⟨t, ht, hs⟩ := hs
  split_ifs at hs with hdead
  obtain ⟨⟨t', d, m⟩, hstep, rfl⟩ := Option.map_eq_some_iff.mp hs
  have hmem := List.mem_of_getElem? ht
  have hw := hc.safe t hmem (by simpa using hdead)
  have hstep := Thread.step_cases hstep
  cases hstep with
  | @committed next error hp hf =>
      rw [hp] at hw
      have h₁ := (hw (c.db, c.mem) (Later.refl hc.inv) (ha t hmem)).1
      simp only [Thread.state_txn, hf, if_false, Bool.false_eq_true] at h₁
      let t' : Thread C D W L M E R :=
        { t with prog := next, txn := {}, commits := t.commits ++ [(c.db, t.txn.view c.db)] }
      have hset : (c.threads.set i t')[i]? = some t' := by
        obtain ⟨hi, -⟩ := List.getElem?_eq_some_iff.mp ht
        simp [hi]
      have hcall : t'.call = t.call := rfl
      have hcommits : t'.commits = t.commits ++ [(c.db, t.txn.view c.db)] := rfl
      exact Or.inr ⟨i, n, t, t', rfl, ht, hset, hcall, hcommits, commits_set ht hcall hcommits, h₁.1⟩
  | rejected => exact Or.inl ⟨rfl, commits_set_same ht rfl rfl⟩
  | executed => exact Or.inl ⟨rfl, commits_set_same ht rfl rfl⟩
  | violated => exact Or.inl ⟨rfl, commits_set_same ht rfl rfl⟩
  | rolledBack => exact Or.inl ⟨rfl, commits_set_same ht rfl rfl⟩
  | closed => exact Or.inl ⟨rfl, commits_set_same ht rfl rfl⟩
  | memory => exact Or.inl ⟨rfl, commits_set_same ht rfl rfl⟩
  | chose => exact Or.inl ⟨rfl, commits_set_same ht rfl rfl⟩

/-- A call changes the memory as it had promised. -/
theorem Ok.write_of_step [DecidableEq L] (hc : K.Ok c) {i n : Nat} {t : Thread C D W L M E R}
    (ha : K.assume t.call (t.state c.db c.mem)) (ht : c.threads[i]? = some t)
    (hs : S.step c (.run i n) = some c') (hm : c'.mem ≠ c.mem) :
    K.guar t.call t.commits (c.db, c.mem) (c.db, c'.mem) := by
  simp only [System.step, ht, Option.bind_some] at hs
  split_ifs at hs with hdead
  obtain ⟨⟨t', d, m⟩, hstep, rfl⟩ := Option.map_eq_some_iff.mp hs
  have hw := hc.safe t (List.mem_of_getElem? ht) (by simpa using hdead)
  cases Thread.step_cases hstep with
  | memory hp =>
      rw [hp] at hw
      exact (hw (c.db, c.mem) (Later.refl hc.inv) ha).1 hm
  | rejected => exact absurd rfl hm
  | executed => exact absurd rfl hm
  | violated => exact absurd rfl hm
  | rolledBack => exact absurd rfl hm
  | committed => exact absurd rfl hm
  | closed => exact absurd rfl hm
  | chose => exact absurd rfl hm

/-- What a call has ended with meets the contract. -/
theorem Ok.post (hc : K.Ok c) {t : Thread C D W L M E R} (ht : t ∈ c.threads) {r : Except E R}
    (hr : t.result = some r) : K.post t.call r (t.state c.db c.mem) := by
  rw [Thread.result] at hr
  split at hr
  · rename_i a hdead hprog
    obtain rfl := Option.some.inj hr
    simpa [hprog] using hc.safe t ht hdead
  · rename_i e hdead hprog
    obtain rfl := Option.some.inj hr
    simpa [hprog] using hc.safe t ht hdead
  · cases hr

/-- Every configuration of a run under the contract is in order. -/
theorem Ok.runs [DecidableEq L] (hV : K.Valid S) (hc : K.Ok c)
    {ok : Config C D W L M E R → Action C S.Move → Prop} (hok : ∀ c a, K.Ok c → ok c a → K.Allows c a)
    (h : S.Runs ok c c') : K.Ok c' := by
  induction h with
  | refl => exact hc
  | step _ ha hs ih => exact (ih.step hV (hok _ _ ih ha) hs).1

/-- What the steps of a run preserve holds in all its configurations. -/
theorem Ok.runs_induction [DecidableEq L] (hV : K.Valid S) (hc : K.Ok c)
    {ok : Config C D W L M E R → Action C S.Move → Prop}
    (hok : ∀ c a, K.Ok c → ok c a → K.Allows c a)
    {P : Config C D W L M E R → Prop} (h₀ : P c)
    (hstep : ∀ b a b', K.Ok b → K.Ok b' → ok b a → S.step b a = some b' → K.Caused S b b' →
      P b → P b')
    (h : S.Runs ok c c') : P c' := by
  induction h with
  | refl => exact h₀
  | step hr ha hs ih =>
      have hb := hc.runs hV hok hr
      obtain ⟨hb', hcaused⟩ := hb.step hV (hok _ _ hb ha) hs
      exact hstep _ _ _ hb hb' ha hs hcaused ih

end Contract

end Transactions
