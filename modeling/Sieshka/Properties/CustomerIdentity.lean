import Sieshka.Specs.Customers
import Sieshka.Samples
import Mathlib.Algebra.Order.BigOperators.Group.Finset

/-!
# One customer for each number

Two calls that have both looked a number up in vain insert a row each, and the
second one is refused. As long as a call that looks a number up in vain is the
only one on its way to insert it, every call comes to the one row of its number.
-/

namespace Sieshka

open Transactions

/-! ## The race -/

/-- The next step of the call looks its number up in vain. -/
def misses (d : Database) (t : CustomerThread) : Bool :=
  t.reading d && t.call.number.any fun p => (d.customers.find p).isNone

/-- The call has looked its number up and has not returned. -/
def lookedUp (d : Database) (t : CustomerThread) : Bool := t.inProgress && !t.reading d

/-- The database fails no statement by itself. A call that looks a number up in
vain has a name that its column takes, and no other call that has looked this
number up is on its way. -/
def Unraced (c : CustomerConfig) : Action CustomerCall customerCalls.Move → Prop
  | .run i _ => ∀ t ∈ c.threads[i]?, misses c.db t = true → varcharFits 255 t.call.name = true ∧
      ∀ u ∈ c.threads.eraseIdx i, lookedUp c.db u = true → u.call.number ≠ t.call.number
  | .fault _ => False
  | _ => True

instance (c : CustomerConfig) (a : Action CustomerCall customerCalls.Move) :
    Decidable (Unraced c a) := by
  cases a <;> unfold Unraced <;> infer_instance

/-- The database fails no statement by itself. -/
def Faultless (_ : CustomerConfig) : Action CustomerCall customerCalls.Move → Prop
  | .fault _ => False
  | _ => True

/-- Every call on a number that has returned or raised has returned the one row
of its number. -/
def OneCustomer (c : CustomerConfig) : Prop :=
  ∀ t ∈ c.threads, ∀ p, t.call.number = some p → ∀ r, t.result = some r →
    ∃ row, r = .ok row ∧ (c.db.customers.rows.filter fun x => x.phone = p) = [row]

/-! ## Where all calls stand -/

/-- Each call that is alive and has a number stands where `places` says, and no two
of them wait to insert one number. -/
structure Standing (c : CustomerConfig) (places : Nat → Option (String × Place)) : Prop where
  stands : ∀ i p pos, places i = some (p, pos) →
    ∃ t, c.threads[i]? = some t ∧ t.dead = false ∧ Stands c.db t p pos
  done : ∀ i t, c.threads[i]? = some t → places i = none → t.txn = {} ∧
    (t.dead = true ∨ t.call.number = none ∧ ∃ e, t.prog = .raise e)
  alone : ∀ i j p pos pos', i ≠ j → places i = some (p, pos) → places j = some (p, pos') →
    pos.waiting = true → pos'.waiting = false

theorem Standing.start (d : Database) (m : Memory) :
    Standing (Config.start d m) fun _ => none where
  stands := by simp
  done := by simp [Config.start]
  alone := by simp

namespace Standing

variable {c c' : CustomerConfig} {places : Nat → Option (String × Place)}

theorem oneCustomer (h : Standing c places) : OneCustomer c := by
  intro t ht p hp r hr
  obtain ⟨i, hi⟩ := List.mem_iff_getElem?.mp ht
  cases hplace : places i with
  | none =>
      obtain ⟨-, hdead | ⟨hnone, -⟩⟩ := h.done i t hi hplace
      · simp [Thread.result, hdead] at hr
      · simp [hnone] at hp
  | some q =>
      obtain ⟨q, pos⟩ := q
      obtain ⟨u, hu, hdead, hs⟩ := h.stands i q pos hplace
      obtain rfl : t = u := Option.some.inj (hi.symm.trans hu)
      obtain rfl : p = q := Option.some.inj (hp.symm.trans hs.number)
      rw [Thread.result, hdead, hs.prog] at hr
      cases pos with
      | returned row => exact ⟨row, (Option.some.inj hr).symm, Table.filter_key hs.holds⟩
      | looking => cases hr
      | missed => cases hr
      | inserting id => cases hr
      | inserted id => cases hr
      | leaving row => cases hr

/-- The place of a call that is alive and has a number. -/
theorem place (h : Standing c places) {i : Nat} {t : CustomerThread} (ht : c.threads[i]? = some t)
    (hp : t.inProgress = true) :
    ∃ p pos, places i = some (p, pos) ∧ t.dead = false ∧ Stands c.db t p pos := by
  cases hplace : places i with
  | none =>
      obtain ⟨-, hdead | ⟨-, e, he⟩⟩ := h.done i t ht hplace
      · simp [Thread.inProgress, hdead] at hp
      · simp [Thread.inProgress, Thread.finished, he] at hp
  | some q =>
      obtain ⟨u, hu, hdead, hs⟩ := h.stands i q.1 q.2 hplace
      obtain rfl : t = u := Option.some.inj (ht.symm.trans hu)
      exact ⟨q.1, q.2, rfl, hdead, hs⟩

/-- A call begins. -/
theorem call (h : Standing c places) (k : CustomerCall) : ∃ places',
    Standing { c with threads := c.threads ++ [{ call := k, prog := customerCalls.body k }] }
      places' := by
  have hlen : places c.threads.length = none := by
    cases hp : places c.threads.length with
    | none => rfl
    | some q =>
        obtain ⟨t, ht, -⟩ := h.stands _ q.1 q.2 hp
        simp at ht
  have hold : ∀ (i : Nat) (t : CustomerThread), c.threads[i]? = some t →
      (c.threads ++ [({ call := k, prog := customerCalls.body k } : CustomerThread)])[i]? =
        some t := by
    intro i t ht
    obtain ⟨hlt, -⟩ := List.getElem?_eq_some_iff.mp ht
    rw [List.getElem?_append_left hlt, ht]
  have hcases : ∀ (i : Nat) (t : CustomerThread),
      (c.threads ++ [({ call := k, prog := customerCalls.body k } : CustomerThread)])[i]? =
        some t → c.threads[i]? = some t ∨
      i = c.threads.length ∧ t = { call := k, prog := customerCalls.body k } := by
    intro i t ht
    rw [List.getElem?_append] at ht
    split_ifs at ht with hlt
    · exact Or.inl ht
    · rw [List.getElem?_singleton] at ht
      split_ifs at ht with h₀
      exact Or.inr ⟨by omega, (Option.some.inj ht).symm⟩
  cases hk : normalizePhone k.phone with
  | error e =>
      refine ⟨places, ⟨fun i p pos hi => ?_, fun i t ht hi => ?_, h.alone⟩⟩
      · obtain ⟨t, ht, hs⟩ := h.stands i p pos hi
        exact ⟨t, hold i t ht, hs⟩
      · rcases hcases i t ht with ht | ⟨-, rfl⟩
        · exact h.done i t ht hi
        · refine ⟨rfl, Or.inr ⟨?_, e, ?_⟩⟩
          · simp [CustomerCall.number, hk, Except.toOption]
          · simp [customerCalls, findOrCreateByPhone, hk, Prog.andThen]
  | ok p =>
      have hnew : Stands c.db { call := k, prog := customerCalls.body k } p .looking :=
        ⟨by simp [CustomerCall.number, hk, Except.toOption],
          by simp only [customerCalls, findOrCreateByPhone, hk]; rfl, rfl, trivial⟩
      refine ⟨Function.update places c.threads.length (some (p, .looking)),
        ⟨fun i q pos hi => ?_, fun i t ht hi => ?_, fun i j q pos pos' hne hi hj hw => ?_⟩⟩
      · by_cases hlast : i = c.threads.length
        · subst hlast
          rw [Function.update_self] at hi
          obtain ⟨rfl, rfl⟩ := Prod.mk.inj (Option.some.inj hi)
          exact ⟨_, by simp, rfl, hnew⟩
        · rw [Function.update_of_ne hlast] at hi
          obtain ⟨t, ht, hs⟩ := h.stands i q pos hi
          exact ⟨t, hold i t ht, hs⟩
      · rcases hcases i t ht with ht | ⟨rfl, -⟩
        · by_cases hlast : i = c.threads.length
          · rw [hlast, Function.update_self] at hi
            cases hi
          · rw [Function.update_of_ne hlast] at hi
            exact h.done i t ht hi
        · rw [Function.update_self] at hi
          cases hi
      · by_cases hlast : i = c.threads.length
        · rw [hlast, Function.update_self] at hi
          obtain ⟨-, rfl⟩ := Prod.mk.inj (Option.some.inj hi)
          cases hw
        · rw [Function.update_of_ne hlast] at hi
          by_cases hlast' : j = c.threads.length
          · rw [hlast', Function.update_self] at hj
            obtain ⟨-, rfl⟩ := Prod.mk.inj (Option.some.inj hj)
            rfl
          · rw [Function.update_of_ne hlast'] at hj
            exact h.alone i j q pos pos' hne hi hj hw

/-- What the commit of one call leaves of the place of another. -/
theorem stands_of_step {d d' : Database} {k : CustomerCall} {t : CustomerThread} {p q : String}
    {pos pos' pos₁ : Place} (hmove : CustomerStep k p d pos pos' d') (hold : pos.Holds k p d)
    (halone : q = p → pos.waiting = true → pos₁.waiting = false) (h : Stands d t q pos₁) :
    Stands d' t q pos₁ := by
  refine { h with holds := ?_ }
  cases hmove with
  | committed id =>
      by_cases hq : q = p
      · subst hq
        refine h.holds.mono (halone rfl rfl) fun row hrow => ?_
        cases hrow.symm.trans (show d.customers.find q = none from hold)
      · exact h.holds.congr (Table.find_put_of_ne _ fun he => hq he.symm)
  | found row hf => exact h.holds
  | missed hf => exact h.holds
  | picked id => exact h.holds
  | inserted id => exact h.holds
  | left row => exact h.holds

/-- A call takes a step. -/
theorem run (h : Standing c places) {i n : Nat} (ha : Unraced c (.run i n))
    (hs : customerCalls.step c (.run i n) = some c') : ∃ p pos pos',
    places i = some (p, pos) ∧ pos'.rank < pos.rank ∧ c'.threads.length = c.threads.length ∧
      Standing c' (Function.update places i (some (p, pos'))) := by
  simp only [System.step, Option.bind_eq_some_iff] at hs
  obtain ⟨t, ht, hs⟩ := hs
  split_ifs at hs with hdead
  obtain ⟨⟨t', d', m'⟩, hstep, rfl⟩ := Option.map_eq_some_iff.mp hs
  have hprog : t.inProgress = true := by
    cases Thread.step_cases hstep <;> simp [Thread.inProgress, Thread.finished, *]
  obtain ⟨p, pos, hplace, hlive, hstands⟩ := h.place ht hprog
  have hmiss : pos = .looking → c.db.customers.find p = none → misses c.db t = true := by
    intro hpos hfind
    simp [misses, hstands.reading_eq.mpr hpos, hstands.number, hfind]
  obtain ⟨hcall, pos', hmove, hstands'⟩ := hstands.step hstep fun hpos hfind =>
    (ha t ht (hmiss hpos hfind)).1
  have hnew : pos'.waiting = true → ∀ k pos₁, k ≠ i → places k = some (p, pos₁) →
      pos₁.waiting = false := by
    intro hw k pos₁ hne hk
    cases hmove with
    | missed hf =>
        obtain ⟨u, hu, hulive, hus⟩ := h.stands k p pos₁ hk
        have hmem : u ∈ c.threads.eraseIdx i := List.mem_eraseIdx_iff_getElem?.mpr ⟨k, hne, hu⟩
        have hnum := (ha t ht (hmiss rfl hf)).2 u hmem
        by_contra hw₁
        refine hnum ?_ (hus.number.trans hstands.number.symm)
        have hread : u.reading c.db = false := by
          rw [Bool.eq_false_iff]
          intro hr
          rw [hus.reading_eq.mp hr] at hw₁
          exact hw₁ rfl
        rw [lookedUp, hus.inProgress_eq hulive, hread]
        cases pos₁ <;> first | rfl | exact absurd rfl hw₁
    | picked id => exact h.alone i k p _ pos₁ hne.symm hplace hk rfl
    | inserted id => exact h.alone i k p _ pos₁ hne.symm hplace hk rfl
    | found row hf => cases hw
    | committed id => cases hw
    | left row => cases hw
  refine ⟨p, pos, pos', hplace, ?_, by simp, ⟨fun j q pos₁ hj => ?_, fun j u hu hj => ?_,
    fun j k q pos₁ pos₂ hne hj hk hw => ?_⟩⟩
  · cases hmove <;> simp [Place.rank]
  · by_cases hji : j = i
    · subst hji
      rw [Function.update_self] at hj
      obtain ⟨rfl, rfl⟩ := Prod.mk.inj (Option.some.inj hj)
      obtain ⟨hlt, -⟩ := List.getElem?_eq_some_iff.mp ht
      exact ⟨t', by simp [hlt], (Thread.step_cases hstep).dead_eq.trans hlive, hstands'⟩
    · rw [Function.update_of_ne hji] at hj
      obtain ⟨u, hu, hulive, hus⟩ := h.stands j q pos₁ hj
      refine ⟨u, by rw [List.getElem?_set_ne (Ne.symm hji), hu], hulive,
        stands_of_step hmove hstands.holds (fun hq hw => ?_) hus⟩
      subst hq
      exact h.alone i j q pos pos₁ (Ne.symm hji) hplace hj hw
  · by_cases hji : j = i
    · rw [hji, Function.update_self] at hj
      cases hj
    · rw [Function.update_of_ne hji] at hj
      rw [List.getElem?_set_ne (Ne.symm hji)] at hu
      exact h.done j u hu hj
  · by_cases hji : j = i
    · rw [hji, Function.update_self] at hj
      obtain ⟨rfl, rfl⟩ := Prod.mk.inj (Option.some.inj hj)
      have hki : k ≠ i := fun hki => hne (hji.trans hki.symm)
      rw [Function.update_of_ne hki] at hk
      exact hnew hw k pos₂ hki hk
    · rw [Function.update_of_ne hji] at hj
      by_cases hki : k = i
      · rw [hki, Function.update_self] at hk
        obtain ⟨rfl, rfl⟩ := Prod.mk.inj (Option.some.inj hk)
        rw [Bool.eq_false_iff]
        intro hw'
        rw [hnew hw' j pos₁ hji hj] at hw
        cases hw
      · rw [Function.update_of_ne hki] at hk
        exact h.alone j k q pos₁ pos₂ hne hj hk hw

/-- Calls that die leave their places. -/
theorem die (h : Standing c places) (threads : List CustomerThread) (keep : Nat → Bool)
    (hlen : ∀ i : Nat, threads[i]? = none ↔ c.threads[i]? = none)
    (hkeep : ∀ (i : Nat) t, c.threads[i]? = some t →
      threads[i]? = some (if keep i then t else t.kill)) :
    Standing { c with threads := threads } fun i => if keep i then places i else none where
  stands i p pos hi := by
    split_ifs at hi with hk
    obtain ⟨t, ht, hs⟩ := h.stands i p pos hi
    refine ⟨t, ?_, hs⟩
    rw [hkeep i t ht, if_pos hk]
  done i t ht hi := by
    cases hold : c.threads[i]? with
    | none =>
        rw [(hlen i).mpr hold] at ht
        cases ht
    | some u =>
        rw [hkeep i u hold] at ht
        split_ifs at ht hi with hk
        · obtain rfl := Option.some.inj ht
          exact h.done i u hold hi
        · obtain rfl := Option.some.inj ht
          exact ⟨rfl, Or.inl rfl⟩
  alone i j p pos pos' hne hi hj hw := by
    split_ifs at hi hj
    exact h.alone i j p pos pos' hne hi hj hw

/-- Every step that meets the condition keeps the calls in place. -/
theorem step (h : Standing c places) {a : Action CustomerCall customerCalls.Move}
    (ha : Unraced c a) (hs : customerCalls.step c a = some c') :
    ∃ places', Standing c' places' := by
  cases a with
  | call k =>
      obtain rfl := Option.some.inj hs
      exact h.call k
  | run i n =>
      obtain ⟨p, pos, pos', -, -, -, h'⟩ := h.run ha hs
      exact ⟨_, h'⟩
  | fault i => exact absurd ha id
  | kill i =>
      simp only [System.step, Option.bind_eq_some_iff] at hs
      obtain ⟨t, ht, hs⟩ := hs
      split_ifs at hs with hp
      obtain rfl := Option.some.inj hs
      refine ⟨_, h.die _ (fun j => decide (j ≠ i)) (fun j => by simp) fun j u hu => ?_⟩
      by_cases hj : j = i
      · subst hj
        obtain rfl := Option.some.inj (ht.symm.trans hu)
        obtain ⟨hlt, -⟩ := List.getElem?_eq_some_iff.mp ht
        simp [hlt]
      · simp [List.getElem?_set_ne (Ne.symm hj), hu, hj]
  | restart =>
      obtain rfl := Option.some.inj hs
      let keep : Nat → Bool := fun j => c.threads[j]?.all fun t => !t.inProgress
      have hdie := h.die (c.threads.map fun t => if t.inProgress then t.kill else t) keep
        (fun j => by simp) fun j u hu => by
          rw [List.getElem?_map, hu]
          cases hp : u.inProgress <;> simp [keep, hu, hp]
      exact ⟨_, { hdie with }⟩
  | world v => cases v

/-- A call that has looked its number up waits for nobody. -/
theorem exists_step_lookedUp (h : Standing c places) {i : Nat} {p : String} {pos : Place}
    (hi : places i = some (p, pos)) (hrank : 0 < pos.rank) (hpos : pos ≠ .looking) :
    ∃ c', Unraced c (.run i 0) ∧ customerCalls.step c (.run i 0) = some c' := by
  obtain ⟨t, ht, hdead, hs⟩ := h.stands i p pos hi
  have hread : t.reading c.db = false := Bool.eq_false_iff.mpr fun hr => hpos (hs.reading_eq.mp hr)
  have hfree : ∀ id, pos = .inserting id → .customer p ∉ c.heldBeside i := by
    intro id hid hmem
    obtain ⟨u, hu, hheld⟩ := List.mem_flatMap.mp hmem
    obtain ⟨j, hj, hju⟩ := List.mem_eraseIdx_iff_getElem?.mp hu
    cases hplace : places j with
    | none => simp [(h.done j u hju hplace).1] at hheld
    | some q =>
        obtain ⟨v, hv, -, hvs⟩ := h.stands j q.1 q.2 hplace
        obtain rfl : u = v := Option.some.inj (hju.symm.trans hv)
        rw [hvs.txn] at hheld
        cases hq : q.2 with
        | inserted id' =>
            obtain rfl : p = q.1 := by simpa [hq, Place.txn] using hheld
            have hfalse := h.alone i j q.1 pos q.2 hj.symm hi hplace (by rw [hid]; rfl)
            rw [hq] at hfalse
            cases hfalse
        | looking => simp [hq, Place.txn] at hheld
        | missed => simp [hq, Place.txn] at hheld
        | inserting id' => simp [hq, Place.txn] at hheld
        | leaving row => simp [hq, Place.txn] at hheld
        | returned row => simp [hq, Place.txn] at hheld
  obtain ⟨t', d', m', hstep⟩ := hs.exists_step (c.heldBeside i) c.mem 0 hrank hfree
  refine ⟨{ db := d', mem := m', threads := c.threads.set i t' }, fun u hu hmiss => ?_, ?_⟩
  · obtain rfl : t = u := Option.some.inj (ht.symm.trans hu)
    simp [misses, hread] at hmiss
  · simp [System.step, ht, hdead, hstep]

/-- While a call whose name its column takes is in progress, some call can take a
step that meets the condition. -/
theorem exists_step (h : Standing c places) {i : Nat} {t : CustomerThread}
    (ht : c.threads[i]? = some t) (hp : t.inProgress = true)
    (hfit : varcharFits 255 t.call.name = true) :
    ∃ j c', Unraced c (.run j 0) ∧ customerCalls.step c (.run j 0) = some c' := by
  obtain ⟨p, pos, hplace, hdead, hs⟩ := h.place ht hp
  have hrank : 0 < pos.rank := by simpa [hs.inProgress_eq hdead] using hp
  by_cases hpos : pos = .looking
  · by_cases hbusy : ∃ u ∈ c.threads.eraseIdx i, lookedUp c.db u = true ∧
        u.call.number = t.call.number
    · obtain ⟨u, hu, hlooked, -⟩ := hbusy
      obtain ⟨j, -, hj⟩ := List.mem_eraseIdx_iff_getElem?.mp hu
      simp only [lookedUp, Bool.and_eq_true, Bool.not_eq_true'] at hlooked
      obtain ⟨q, pos', hplace', hdead', hs'⟩ := h.place hj hlooked.1
      have hrank' : 0 < pos'.rank := by simpa [hs'.inProgress_eq hdead'] using hlooked.1
      have hpos' : pos' ≠ .looking := by
        rintro rfl
        simp [hs'.reading_eq.mpr rfl] at hlooked
      exact ⟨j, h.exists_step_lookedUp hplace' hrank' hpos'⟩
    · obtain ⟨t', d', m', hstep⟩ := hs.exists_step (c.heldBeside i) c.mem 0 hrank
        fun id hid => by rw [hpos] at hid; cases hid
      refine ⟨i, { db := d', mem := m', threads := c.threads.set i t' }, fun u hu _ => ?_, ?_⟩
      · obtain rfl : t = u := Option.some.inj (ht.symm.trans hu)
        exact ⟨hfit, fun v hv hl hn => hbusy ⟨v, hv, hl, hn⟩⟩
      · simp [System.step, ht, hdead, hstep]
  · exact ⟨i, h.exists_step_lookedUp hplace hrank hpos⟩

/-- Any run goes on until only calls are left whose name their column does not take. -/
theorem completes (h : Standing c places) : ∃ c', customerCalls.Runs Unraced c c' ∧
    ∀ t ∈ c'.threads, t.inProgress = true → varcharFits 255 t.call.name = false := by
  -- by induction on the steps that the calls have before them
  generalize hn : ∑ i ∈ Finset.range c.threads.length, (places i).elim 0 (fun q => q.2.rank) = n
  induction n using Nat.strong_induction_on generalizing c places with
  | _ n ih =>
    by_cases hbusy : ∃ t ∈ c.threads, t.inProgress = true ∧ varcharFits 255 t.call.name = true
    · obtain ⟨t, ht, hp, hfit⟩ := hbusy
      obtain ⟨i, hi⟩ := List.mem_iff_getElem?.mp ht
      obtain ⟨j, c₁, ha, hs⟩ := h.exists_step hi hp hfit
      obtain ⟨p, pos, pos', hplace, hrank, hlen, h₁⟩ := h.run ha hs
      have hj : j ∈ Finset.range c.threads.length := by
        obtain ⟨u, hu, -⟩ := h.stands j p pos hplace
        obtain ⟨hlt, -⟩ := List.getElem?_eq_some_iff.mp hu
        simpa using hlt
      have hless : ∑ i ∈ Finset.range c₁.threads.length,
          (Function.update places j (some (p, pos')) i).elim 0 (fun q => q.2.rank) < n := by
        rw [← hn, hlen]
        refine Finset.sum_lt_sum (fun i _ => ?_) ⟨j, hj, by simpa [hplace] using hrank⟩
        by_cases hij : i = j
        · subst hij
          simpa [hplace] using hrank.le
        · rw [Function.update_of_ne hij]
      obtain ⟨c', hr, hc'⟩ := ih _ hless h₁ rfl
      exact ⟨c', (System.Runs.step .refl ha hs).trans customerCalls hr, hc'⟩
    · refine ⟨c, .refl, fun t ht hp => ?_⟩
      rw [Bool.eq_false_iff]
      exact fun hfit => hbusy ⟨t, ht, hp, hfit⟩

end Standing

/-! ## Runs -/

/-- In every run that meets the condition all calls on a number that have returned
or raised have returned its one row, and the run can go on until every call has,
but for those whose name its column does not take. -/
theorem customers_agree {d : Database} {m : Memory} {c : CustomerConfig}
    (h : customerCalls.Runs Unraced (Config.start d m) c) :
    OneCustomer c ∧ ∃ c', customerCalls.Runs Unraced c c' ∧
      ∀ t ∈ c'.threads, t.inProgress = true → varcharFits 255 t.call.name = false := by
  obtain ⟨places, hc⟩ : ∃ places, Standing c places := by
    induction h with
    | refl => exact ⟨_, Standing.start d m⟩
    | step _ ha hs ih =>
        obtain ⟨places, hc⟩ := ih
        exact hc.step ha hs
  exact ⟨hc.oneCustomer, hc.completes⟩

/-- Two ways to write one number. -/
def sampleCustomers : List CustomerCall :=
  [⟨"Ann", "+7 999 123-45-67"⟩, ⟨"Ann", "89991234567"⟩]

/-- Of two calls that both look a number up in vain the second is refused. -/
theorem customers_race :
    ¬ ∀ d m c, customerCalls.Runs Faultless (Config.start d m) c → OneCustomer c := by
  intro hall
  obtain ⟨c, hr, hc⟩ := System.Runs.exists_of_exec customerCalls Faultless
    (Config.start emptyDatabase {}) (sampleCustomers.map .call ++
      [.run 0 0, .run 1 0, .run 0 1, .run 0 0, .run 0 0, .run 0 0, .run 1 2, .run 1 0, .run 1 0])
    (f := fun c => c.threads.map fun t => (t.call.number, t.result.map Except.isOk))
    (b := [(some "+79991234567", some true), (some "+79991234567", some false)])
    (by simp [sampleCustomers, Faultless]) (by decide +kernel)
  obtain ⟨t, ht, hres⟩ : ∃ t ∈ c.threads,
      (t.call.number, t.result.map Except.isOk) = (some "+79991234567", some false) := by
    rw [← List.mem_map, hc]
    simp
  obtain ⟨hn, hres⟩ := Prod.mk.inj hres
  obtain ⟨r, hr', hno⟩ := Option.map_eq_some_iff.mp hres
  obtain ⟨row, rfl, -⟩ := hall _ _ c hr t ht _ hn r hr'
  cases hno

/-- Two calls one after the other come to one customer. -/
theorem customers_agree_one_after_other :
    ∃ c, customerCalls.Runs Unraced (Config.start emptyDatabase {}) c ∧
      (c.threads.map fun t => t.result.map Except.isOk) = [some true, some true] ∧
      OneCustomer c := by
  obtain ⟨c, hr, hc⟩ := System.Runs.exists_of_execIf customerCalls Unraced
    (Config.start emptyDatabase {}) (sampleCustomers.map .call ++
      [.run 0 0, .run 0 1, .run 0 0, .run 0 0, .run 0 0, .run 1 0, .run 1 0])
    (f := fun c => c.threads.map fun t => t.result.map Except.isOk)
    (v := [some true, some true]) (by decide +kernel)
  exact ⟨c, hr, hc, (customers_agree hr).1⟩

end Sieshka
