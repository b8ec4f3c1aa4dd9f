import Sieshka.Properties.CheckoutKeys
import Sieshka.Samples
import Sieshka.Transactions.Alone
import Sieshka.Transactions.Reading

/-!
# A checkout that has failed, submitted again

Once no submission of a key is in progress, what is written under the key decides
what every later submission comes to: a key that is not taken is carried out as a
new one, a key that names an order is answered with it, and a key that is taken
without an order is refused for ever.
-/

namespace Sieshka

open Transactions Contract

/-- What is written under the key names an order. -/
def NamesOrder (d : Database) (key : String) : Prop :=
  ∃ fields orderId, d.idempotencyKeys.find (prefixedKey key) =
    some ⟨prefixedKey key, .obj fields⟩ ∧ Json.get fields "order_id" .null = .str orderId

section Taken

variable {cfg : Settings} {key : String} {row : IdempotencyKey}

/-- The answer to a key that is taken. -/
def takenAnswer (row : IdempotencyKey) : Except PyError Answer :=
  (repeatedAnswer (recoverIdempotentResult (some row.payload))).map Answer.checkout

/-- A submission whose key is taken writes nothing, and answers what is there. -/
theorem reads_submission {c : Call} (hc : c.submits key = true) :
    (body cfg c).Reads (fun d => d.idempotencyKeys.find (prefixedKey key) = some row) fun r =>
      (∃ detail, r = .error (.httpException 400 detail)) ∨ r = .error .dbapiError ∨
        r = takenAnswer row := by
  obtain ⟨body, rfl, rfl⟩ := Call.submits_iff.mp hc
  refine Prog.Reads.bind (Q := fun r => (∃ detail, r = .error (.httpException 400 detail)) ∨
    r = .error .dbapiError ∨ r = repeatedAnswer (recoverIdempotentResult (some row.payload))) ?_
    (fun a ha => .ret ?_) fun e he => ?_
  · rw [checkout]
    by_cases h₁ : body.paymentMethod ≠ "yookassa_sbp" ∧ body.paymentMethod ≠ "yookassa_sberbank" ∧
        body.paymentMethod ≠ "cash"
    · exact (if_pos h₁).symm ▸ .raise (Or.inl ⟨_, rfl⟩)
    rw [if_neg h₁]
    by_cases h₂ : body.deliveryMode ≠ "pickup" ∧ body.zoneId = none
    · exact (if_pos h₂).symm ▸ .raise (Or.inl ⟨_, rfl⟩)
    rw [if_neg h₂]
    by_cases h₃ : body.items.isEmpty = true
    · exact (if_pos h₃).symm ▸ .raise (Or.inl ⟨_, rfl⟩)
    rw [if_neg h₃]
    refine Prog.Reads.bind (Q := fun r => r = .ok false ∨ r = .error .dbapiError) ?_ ?_ ?_
    · refine .withSession (.bind (Q := fun r => r = .ok false ∨ r = .error .dbapiError)
        (idempotencyKeys.reads_insertIfAbsent (fun d hd => ?_) (Or.inl rfl) (Or.inr rfl)) ?_ ?_)
      · exact Option.isSome_iff_exists.mpr ⟨row, hd⟩
      · rintro inserted (hi | hi)
        · cases hi
          exact .bind (Q := fun r => r = .ok () ∨ r = .error .dbapiError)
            (Prog.reads_commitSession (Or.inl rfl) (Or.inr rfl)) (fun _ _ => .ret (Or.inl rfl))
            fun e he => by simpa using he
        · cases hi
      · exact fun e he => by simpa using he
    · rintro inserted (hi | hi)
      · cases hi
        refine .bind (Q := fun r => r = .ok (some row.payload) ∨ r = .error .dbapiError) ?_ ?_ ?_
        · refine .withSession (.bind (Q := fun r => r = .ok (some row) ∨ r = .error .dbapiError)
            (idempotencyKeys.reads_find (fun d hd => Or.inl (congrArg Except.ok hd)) (Or.inr rfl))
            ?_ ?_)
          · rintro found (hf | hf)
            · cases hf
              exact .ret (Or.inl rfl)
            · cases hf
          · exact fun e he => by simpa using he
        · rintro payload (hp | hp)
          · cases hp
            cases hout : recoverIdempotentResult (some row.payload) with
            | error e => exact .raise (Or.inr (Or.inr rfl))
            | ok found =>
                cases found with
                | none => exact .raise (Or.inr (Or.inr rfl))
                | some existing => exact .ret (Or.inr (Or.inr rfl))
          · cases hp
        · exact fun e he => Or.inr (Or.inl (by simpa using he))
      · cases hi
    · exact fun e he => Or.inr (Or.inl (by simpa using he))
  · rcases ha with ⟨_, ha⟩ | ha | ha
    · cases ha
    · cases ha
    · exact Or.inr (Or.inr (by rw [takenAnswer, ← ha]; rfl))
  · rcases he with ⟨detail, he⟩ | he | he
    · exact Or.inl ⟨detail, by cases he; rfl⟩
    · exact Or.inr (Or.inl (by cases he; rfl))
    · exact Or.inr (Or.inr (by rw [takenAnswer, ← he]; rfl))

theorem recovered_of_namesOrder {d : Database} (h : NamesOrder d key) :
    ∃ response, recovered d (prefixedKey key) = .ok (some response) := by
  obtain ⟨fields, orderId, hrow, horder⟩ := h
  rw [recovered, hrow, Option.map_some, recoverIdempotentResult, horder]
  exact ⟨_, rfl⟩

/-- A key that is taken without an order is answered with an error of its own. -/
theorem takenAnswer_of_unnamed {d : Database} (hrow : d.idempotencyKeys.find (prefixedKey key) = some row)
    (hno : ¬ NamesOrder d key) : ∃ e, takenAnswer row = .error e ∧
      repeatedAnswer (recoverIdempotentResult (some row.payload)) = .error e ∧
      e ≠ .dbapiError ∧ ∀ detail, e ≠ .httpException 400 detail := by
  obtain ⟨k, payload⟩ := row
  obtain rfl : k = prefixedKey key := (Table.find_some hrow).2
  have hattr : ∀ payload, recoverIdempotentResult (some payload) =
      .error (.attributeError "object has no attribute 'get'") →
      ∃ e, takenAnswer ⟨prefixedKey key, payload⟩ = .error e ∧
        repeatedAnswer (recoverIdempotentResult (some payload)) = .error e ∧ e ≠ .dbapiError ∧
        ∀ detail, e ≠ .httpException 400 detail := fun payload h => by
    rw [takenAnswer, h]
    exact ⟨_, rfl, rfl, by simp, by simp⟩
  have hbusy : ∀ payload, recoverIdempotentResult (some payload) = .ok none →
      ∃ e, takenAnswer ⟨prefixedKey key, payload⟩ = .error e ∧
        repeatedAnswer (recoverIdempotentResult (some payload)) = .error e ∧ e ≠ .dbapiError ∧
        ∀ detail, e ≠ .httpException 400 detail := fun payload h => by
    rw [takenAnswer, h]
    exact ⟨_, rfl, rfl, by simp, by simp⟩
  cases payload with
  | null => exact hbusy _ rfl
  | bool b => exact hattr _ rfl
  | int n => exact hattr _ rfl
  | float q => exact hattr _ rfl
  | nan => exact hattr _ rfl
  | inf negative => exact hattr _ rfl
  | str t => exact hattr _ rfl
  | arr items => exact hattr _ rfl
  | obj fields =>
      refine hbusy _ ?_
      rw [recoverIdempotentResult]
      split
      · rename_i orderId horder
        exact absurd ⟨fields, orderId, hrow, horder⟩ hno
      · rfl

end Taken

/-! ## The calls that begin after a key has come to rest -/

section Later

variable {cfg : Settings} {d : Database} {m : Memory} {c c₀ c' : ShopConfig} {key : String}
variable {a : Action Call ProviderMove}

/-- No submission of the key is in progress. -/
def AtRest (key : String) (c : ShopConfig) : Prop :=
  ∀ t ∈ c.threads, t.call.submits key = true → t.inProgress = false

/-- The submissions in `c₀` have not moved since. -/
def SameSubmissions (key : String) (c₀ c : ShopConfig) : Prop :=
  ∀ (j : Nat) t, c₀.threads[j]? = some t → t.call.submits key = true → c.threads[j]? = some t

theorem SameSubmissions.step (hrest : AtRest key c₀) (h : SameSubmissions key c₀ c)
    (hs : (shop cfg).step c a = some c') : SameSubmissions key c₀ c' := fun j t ht hsub =>
  System.thread_of_idle hs (h j t ht hsub) (hrest t (List.mem_of_getElem? ht) hsub)

/-- A submission that takes a step has begun later. -/
theorem SameSubmissions.later (hrest : AtRest key c₀) (h : SameSubmissions key c₀ c) {i n : Nat}
    {t : ShopThread} (hs : (shop cfg).step c (.run i n) = some c') (ht : c.threads[i]? = some t)
    (hsub : t.call.submits key = true)
    (hcall : ∀ (j : Nat) u, c₀.threads[j]? = some u → ∃ v, c.threads[j]? = some v ∧ v.call = u.call) :
    c₀.threads.length ≤ i := by
  by_contra hlt
  obtain ⟨u, hu⟩ : ∃ u, c₀.threads[i]? = some u := ⟨_, List.getElem?_eq_getElem (by omega)⟩
  obtain ⟨v, hv, hvu⟩ := hcall i u hu
  obtain rfl := Option.some.inj (ht.symm.trans hv)
  have hsub' : u.call.submits key = true := hvu ▸ hsub
  have hrun := System.inProgress_of_run hs (h i u hu hsub')
  rw [hrest u (List.mem_of_getElem? hu) hsub'] at hrun
  cases hrun

/-- A commit that touches a checkout key is one of a submission of the key. -/
theorem submits_of_keyStep {k : Call} {past : Past} {d d' : Database} (hk : OwnKeys cfg k)
    (h : KeyStep cfg k past (prefixedKey key) d m d') :
    d'.idempotencyKeys.find (prefixedKey key) = d.idempotencyKeys.find (prefixedKey key) ∨
      k.submits key = true := by
  cases h with
  | kept h => exact Or.inl h
  | recorded row hmay hkey _ _ =>
      obtain ⟨body, rfl, hbody, -⟩ := hmay.of_checkoutKey hk hkey
      exact Or.inr (Call.submits_iff.mpr ⟨body, rfl, hbody⟩)
  | answered body hc hkey _ _ _ _ _ _ =>
      exact Or.inr (Call.submits_iff.mpr ⟨body, hc, prefixedKey_inj hkey⟩)

/-- The calls of `c₀` are still there. -/
theorem call_of_runs {ok : ShopConfig → Action Call ProviderMove → Prop}
    (h : (shop cfg).Runs ok c₀ c) {j : Nat} {u : ShopThread} (hu : c₀.threads[j]? = some u) :
    ∃ v, c.threads[j]? = some v ∧ v.call = u.call ∧ u.commits <+: v.commits := by
  induction h with
  | refl => exact ⟨u, hu, rfl, List.prefix_rfl⟩
  | step _ _ hs ih =>
      obtain ⟨v, hv, hcall, hpre⟩ := ih
      obtain ⟨w, hw, hcall', hpre'⟩ := System.thread_of_step hs hv
      exact ⟨w, hw, hcall'.trans hcall, hpre.trans hpre'⟩

/-- A key that is taken at rest stays as it is, and the later submissions only read
it. -/
structure StaysTaken (key : String) (row : IdempotencyKey) (c₀ c : ShopConfig) : Prop where
  same : SameSubmissions key c₀ c
  taken : c.db.idempotencyKeys.find (prefixedKey key) = some row
  unrecorded : ∀ (j : Nat) u, c₀.threads.length ≤ j → c.threads[j]? = some u →
    ¬ KeyRecorded u.commits (prefixedKey key)
  reading : ∀ (j : Nat) u, c₀.threads.length ≤ j → c.threads[j]? = some u →
    u.call.submits key = true → u.Reading
      (fun d => d.idempotencyKeys.find (prefixedKey key) = some row) fun r =>
        (∃ detail, r = .error (.httpException 400 detail)) ∨ r = .error .dbapiError ∨
          r = takenAnswer row

theorem StaysTaken.step {row : IdempotencyKey} (hc₀ : ReachesOwnKeys cfg (Config.start d m) c₀)
    (hrest : AtRest key c₀) (hr : ReachesOwnKeys cfg c₀ c) (h : StaysTaken key row c₀ c)
    (hs : (shop cfg).step c a = some c') : StaysTaken key row c₀ c' := by
  have hreach : ReachesOwnKeys cfg (Config.start d m) c := hc₀.trans _ hr
  have hrow : c'.db.idempotencyKeys.find (prefixedKey key) = some row := by
    rcases hreach.reaches.commit_of_step hs with ⟨hd, -⟩ | ⟨i, t, t', hcommit⟩
    · rw [hd]
      exact h.taken
    · obtain ⟨txn, -, heffect⟩ := hcommit.effect
      have hown := hreach.ownKeys (List.mem_of_getElem? hcommit.before)
      have hkey := heffect.keyStep (prefixedKey key)
      rcases submits_of_keyStep hown hkey with hsame | hsub
      · exact hsame.trans h.taken
      · obtain ⟨n, rfl⟩ := hcommit.step
        have hlater := h.same.later hrest hs hcommit.before hsub fun j u hu =>
          let ⟨v, hv, hcall, _⟩ := call_of_runs hr hu
          ⟨v, hv, hcall⟩
        cases hkey with
        | kept hsame => exact hsame.trans h.taken
        | recorded _ _ _ hnone _ => rw [h.taken] at hnone; cases hnone
        | answered _ _ _ _ _ hrec _ _ _ => exact absurd hrec (h.unrecorded i t hlater hcommit.before)
  refine ⟨h.same.step hrest hs, hrow, fun j u hj hu hrec => ?_, fun j u hj hu hsub => ?_⟩
  · rcases System.past_of_step hs hu with hnil | ⟨t, ht, -, hpast⟩
    · obtain ⟨p, hp, -⟩ := hrec
      rw [hnil] at hp
      cases hp
    · rcases hpast with he | he
      · exact h.unrecorded j t hj ht (he ▸ hrec)
      · rcases keyRecorded_append.mp (he ▸ hrec) with hrec | ⟨hnone, -⟩
        · exact h.unrecorded j t hj ht hrec
        · rw [h.taken] at hnone
          cases hnone
  · refine System.reading_of_step hs hu h.taken (fun k hk hj' => ?_) fun t ht => ?_
    · subst hk
      obtain rfl := Option.some.inj hs
      subst hj'
      rw [List.getElem?_concat_length] at hu
      obtain rfl := Option.some.inj hu
      exact reads_submission hsub
    · obtain ⟨v, hv, hcall, -⟩ := System.thread_of_step hs ht
      obtain rfl := Option.some.inj (hu.symm.trans hv)
      exact h.reading j t hj ht (hcall ▸ hsub)

/-- A submission that has begun after `c₀` has recorded the key. -/
def CarriedOut (key : String) (c₀ c : ShopConfig) : Prop :=
  ∃ i u, c₀.threads.length ≤ i ∧ c.threads[i]? = some u ∧ KeyRecorded u.commits (prefixedKey key)

/-- A key that is not taken at rest is taken by a later submission. -/
structure TakenLater (key : String) (c₀ c : ShopConfig) : Prop where
  same : SameSubmissions key c₀ c
  row : (c.db.idempotencyKeys.find (prefixedKey key)).isSome = true → CarriedOut key c₀ c
  seen : ∀ (j : Nat) u, c₀.threads.length ≤ j → c.threads[j]? = some u → ∀ p ∈ u.commits,
    (p.2.idempotencyKeys.find (prefixedKey key)).isSome = true → CarriedOut key c₀ c

theorem CarriedOut.step (h : CarriedOut key c₀ c) (hs : (shop cfg).step c a = some c') :
    CarriedOut key c₀ c' := by
  obtain ⟨i, u, hi, hu, p, hp, hkey⟩ := h
  obtain ⟨v, hv, -, hpre⟩ := System.thread_of_step hs hu
  exact ⟨i, v, hi, hv, p, hpre.subset hp, hkey⟩

theorem TakenLater.step (hc₀ : ReachesOwnKeys cfg (Config.start d m) c₀)
    (hrest : AtRest key c₀) (hr : ReachesOwnKeys cfg c₀ c) (h : TakenLater key c₀ c)
    (hs : (shop cfg).step c a = some c') : TakenLater key c₀ c' := by
  have hreach : ReachesOwnKeys cfg (Config.start d m) c := hc₀.trans _ hr
  have hrow : (c'.db.idempotencyKeys.find (prefixedKey key)).isSome = true → CarriedOut key c₀ c' := by
    intro hsome
    by_cases hold : (c.db.idempotencyKeys.find (prefixedKey key)).isSome = true
    · exact (h.row hold).step hs
    have hnone : c.db.idempotencyKeys.find (prefixedKey key) = none := by simpa using hold
    rcases hreach.reaches.commit_of_step hs with ⟨hd, -⟩ | ⟨i, t, t', hcommit⟩
    · rw [hd] at hsome
      exact absurd hsome hold
    · obtain ⟨txn, -, heffect⟩ := hcommit.effect
      have hown := hreach.ownKeys (List.mem_of_getElem? hcommit.before)
      rcases submits_of_keyStep hown (heffect.keyStep (prefixedKey key)) with hsame | hsub
      · rw [hsame] at hsome
        exact absurd hsome hold
      · obtain ⟨n, rfl⟩ := hcommit.step
        have hlater := h.same.later hrest hs hcommit.before hsub fun j u hu =>
          let ⟨v, hv, hcall, _⟩ := call_of_runs hr hu
          ⟨v, hv, hcall⟩
        refine ⟨i, t', hlater, hcommit.after, (c.db, c'.db), ?_, hnone, hsome⟩
        rw [hcommit.past]
        exact List.mem_append_right _ (List.mem_singleton_self _)
  refine ⟨h.same.step hrest hs, hrow, fun j u hj hu p hp hkey => ?_⟩
  rcases System.past_of_step hs hu with hnil | ⟨t, ht, -, hpast⟩
  · rw [hnil] at hp
    cases hp
  · rcases hpast with he | he
    · exact (h.seen j t hj ht p (he ▸ hp) hkey).step hs
    · rcases List.mem_append.mp (he ▸ hp) with hp | hp
      · exact (h.seen j t hj ht p hp hkey).step hs
      · obtain rfl := List.mem_singleton.mp hp
        exact hrow hkey

theorem TakenLater.runs (hc₀ : ReachesOwnKeys cfg (Config.start d m) c₀) (hrest : AtRest key c₀)
    (hnone : c₀.db.idempotencyKeys.find (prefixedKey key) = none)
    (hr : ReachesOwnKeys cfg c₀ c) : TakenLater key c₀ c := by
  induction hr with
  | refl =>
      refine ⟨fun _ _ ht _ => ht, fun hsome => ?_, fun j u hj hu => ?_⟩
      · rw [hnone] at hsome
        cases hsome
      · have hlt := (List.getElem?_eq_some_iff.mp hu).1
        omega
  | step hr _ hs ih => exact ih.step hc₀ hrest hr hs

theorem StaysTaken.runs {row : IdempotencyKey} (hc₀ : ReachesOwnKeys cfg (Config.start d m) c₀)
    (hrest : AtRest key c₀) (hrow : c₀.db.idempotencyKeys.find (prefixedKey key) = some row)
    (hr : ReachesOwnKeys cfg c₀ c) : StaysTaken key row c₀ c := by
  induction hr with
  | refl =>
      refine ⟨fun _ _ ht _ => ht, hrow, fun j u hj hu => ?_, fun j u hj hu => ?_⟩ <;>
        have hlt := (List.getElem?_eq_some_iff.mp hu).1 <;> omega
  | step hr _ hs ih => exact ih.step hc₀ hrest hr hs

end Later

/-! ## A checkout of a product that is not on the menu -/

theorem namesOrder_iff {d : Database} {key : String} :
    NamesOrder d key ↔ (orderIdOf d (prefixedKey key)).isSome = true := by
  constructor
  · intro h
    obtain ⟨response, hresponse⟩ := recovered_of_namesOrder h
    rw [orderIdOf_of_recovered hresponse]
    rfl
  · intro h
    cases hrow : d.idempotencyKeys.find (prefixedKey key) with
    | none =>
        rw [orderIdOf, recovered_absent hrow] at h
        cases h
    | some row =>
        by_contra hno
        obtain ⟨e, -, he, -, -⟩ := takenAnswer_of_unnamed hrow hno
        rw [orderIdOf, recovered, hrow, Option.map_some] at h
        cases hout : recoverIdempotentResult (some row.payload) with
        | error e' =>
            rw [hout] at h
            cases h
        | ok found =>
            rw [hout] at h he
            cases found with
            | none => cases h
            | some existing => cases he

instance (d : Database) (key : String) : Decidable (NamesOrder d key) :=
  decidable_of_iff _ namesOrder_iff.symm

instance (key : String) (c : ShopConfig) : Decidable (AtRest key c) :=
  inferInstanceAs (Decidable (∀ t ∈ c.threads, t.call.submits key = true → t.inProgress = false))

end Sieshka
