import Sieshka.Properties.CheckoutKeys
import Sieshka.Samples
import Sieshka.Specs.Requests

/-!
# One idempotency key, one order

Of all submissions of a key one inserts an order and requests a payment, the
one that has recorded the key, and all that answer name its order.
-/

namespace Sieshka

open Transactions Contract

section OneOrder

variable {cfg : Settings} {d : Database} {m : Memory} {c c' : ShopConfig} {key : String}

/-- The orders the submissions of a key have inserted. -/
def ordersInserted (key : String) (c : ShopConfig) : List Order :=
  (c.commits.filter fun p => p.1.submits key).flatMap fun p =>
    p.2.2.orders.rows.filter fun row => (p.2.1.orders.find row.id).isNone

/-- A key has inserted one order at most, and the call that has recorded the key
has inserted it. -/
structure InsertedOnce (key : String) (c : ShopConfig) : Prop where
  le_one : (ordersInserted key c).length ≤ 1
  owner : 0 < (ordersInserted key c).length → ∃ t ∈ c.threads,
    KeyRecorded t.commits (prefixedKey key) ∧ ∃ p ∈ t.commits, p.2.orders ≠ p.1.orders

theorem rows_new_put {t : Table Order.id} {row : Order} (h : t.find row.id = none) :
    ((t.put row).rows.filter fun r => (t.find r.id).isNone) = [row] := by
  rw [Table.rows_put_of_find_eq_none h, List.filter_append]
  have hold : (t.rows.filter fun r => (t.find r.id).isNone) = [] := by
    refine List.filter_eq_nil_iff.mpr fun r hr => ?_
    rw [Table.find_of_mem hr]
    simp
  simp [hold, h]

theorem InsertedOnce.step {a : Action Call ProviderMove}
    (hr : Reaches cfg (Config.start d m) c) (hs : (shop cfg).step c a = some c')
    (h : InsertedOnce key c) : InsertedOnce key c' := by
  have hlater : ∀ t ∈ c.threads, ∃ u ∈ c'.threads, t.commits ⊆ u.commits := by
    intro t ht
    obtain ⟨j, hj⟩ := List.mem_iff_getElem?.mp ht
    obtain ⟨u, hu, -, hpre⟩ := System.thread_of_step hs hj
    exact ⟨u, List.mem_of_getElem? hu, hpre.subset⟩
  have howner : 0 < (ordersInserted key c).length → ∃ t ∈ c'.threads,
      KeyRecorded t.commits (prefixedKey key) ∧ ∃ p ∈ t.commits, p.2.orders ≠ p.1.orders := by
    intro hpos
    obtain ⟨t, ht, ⟨p, hp, hkey⟩, q, hq, hne⟩ := h.owner hpos
    obtain ⟨u, hu, hsub⟩ := hlater t ht
    exact ⟨u, hu, ⟨p, hsub hp, hkey⟩, q, hsub hq, hne⟩
  rcases hr.commit_of_step hs with ⟨-, hc⟩ | ⟨i, t, t', hcommit⟩
  · have hsame : ordersInserted key c' = ordersInserted key c := by
      rw [ordersInserted, ordersInserted, hc]
    exact ⟨hsame ▸ h.le_one, hsame ▸ howner⟩
  have hperm : (ordersInserted key c').Perm
      (((if t.call.submits key then
        c'.db.orders.rows.filter fun row => (c.db.orders.find row.id).isNone else []) ++
          ordersInserted key c)) := by
    refine ((hcommit.commits.filter _).flatMap_right _).trans ?_
    rw [List.filter_cons]
    split_ifs <;> simp [ordersInserted]
  by_cases hnew : t.call.submits key = true ∧
      (c'.db.orders.rows.filter fun row => (c.db.orders.find row.id).isNone) ≠ []
  · -- a new order: the call has recorded the key and inserted no order before
    obtain ⟨hsub, hne⟩ := hnew
    obtain ⟨row, hrow⟩ := List.exists_mem_of_ne_nil _ hne
    obtain ⟨hmem, hnone⟩ := List.mem_filter.mp hrow
    obtain ⟨txn, -, heffect⟩ := hcommit.effect
    obtain ⟨body, placed, hcall, hrec, hfirst, hid, hput⟩ := heffect.placed_of_new
      (Option.isNone_iff_eq_none.mp hnone) (by rw [Table.find_of_mem hmem]; rfl)
    obtain ⟨body', hcall', hkey⟩ := (Call.submits_iff).mp hsub
    obtain rfl : body = body' := by
      rw [hcall] at hcall'
      exact (Call.checkout.inj hcall')
    have hrec' : KeyRecorded t.commits (prefixedKey key) := by rw [← hkey]; exact hrec
    have hnone' : c.db.orders.find placed.id = none := by
      rw [hid]
      exact Option.isNone_iff_eq_none.mp hnone
    have hzero : (ordersInserted key c).length = 0 := by
      refine Nat.eq_zero_of_not_pos fun hpos => ?_
      obtain ⟨u, hu, hru, p, hp, hchanged⟩ := h.owner hpos
      obtain ⟨j, hj⟩ := List.mem_iff_getElem?.mp hu
      obtain rfl := hr.recorder_eq hcommit.before hj hrec' hru
      obtain rfl := Option.some.inj (hcommit.before.symm.trans hj)
      exact hchanged (hfirst p hp)
    have horders : c'.db.orders = c.db.orders.put placed := by rw [hput]
    have hone : (ordersInserted key c').length = 1 := by
      rw [hperm.length_eq, if_pos hsub, List.length_append, hzero, horders, rows_new_put hnone']
      rfl
    refine ⟨hone.le, fun _ => ⟨t', List.mem_of_getElem? hcommit.after, ?_, (c.db, c'.db), ?_, ?_⟩⟩
    · obtain ⟨p, hp, hkey⟩ := hrec'
      exact ⟨p, by rw [hcommit.past]; exact List.mem_append_left _ hp, hkey⟩
    · rw [hcommit.past]
      exact List.mem_append_right _ (List.mem_singleton_self _)
    · intro he
      have hthere : (c.db.orders.find placed.id).isSome = true := by
        rw [show c.db.orders = c.db.orders.put placed from he.symm.trans horders,
          Table.find_put_self]
        rfl
      rw [hnone'] at hthere
      cases hthere
  · have hsame : (ordersInserted key c').length = (ordersInserted key c).length := by
      rw [hperm.length_eq]
      split_ifs with hsub
      · rw [not_and_not_right.mp hnew hsub, List.nil_append]
      · rfl
    exact ⟨hsame ▸ h.le_one, hsame ▸ howner⟩

theorem Reaches.insertedOnce (h : Reaches cfg (Config.start d m) c) (key : String) :
    InsertedOnce key c := by
  induction h with
  | refl =>
      refine ⟨by simp [ordersInserted, Config.start, Config.commits], fun hpos => ?_⟩
      simp [ordersInserted, Config.start, Config.commits] at hpos
  | step hr _ hs ih => exact ih.step hr hs

/-- The step is one of a submission of the key and changes the part of the memory:
it records the event of a payment, or the provider creates one. -/
def Requests (cfg : Settings) (key : String) (part : MemoryPart) (b : ShopConfig)
    (a : Action Call ProviderMove) (b' : ShopConfig) : Prop :=
  ∃ i, System.Writes (S := shop cfg) (fun k => k.submits key = true) part.Changes i b a b'

theorem requests_le_one {part : MemoryPart} {n : Nat}
    (h : (shop cfg).Tally (fun _ => Begins (OwnKeys cfg)) (Requests cfg key part)
      (Config.start d m) c n) : n ≤ 1 := by
  have hreaches : ∀ {b}, ReachesOwnKeys cfg (Config.start d m) b → Reaches cfg (Config.start d m) b :=
    fun hb => hb.reaches
  refine System.Tally.le_one part.not_changes_self (fun k hk => ?_) rfl
    (fun b i => ∃ t, b.threads[i]? = some t ∧ KeyRecorded t.commits (prefixedKey key))
    (fun b a b' i hb _ hs hw => ?_) (fun b a b' i _ _ hs ho => ?_) (fun b i j hb hi hj => ?_) h
  · obtain ⟨body, rfl, -⟩ := Call.submits_iff.mp hk
    exact Prog.Within.bind (b := 0) (within_checkout part cfg body) fun _ => .ret _ 0
  · obtain ⟨⟨n, rfl⟩, ⟨t, ht, hsub⟩, hchange⟩ := hw
    obtain ⟨body, hcall, rfl⟩ := Call.submits_iff.mp hsub
    have hne : b'.mem ≠ b.mem := fun he => part.not_changes_self _ (he ▸ hchange)
    have hremembers := (hreaches hb).write_of_step ht hs hne
    rw [hcall] at hremembers
    refine ⟨t, ht, ?_⟩
    generalize hm : b'.mem = m' at hremembers
    cases hremembers with
    | traced e hmay => exact hmay.1
    | requested p hmay => exact hmay.1
  · obtain ⟨t, ht, p, hp, hkey⟩ := ho
    obtain ⟨u, hu, -, hpre⟩ := System.thread_of_step hs ht
    exact ⟨u, hu, p, hpre.subset hp, hkey⟩
  · obtain ⟨t, ht, hrt⟩ := hi
    obtain ⟨u, hu, hru⟩ := hj
    exact (hreaches hb).recorder_eq ht hu hrt hru

/-- The order a checkout has answered with. -/
def answeredOrder (t : ShopThread) : Option String :=
  match t.result with
  | some (.ok (.checkout response)) => some response.orderId
  | _ => none

theorem answeredOrder_eq {t : ShopThread} {o : String} (h : answeredOrder t = some o) :
    ∃ response, t.result = some (.ok (.checkout response)) ∧ response.orderId = o := by
  rw [answeredOrder] at h
  split at h
  · rename_i response hr
    exact ⟨response, hr, Option.some.inj h⟩
  · cases h

theorem ReachesOwnKeys.one_answer (h : ReachesOwnKeys cfg (Config.start d m) c) {t u : ShopThread}
    (ht : t ∈ c.threads) (hu : u ∈ c.threads) (hst : t.call.submits key = true)
    (hsu : u.call.submits key = true) {o o' : String} (hto : answeredOrder t = some o)
    (huo : answeredOrder u = some o') : o = o' := by
  have hanswer : ∀ v ∈ c.threads, v.call.submits key = true → ∀ {o}, answeredOrder v = some o →
      orderIdOf c.db (prefixedKey key) = some o ∨
        ∃ id, KeyRecorded v.commits (prefixedKey key) ∧ Placed v.commits id ∧ o = id.text := by
    intro v hv hsub o ho
    obtain ⟨body, hcall, rfl⟩ := Call.submits_iff.mp hsub
    obtain ⟨response, hr, rfl⟩ := answeredOrder_eq ho
    obtain ⟨_, hresponse, hnamed | ⟨id, ⟨hrec, hplaced⟩, he⟩⟩ := (h.answered hv hcall hr).ok _ rfl
    all_goals obtain rfl := Answer.checkout.inj hresponse
    · exact Or.inl hnamed
    · exact Or.inr ⟨id, hrec, hplaced, he⟩
  -- what is written under the key is the order of the call that has recorded it
  have hown : ∀ v ∈ c.threads, ∀ {o o' : String} {id : Uuid},
      orderIdOf c.db (prefixedKey key) = some o → KeyRecorded v.commits (prefixedKey key) →
      Placed v.commits id → o' = id.text → o = o' := by
    intro v hv o o' id hnamed hrec hplaced he
    obtain ⟨id', hid', rfl⟩ := h.payloadsOwned v hv key hrec o hnamed
    rw [he, h.reaches.placed_eq hv hid' hplaced]
  rcases hanswer t ht hst hto with hnamed | ⟨id, hrec, hplaced, he⟩ <;>
    rcases hanswer u hu hsu huo with hnamed' | ⟨id', hrec', hplaced', he'⟩
  · exact Option.some.inj (hnamed.symm.trans hnamed')
  · exact hown u hu hnamed hrec' hplaced' he'
  · exact (hown t ht hnamed' hrec hplaced he).symm
  · obtain ⟨i, hi⟩ := List.mem_iff_getElem?.mp ht
    obtain ⟨j, hj⟩ := List.mem_iff_getElem?.mp hu
    obtain rfl := h.reaches.recorder_eq hi hj hrec hrec'
    obtain rfl := Option.some.inj (hi.symm.trans hj)
    rw [he, he', h.reaches.placed_eq ht hplaced hplaced']

/-- In every run, from any database, whose other calls leave the keys of
checkouts alone: the submissions of a key insert one order at most, request one
payment at most, and all that answer name one order. -/
theorem one_key_one_order (key : String) (h : ReachesOwnKeys cfg (Config.start d m) c) :
    (ordersInserted key c).length ≤ 1 ∧
      (∀ part n, (shop cfg).Tally (fun _ => Begins (OwnKeys cfg)) (Requests cfg key part)
        (Config.start d m) c n → n ≤ 1) ∧
      ∀ t ∈ c.threads, ∀ u ∈ c.threads, t.call.submits key = true → u.call.submits key = true →
        ∀ o o', answeredOrder t = some o → answeredOrder u = some o' → o = o' :=
  ⟨(h.reaches.insertedOnce key).le_one, fun _ _ => requests_le_one,
    fun _ ht _ hu hst hsu _ _ hto huo => h.one_answer ht hu hst hsu hto huo⟩

end OneOrder

/-- Of two submissions the second finds the key of the first, and answers its
order when the first has a payment for it. -/
theorem one_key_one_order_two :
    ∃ c t u, ReachesOwnKeys sampleSettings (Config.start (withMenu emptyDatabase) {}) c ∧
      c.threads = [t, u] ∧ (ordersInserted "k" c).length = 1 ∧ c.mem.provider.length = 1 ∧
      ∃ o, answeredOrder t = some o ∧ answeredOrder u = some o := by
  let k := Call.checkout (sampleCheckout "yookassa_sbp")
  obtain ⟨c, hr, hc⟩ := exists_run_of_exec sampleSettings (fun k => k.submits "k" = true)
    (Config.start (withMenu emptyDatabase) {})
    (.call k :: .call k :: (runs 0 3 ++ runs 1 2 ++ runs 0 28 ++ .run 0 3 :: runs 0 9 ++ runs 1 3))
    (f := fun c => (c.threads.map fun t => (t.call.submits "k", (answeredOrder t).isSome),
      (ordersInserted "k" c).length, c.mem.provider.length))
    (b := ([(true, true), (true, true)], 1, 1)) (by decide) (by decide +kernel)
  obtain ⟨hthreads, hrest⟩ := Prod.mk.inj hc
  obtain ⟨hone, hprovider⟩ := Prod.mk.inj hrest
  have hown := reachesOwnKeys_of_submits hr
  have hsame := (one_key_one_order "k" hown).2.2
  obtain ⟨t, rest, hts, ht, hrest⟩ := List.map_eq_cons_iff.mp hthreads
  obtain ⟨u, rest', rfl, hu, hnil⟩ := List.map_eq_cons_iff.mp hrest
  obtain rfl := List.map_eq_nil_iff.mp hnil
  simp only [Prod.mk.injEq, Option.isSome_iff_exists] at ht hu
  obtain ⟨hst, o, ho⟩ := ht
  obtain ⟨hsu, o', ho'⟩ := hu
  obtain rfl := hsame t (by simp [hts]) u (by simp [hts]) hst hsu o o' ho ho'
  exact ⟨c, t, u, hown, hts, hone, hprovider, o, ho, ho'⟩

end Sieshka
