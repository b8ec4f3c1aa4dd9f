import Sieshka.Samples
import Sieshka.Specs.Shop

/-!
# Payments and orders that disagree

`confirm_payment` makes a payment `SUCCESS` also where its order cannot be moved
to `PAID`. Where the order waits for its payment while that is pending, a
payment that is `SUCCESS` belongs to an order that was paid, by this payment.
-/

namespace Sieshka

open Transactions Contract
open Relation (ReflTransGen)

/-! ## Orders that were paid -/

/-- `PAID` and all that can follow it. -/
def OrderState.wasPaid : OrderState → Bool
  | .DRAFT => false
  | .CONFIRMED => false
  | .PAYMENT_PENDING => false
  | _ => true

theorem OrderState.wasPaid_of_transition (s : OrderState) (e : OrderEvent) (s' : OrderState)
    (h : orderTransitions s e = some s') (hs : s.wasPaid = true) : s'.wasPaid = true := by
  cases s <;> cases e <;> simp only [orderTransitions, reduceCtorEq, Option.some.injEq] at h <;>
    first
    | (subst h; rfl)
    | cases hs

/-- An order that was paid does not wait for a payment again. -/
theorem not_orderPath_pending : ¬ OrderPath .PAID .PAYMENT_PENDING := fun h => by
  have hpaid := h.stays (P := fun st => st.wasPaid = true) OrderState.wasPaid_of_transition rfl
  cases hpaid

/-- The order is stored, and it has been `PAID`. -/
def WasPaid (d : Database) (o : Uuid) : Prop :=
  ∃ order, d.orders.find o = some order ∧ OrderPath .PAID order.state

theorem WasPaid.grows {d d' : Database} {o : Uuid} (h : WasPaid d o)
    (hg : d.orders.Grows Order.Later d'.orders) : WasPaid d' o := by
  obtain ⟨order, hfind, hpath⟩ := h
  obtain ⟨order', hfind', hl⟩ := hg _ _ hfind
  exact ⟨order', hfind', hpath.trans hl.path⟩

theorem WasPaid.not_pending {d : Database} {o : Uuid} (h : WasPaid d o) :
    ¬ StateAt d o .PAYMENT_PENDING := by
  rintro ⟨order, hfind, hst⟩
  obtain ⟨order', hfind', hpath⟩ := h
  obtain rfl := Option.some.inj (hfind.symm.trans hfind')
  exact not_orderPath_pending (hst ▸ hpath)

theorem WasPaid.of_stateAt {d : Database} {o : Uuid} (h : StateAt d o .PAID) : WasPaid d o := by
  obtain ⟨order, hfind, hst⟩ := h
  exact ⟨order, hfind, hst ▸ .refl⟩

/-! ## The law -/

/-- A payment that is `SUCCESS` belongs to an order that was paid, and it is the
only one of its order. -/
structure PaidLaw (d : Database) : Prop where
  paid : ∀ row ∈ d.payments.rows, row.state = .SUCCESS → WasPaid d row.orderId
  unique : ∀ row ∈ d.payments.rows, ∀ row' ∈ d.payments.rows, row.state = .SUCCESS →
    row'.state = .SUCCESS → row.orderId = row'.orderId → row = row'

/-- The call names the order of each payment under its provider id. -/
def OwnOrder (d : Database) : Call → Prop
  | .confirmPayment orderId providerId _ | .failPayment orderId providerId _ =>
      ∀ row ∈ withProviderId d providerId, readUuid orderId = some row.orderId
  | _ => True

instance (d : Database) (c : Call) : Decidable (OwnOrder d c) :=
  match c with
  | .confirmPayment _ providerId _ | .failPayment _ providerId _ =>
      inferInstanceAs (Decidable (∀ row ∈ withProviderId d providerId, _))
  | .checkout _ | .payOrder _ _ | .webhook _ | .triggerEvent _ _ | .dispatchOrder _ _ _
  | .dispatchKitchen _ _ _ | .transitionTicket _ _ | .maxWebhook _ _ | .transitionOrder _ _
  | .handleEvent _ _ | .createPayment _ _ _ _ | .syncFromMenu | .setQuantity _ _
  | .applyRestock _ | .stockSession _ _ => isTrue trivial

/-- The payment a write makes `SUCCESS`. -/
def Write.success : Write → Option Payment
  | .payment row => if row.state = .SUCCESS then some row else none
  | _ => none

/-- The payment waits to be paid: its order is `PAYMENT_PENDING`, or it is stored
as `SUCCESS` already. -/
def Awaited (d : Database) (row : Payment) : Prop :=
  StateAt d row.orderId .PAYMENT_PENDING ∨
    ∃ old ∈ d.payments.rows, old.id = row.id ∧ old.state = .SUCCESS

instance (d : Database) (o : Uuid) (st : OrderState) : Decidable (StateAt d o st) :=
  decidable_of_iff ((d.orders.find o).map Order.state = some st) Option.map_eq_some_iff

instance (d : Database) (row : Payment) : Decidable (Awaited d row) :=
  inferInstanceAs (Decidable (_ ∨ _))

/-- While a session has a payment made `SUCCESS` and not committed, the payment
waits to be paid. -/
def AwaitedIn (txn : Txn Write Lock) (d : Database) : Prop :=
  ∀ w ∈ txn.writes, ∀ row ∈ w.success, Awaited d row

instance (txn : Txn Write Lock) (d : Database) : Decidable (AwaitedIn txn d) :=
  inferInstanceAs (Decidable (∀ w ∈ txn.writes, ∀ row ∈ Write.success w, _))

/-- The call is a delivery of the provider. -/
def Call.isWebhook : Call → Bool
  | .webhook _ => true
  | _ => false

/-- Runs of all calls but the webhook, which finds the order elsewhere. -/
def paymentCalls (cfg : Settings) : ShopContract :=
  shopContract cfg (fun c => ∀ body, c ≠ .webhook body) (fun d _ => PaidLaw d) (fun _ => Evolves)
    fun c x => OwnOrder x.db c ∧ AwaitedIn x.txn x.db ∧ PaidLaw x.db

/-- How the payments that are `SUCCESS` change: none is new, or one that takes its
order from `PAYMENT_PENDING` to `PAID`. -/
def Succeeds (d d' : Database) : Prop :=
  (∀ row ∈ d'.payments.rows, row.state = .SUCCESS → row ∈ d.payments.rows) ∨
    ∃ row, d'.payments = d.payments.put row ∧ StateAt d row.orderId .PAYMENT_PENDING ∧
      StateAt d' row.orderId .PAID

theorem Succeeds.of_same {d d' : Database} (h : d'.payments = d.payments) : Succeeds d d' :=
  Or.inl fun _ hrow _ => h ▸ hrow

theorem Succeeds.of_put {d d' : Database} {row : Payment}
    (h : d'.payments = d.payments.put row) (hrow : row.state = .SUCCESS → row ∈ d.payments.rows) :
    Succeeds d d' := by
  refine Or.inl fun row' hrow' hst => ?_
  rw [h] at hrow'
  rcases Table.mem_put hrow' with rfl | hold
  · exact hrow hst
  · exact hold

theorem PaidLaw.succeeds {d d' : Database} (h : PaidLaw d) (hs : Succeeds d d')
    (ho : d.orders.Grows Order.Later d'.orders) : PaidLaw d' := by
  rcases hs with hold | ⟨row, hput, hpending, hpaid⟩
  · exact ⟨fun row hrow hst => (h.paid row (hold row hrow hst) hst).grows ho,
      fun row hrow row' hrow' hst hst' =>
        h.unique row (hold row hrow hst) row' (hold row' hrow' hst') hst hst'⟩
  -- an order that waited for its payment has had none before
  have hnone : ∀ old ∈ d.payments.rows, old.state = .SUCCESS → old.orderId ≠ row.orderId := by
    intro old hmem hst he
    exact (h.paid old hmem hst).not_pending (he ▸ hpending)
  have hcases : ∀ row' ∈ d'.payments.rows, row' = row ∨ row' ∈ d.payments.rows := by
    intro row' hrow'
    rw [hput] at hrow'
    exact Table.mem_put hrow'
  refine ⟨fun row₁ h₁ hst => ?_, fun row₁ h₁ row₂ h₂ hst₁ hst₂ he => ?_⟩
  · rcases hcases row₁ h₁ with rfl | hmem
    · exact .of_stateAt hpaid
    · exact (h.paid row₁ hmem hst).grows ho
  · rcases hcases row₁ h₁ with rfl | hmem₁ <;> rcases hcases row₂ h₂ with rfl | hmem₂
    · rfl
    · exact absurd he.symm (hnone row₂ hmem₂ hst₂)
    · exact absurd he (hnone row₁ hmem₁ hst₁)
    · exact h.unique row₁ hmem₁ row₂ hmem₂ hst₁ hst₂ he

section Commits

variable {cfg : Settings} {c : Call} {past : Past} {s : State} {txn : Txn Write Lock}
variable {d' : Database}

/-- A settlement names the order of its payment. -/
theorem MaySettle.ownOrder {kind : Settlement} {orderId : String} {row : Payment}
    (h : MaySettle cfg c past kind orderId row s) (hc : ∀ body, c ≠ .webhook body)
    (hfind : s.1.payments.find row.id = some row) (hown : OwnOrder s.1 c) :
    readUuid orderId = some row.orderId := by
  cases c with
  | confirmPayment oid providerId traceId =>
      obtain ⟨-, rfl, hprov, -⟩ := h
      exact hown row (mem_withProviderId.mpr ⟨hfind, hprov⟩)
  | failPayment oid providerId traceId =>
      obtain ⟨-, rfl, hprov, -⟩ := h
      exact hown row (mem_withProviderId.mpr ⟨hfind, hprov⟩)
  | webhook body => exact absurd rfl (hc body)
  | _ => exact h.elim

theorem Commits.succeeds (hc : ∀ body, c ≠ .webhook body)
    (ha : (paymentCalls cfg).assume c ⟨txn, past, s.1, s.2⟩)
    (h : Commits cfg (paymentCalls cfg).assume (paymentCalls cfg).rely c past s txn.writes d') :
    Succeeds s.1 d' := by
  cases h with
  | duplicate _ _ _ => exact .of_same rfl
  | recorded row _ _ => exact .of_same rfl
  | answered body _ id rest _ _ _ => exact .of_same rfl
  | customer body _ row _ => exact .of_same rfl
  | placed body _ id customerId items totalRub promoCode discountRub _ _ _ => exact .of_same rfl
  | moved row row' event st _ _ _ _ _ => exact .of_same rfl
  | cooked row row' orderId items lines d₁ ticket _ _ _ _ _ _ _ hsells _ _ _ =>
      exact .of_same (by rw [hsells.steps.same])
  | paymentCreated row order orders' _ _ _ _ hst _ =>
      exact .of_put rfl fun h => by rw [hst] at h; cases h
  | settled kind orderId row order orders' hfind hws hmay _ hid horder hmoves =>
      have hown : order.id = row.orderId :=
        Option.some.inj (hid.symm.trans (hmay.ownOrder hc hfind ha.1))
      cases kind with
      | fail => exact .of_put rfl fun h => by cases h
      | confirm =>
          have hsuccess : ∀ z : CallAt, AwaitedIn z.txn z.db →
              .payment { row with state := .SUCCESS } ∈ z.txn.writes →
              Awaited z.db { row with state := .SUCCESS } := fun z hz hmem =>
            hz _ hmem _ (by simp [Write.success])
          rcases hsuccess _ ha.2.1 hws with hpending | ⟨old, hmem, hidold, hst⟩
          · cases hmoves with
            | @moved st htr =>
                refine Or.inr ⟨{ row with state := .SUCCESS }, rfl, hpending, ?_⟩
                obtain ⟨order', hfind', hst'⟩ := hpending
                have hfind' : s.1.orders.find row.orderId = some order' := hfind'
                rw [← hown, horder] at hfind'
                obtain rfl := Option.some.inj hfind'
                rw [hst'] at htr
                obtain rfl := Option.some.inj htr
                refine ⟨{ order with state := .PAID }, ?_, rfl⟩
                change (s.1.orders.put { order with state := .PAID }).find row.orderId = _
                rw [← hown]
                exact Table.find_put_self _ _
            | kept hwhy =>
                -- the order was seen elsewhere, so the payment had been made already
                obtain ⟨z, ⟨⟨-, hz, hlaw⟩, hsince⟩, hmem, hnot⟩ := hwhy
                have hev : Evolves (z.db, z.mem) s := .of_reflTransGen (fun _ _ h => h) hsince
                rcases hsuccess z hz hmem with hp | ⟨old, hold, hidold, hst⟩
                · exact absurd (hown ▸ hp) hnot
                · obtain ⟨row', hfind', hl⟩ := hev.payments _ _ (Table.find_of_mem hold)
                  have hrow : row' = row := by
                    rw [hidold] at hfind'
                    exact Option.some.inj (hfind'.symm.trans hfind)
                  have hown' : old.orderId = row.orderId := by
                    rw [← hrow, hl]
                  have hpaid := (hlaw.paid old hold hst).grows hev.orders
                  rw [hown'] at hpaid
                  exact absurd hpending hpaid.not_pending
          · refine .of_put rfl fun _ => ?_
            have hfind' := Table.find_of_mem hmem
            rw [hidold] at hfind'
            obtain rfl := Option.some.inj (hfind'.symm.trans hfind)
            have hsame : ({ old with state := Settlement.confirm.state } : Payment) = old := by
              rw [← show old.state = Settlement.confirm.state from hst]
            rw [hsame]
            exact hmem
  | ticketMoved row event st _ _ _ => exact .of_same rfl
  | stock _ h _ => exact .of_same (by rw [h.same])

end Commits

/-! ## Runs -/

theorem isShop_paymentCalls (cfg : Settings) : IsShop cfg (paymentCalls cfg) where
  guar c past s s' hc hi h := by
    refine ⟨h, ?_⟩
    cases h with
    | committed txn ha h => exact hi.succeeds (h.succeeds hc ha) h.evolves.orders
    | remembered _ => exact hi
  rely _ _ _ h := h

theorem valid_paymentCalls (cfg : Settings) : (paymentCalls cfg).Valid (shop cfg) :=
  valid_shop (isShop_paymentCalls cfg) (fun _ _ _ _ _ _ _ _ _ h => h.evolves)
    (fun _ _ _ _ h hi => ⟨hi, fun _ => evolves_providerMove h⟩) (fun _ _ hi => hi)
    (fun _ _ _ _ _ _ _ _ _ => trivial) fun _ _ _ _ _ _ => trivial

/-- No webhook begins, and a delivery names the order of its payment. -/
def OwnOrders (c : ShopConfig) : Action Call ProviderMove → Prop
  | .call k => k.isWebhook = false
  | .run i _ | .fault i => ∀ t ∈ c.threads[i]?, OwnOrder c.db t.call
  | _ => True

/-- Where the step is one of a session that has made a payment `SUCCESS` and not
committed it, the payment waits to be paid. -/
def ConfirmsAwaited (c : ShopConfig) : Action Call ProviderMove → Prop
  | .run i _ | .fault i => ∀ t ∈ c.threads[i]?, AwaitedIn t.txn c.db
  | _ => True

section Runs

variable {cfg : Settings} {d : Database} {m : Memory} {c c' : ShopConfig}

theorem allows_paymentCalls (c : ShopConfig) (a : Action Call ProviderMove)
    (hc : (paymentCalls cfg).Ok c) (h : OwnOrders c a ∧ ConfirmsAwaited c a) :
    (paymentCalls cfg).Allows (S := shop cfg) c a := by
  cases a with
  | call k =>
      refine ⟨?_, fun _ _ _ => ⟨trivial, trivial⟩⟩
      rintro body rfl
      cases h.1
  | run i n => exact fun t ht => ⟨⟨h.1 t ht, h.2 t ht, hc.inv⟩, fun _ => trivial⟩
  | fault i => exact fun t ht => ⟨⟨h.1 t ht, h.2 t ht, hc.inv⟩, trivial⟩
  | kill i => exact trivial
  | restart => exact trivial
  | world v => exact trivial

/-- The order has gone from `PAYMENT_PENDING` to `PAID` in a commit of the run. -/
def PaidInRun (c : ShopConfig) (o : Uuid) : Prop :=
  ∃ p ∈ c.commits, StateAt p.2.1 o .PAYMENT_PENDING ∧ StateAt p.2.2 o .PAID

theorem PaidLaw.of_no_success (h : ∀ row ∈ d.payments.rows, row.state ≠ .SUCCESS) : PaidLaw d where
  paid row hrow hst := absurd hst (h row hrow)
  unique row hrow _ _ hst := absurd hst (h row hrow)

/-- From a database in which no payment is `SUCCESS`, and in every run of any
calls but the webhook in which every delivery names its payment's order and
every payment that is being confirmed waits to be paid: a payment is `SUCCESS`
only if its order went from `PAYMENT_PENDING` to `PAID` in the run, and it is
the only one of its order. -/
theorem payments_agree_with_orders (hd : ∀ row ∈ d.payments.rows, row.state ≠ .SUCCESS)
    (h : (shop cfg).Runs (fun c a => OwnOrders c a ∧ ConfirmsAwaited c a) (Config.start d m) c) :
    (∀ row ∈ c.db.payments.rows, row.state = .SUCCESS →
      PaidInRun c row.orderId ∧ WasPaid c.db row.orderId) ∧
    ∀ row ∈ c.db.payments.rows, ∀ row' ∈ c.db.payments.rows, row.state = .SUCCESS →
      row'.state = .SUCCESS → row.orderId = row'.orderId → row = row' := by
  have hok : (paymentCalls cfg).Ok (Config.start d m) := Ok.start (.of_no_success hd)
  have hlaw : PaidLaw c.db := (hok.runs (valid_paymentCalls cfg) allows_paymentCalls h).inv
  have hrun : ∀ row ∈ c.db.payments.rows, row.state = .SUCCESS → PaidInRun c row.orderId := by
    refine Ok.runs_induction (valid_paymentCalls cfg) hok allows_paymentCalls
      (P := fun c => ∀ row ∈ c.db.payments.rows, row.state = .SUCCESS → PaidInRun c row.orderId)
      (fun row hrow hst => absurd hst (hd row hrow)) (fun b a b' hb _ _ _ hcaused ih => ?_) h
    cases Changed.of_caused (fun _ _ _ _ h => h) hcaused with
    | kept hdb hc =>
        rw [hdb]
        exact fun row hrow hst => by rw [PaidInRun, hc]; exact ih row hrow hst
    | committed t txn ht ha hcommit _ hc =>
        have hold : ∀ o, PaidInRun b o → PaidInRun b' o := by
          rintro o ⟨p, hp, hpaid⟩
          exact ⟨p, hc.mem_iff.mpr (List.mem_cons_of_mem _ hp), hpaid⟩
        rcases hcommit.succeeds (s := (b.db, b.mem)) (hb.calls t ht) ha with hsame | ⟨row, hput, hpending, hpaid⟩
        · exact fun row hrow hst => hold _ (ih row (hsame row hrow hst) hst)
        · intro row' hrow' hst
          rw [hput] at hrow'
          rcases Table.mem_put hrow' with rfl | hmem
          · exact ⟨_, hc.mem_iff.mpr List.mem_cons_self, hpending, hpaid⟩
          · exact hold _ (ih row' hmem hst)
  exact ⟨fun row hrow hst => ⟨hrun row hrow hst, hlaw.paid row hrow hst⟩, hlaw.unique⟩

end Runs

/-! ## A payment of a cancelled order -/

instance (c : ShopConfig) (a : Action Call ProviderMove) : Decidable (OwnOrders c a) :=
  match a with
  | .call _ => inferInstanceAs (Decidable (_ = false))
  | .run i _ | .fault i => inferInstanceAs (Decidable (∀ t ∈ c.threads[i]?, OwnOrder c.db t.call))
  | .kill _ | .restart | .world _ => isTrue trivial

instance (c : ShopConfig) (a : Action Call ProviderMove) : Decidable (ConfirmsAwaited c a) :=
  match a with
  | .run i _ | .fault i => inferInstanceAs (Decidable (∀ t ∈ c.threads[i]?, AwaitedIn t.txn c.db))
  | .call _ | .kill _ | .restart | .world _ => isTrue trivial

instance (c : ShopConfig) (o : Uuid) : Decidable (PaidInRun c o) :=
  inferInstanceAs (Decidable (∃ p ∈ c.commits, _ ∧ _))

/-- An order that waits for its one payment. -/
def sampleAwaiting : Database :=
  databaseWith [sampleOrder 1 .PAYMENT_PENDING "yookassa_sbp" []]
    [samplePayment 9 1 "p" .PENDING]

/-- The payment of an order that staff have cancelled is confirmed: it is
`SUCCESS`, and the order was never paid. -/
theorem payment_of_cancelled_order_confirmed :
    ¬ ∀ d m c, (∀ row ∈ d.payments.rows, row.state ≠ .SUCCESS) →
      (shop sampleSettings).Runs OwnOrders (Config.start d m) c →
      ∀ row ∈ c.db.payments.rows, row.state = .SUCCESS → PaidInRun c row.orderId := by
  intro hall
  obtain ⟨c, hr, hc⟩ := exists_run_of_execIf sampleSettings OwnOrders
    (Config.start sampleAwaiting {})
    (.call (.dispatchOrder .staff (Uuid.text 1) "CANCEL") :: runs 0 7 ++
      .call (.confirmPayment (Uuid.text 1) "p" "t") :: runs 1 8)
    (f := fun c => (c.db.payments.rows, decide (PaidInRun c 1)))
    (v := ([samplePayment 9 1 "p" .SUCCESS], false)) (by decide +kernel)
  obtain ⟨hrows, hno⟩ := Prod.mk.inj hc
  exact of_decide_eq_false hno
    (hall sampleAwaiting {} c (by decide) hr (samplePayment 9 1 "p" .SUCCESS) (by simp [hrows]) rfl)

/-- The payment of an order that waits for it is confirmed, and the order is paid. -/
theorem payments_agree_with_orders_confirmed :
    ∃ c, (shop sampleSettings).Runs (fun c a => OwnOrders c a ∧ ConfirmsAwaited c a)
        (Config.start sampleAwaiting {}) c ∧
      c.db.payments.rows = [samplePayment 9 1 "p" .SUCCESS] ∧ PaidInRun c 1 := by
  obtain ⟨c, hr, hrows⟩ := exists_run_of_execIf sampleSettings
    (fun c a => OwnOrders c a ∧ ConfirmsAwaited c a) (Config.start sampleAwaiting {})
    (.call (.confirmPayment (Uuid.text 1) "p" "t") :: runs 0 11)
    (f := fun c => c.db.payments.rows) (v := [samplePayment 9 1 "p" .SUCCESS]) (by decide +kernel)
  have hpaid := ((payments_agree_with_orders (by decide) hr).1 (samplePayment 9 1 "p" .SUCCESS)
    (by simp [hrows]) rfl).1
  exact ⟨c, hr, hrows, hpaid⟩

end Sieshka
