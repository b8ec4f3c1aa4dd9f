import Sieshka.Properties.PaidOrders
import Sieshka.Transactions.Counting

/-!
# Orders and the payments that pay for them

The webhook takes the order from the trace event of a delivery and the payment
from its object. Where the two belong together when a delivery makes an order
`PAID`, an order that is not paid in cash is underway only with a payment of its
own that the provider reports as paid.
-/

namespace Sieshka

open Transactions Contract

/-! ## The law -/

/-- `PAID` and every later state that is not `CANCELLED`. -/
def OrderState.underway : OrderState → Bool
  | .PAID => true
  | .COOKING => true
  | .PACKING => true
  | .COURIER_ASSIGNED => true
  | .DELIVERING => true
  | .DELIVERED => true
  | .CLOSED => true
  | _ => false

/-- An order gets underway by a payment or by the kitchen. -/
theorem OrderState.underway_of_transition {s s' : OrderState} {e : OrderEvent}
    (h : orderTransitions s e = some s') (hs' : s'.underway = true)
    (hpaid : e ≠ .PAYMENT_CONFIRMED) (hcook : e ≠ .START_COOKING) : s.underway = true := by
  cases s <;> cases e <;> simp only [orderTransitions, reduceCtorEq, Option.some.injEq] at h <;>
    first
    | rfl
    | exact absurd rfl hpaid
    | exact absurd rfl hcook
    | (subst h; cases hs')

/-- The provider reports the payment as succeeded and paid for the amount. -/
def ReportedPaid (m : Memory) (row : Payment) (amount : ℚ) : Prop :=
  ∃ providerId remote charged, row.providerId = some providerId ∧
    findRemote m.provider providerId = some remote ∧ remote.status = .succeeded ∧
    remote.paid = true ∧ remote.amount = some charged ∧ charged.value = some amount

theorem ReportedPaid.grows {s s' : State} {r : Payment} {amount : ℚ}
    (h : ReportedPaid s.2 r amount) (he : Evolves s s') : ReportedPaid s'.2 r amount := by
  obtain ⟨providerId, remote, charged, hid, hfind, hst, hpaid⟩ := h
  exact ⟨providerId, remote, charged, hid, he.final hfind (by rw [hst]; rfl), hst, hpaid⟩

/-- A payment the provider agrees to have been paid. -/
theorem ReportedPaid.of_agrees {m : Memory} {r : Payment} {providerId : String}
    {remote : RemotePayment} (hid : r.providerId = some providerId)
    (hfind : findRemote m.provider providerId = some remote)
    (h : providerAgrees remote r .succeeded = true) : ReportedPaid m r r.amount := by
  simp only [providerAgrees] at h
  split_ifs at h with hst hpaid
  split at h
  · cases h
  · rename_i charged hcharged
    split at h
    · cases h
    · rename_i value hvalue
      obtain ⟨hvalue', -⟩ := Bool.and_eq_true_iff.mp h
      refine ⟨providerId, remote, charged, hid, hfind, not_not.mp hst, ?_, hcharged, ?_⟩
      · simpa using hpaid
      · rw [hvalue, of_decide_eq_true hvalue']

/-- A payment is over the total of its order; one that is `SUCCESS` is reported as
paid; and an order underway that is not paid in cash has one. -/
structure BindingLaw (d : Database) (m : Memory) : Prop where
  amount : ∀ row ∈ d.payments.rows, ∃ order, d.orders.find row.orderId = some order ∧
    order.totalRub.map Int.cast = some row.amount
  success : ∀ row ∈ d.payments.rows, row.state = .SUCCESS → ReportedPaid m row row.amount
  underway : ∀ order ∈ d.orders.rows, order.paymentMethod ≠ some "cash" →
    order.state.underway = true → ∃ row ∈ d.payments.rows, row.orderId = order.id ∧
      row.state = .SUCCESS

/-- How the orders may change while the payments do not: none gets underway. -/
def KeepsUnderway (d d' : Database) : Prop :=
  ∀ order ∈ d'.orders.rows, order.paymentMethod ≠ some "cash" → order.state.underway = true →
    ∃ old ∈ d.orders.rows, old.id = order.id ∧ old.paymentMethod ≠ some "cash" ∧
      old.state.underway = true

theorem KeepsUnderway.of_same {d d' : Database} (h : d'.orders = d.orders) : KeepsUnderway d d' :=
  fun order hmem hcash hst => ⟨order, h ▸ hmem, rfl, hcash, hst⟩

/-- An order that is written as it was or gets no further than before. -/
theorem KeepsUnderway.of_put {d d' : Database} {r t : Order}
    (hfind : d.orders.find r.id = some r) (hput : d'.orders = d.orders.put t)
    (hid : t.id = r.id) (hpay : t.paymentMethod = r.paymentMethod)
    (hst : t.paymentMethod ≠ some "cash" → t.state.underway = true →
      r.state.underway = true) : KeepsUnderway d d' := by
  intro order hmem hcash hunder
  rw [hput] at hmem
  rcases Table.mem_put hmem with rfl | hmem
  · exact ⟨r, (Table.find_some hfind).1, hid.symm, hpay ▸ hcash, hst hcash hunder⟩
  · exact ⟨order, hmem, rfl, hcash, hunder⟩

theorem BindingLaw.keeps {d d' : Database} {m m' : Memory} (h : BindingLaw d m)
    (he : Evolves (d, m) (d', m')) (hpay : d'.payments = d.payments) (hkeep : KeepsUnderway d d') :
    BindingLaw d' m' where
  amount row hrow := by
    obtain ⟨order, hfind, htotal⟩ := h.amount row (hpay ▸ hrow)
    obtain ⟨order', hfind', hl⟩ := he.orders _ _ hfind
    refine ⟨order', hfind', ?_⟩
    rw [hl.same]
    exact htotal
  success row hrow hst := (h.success row (hpay ▸ hrow) hst).grows he
  underway order hmem hcash hunder := by
    obtain ⟨old, hold, hid, hcash', hunder'⟩ := hkeep order hmem hcash hunder
    obtain ⟨row, hrow, horder, hst⟩ := h.underway old hold hcash' hunder'
    exact ⟨row, hpay ▸ hrow, horder.trans hid, hst⟩

/-- A payment is settled, and an order gets underway by it at most. -/
theorem BindingLaw.settle {s s' : State} {row : Payment} {st : PaymentState}
    (h : BindingLaw s.1 s.2) (he : Evolves s s') (hfind : s.1.payments.find row.id = some row)
    (hput : s'.1.payments = s.1.payments.put { row with state := st })
    (hkept : row.state = .SUCCESS → st = .SUCCESS)
    (hreported : st = .SUCCESS → ReportedPaid s.2 row row.amount)
    (horders : ∀ order ∈ s'.1.orders.rows, order.paymentMethod ≠ some "cash" →
      order.state.underway = true → (∃ old ∈ s.1.orders.rows, old.id = order.id ∧
        old.paymentMethod ≠ some "cash" ∧ old.state.underway = true) ∨
          st = .SUCCESS ∧ row.orderId = order.id) : BindingLaw s'.1 s'.2 := by
  have hnew : ({ row with state := st } : Payment) ∈ s'.1.payments.rows := by
    rw [hput]
    exact Table.mem_put_self _ _
  refine ⟨fun row' hrow' => ?_, fun row' hrow' hst => ?_, fun order hmem hcash hunder => ?_⟩
  · have hold : ∃ order, s.1.orders.find row'.orderId = some order ∧
        order.totalRub.map Int.cast = some row'.amount := by
      rw [hput] at hrow'
      rcases Table.mem_put hrow' with rfl | hrow'
      · exact h.amount row (Table.find_some hfind).1
      · exact h.amount row' hrow'
    obtain ⟨order, ho, htotal⟩ := hold
    obtain ⟨order', ho', hl⟩ := he.orders _ _ ho
    refine ⟨order', ho', ?_⟩
    rw [hl.same]
    exact htotal
  · rw [hput] at hrow'
    rcases Table.mem_put hrow' with rfl | hrow'
    · exact ReportedPaid.grows (r := row) (hreported hst) he
    · exact (h.success row' hrow' hst).grows he
  · rcases horders order hmem hcash hunder with ⟨old, hold, hid, hcash', hunder'⟩ | ⟨hst, hrow⟩
    · obtain ⟨paid, hpaid, horder, hsuccess⟩ := h.underway old hold hcash' hunder'
      by_cases hsame : paid.id = row.id
      · have heq : paid = row := by
          have hfind' := Table.find_of_mem hpaid
          rw [hsame, hfind] at hfind'
          exact (Option.some.inj hfind').symm
        subst heq
        exact ⟨_, hnew, horder.trans hid, hkept hsuccess⟩
      · refine ⟨paid, ?_, horder.trans hid, hsuccess⟩
        rw [hput, Table.mem_rows_iff]
        have hne : ({ row with state := st } : Payment).id ≠ paid.id := fun he => hsame he.symm
        exact (Table.find_put_of_ne _ hne).trans (Table.find_of_mem hpaid)
    · exact ⟨_, hnew, hrow, hst⟩

/-! ## Calls and steps -/

/-- The calls through which customers, the provider and the staff move orders. -/
def Call.isFront : Call → Bool
  | .checkout _ => true
  | .payOrder _ _ => true
  | .webhook _ => true
  | .dispatchOrder _ _ _ => true
  | .dispatchKitchen _ _ _ => true
  | _ => false

/-- The notification a webhook call delivers. -/
def Call.notification (cfg : Settings) : Call → Option Notification
  | .webhook body =>
      match parseNotification cfg body with
      | .ok found => found
      | .error _ => none
  | _ => none

theorem Call.notification_webhook {cfg : Settings} {body : Option Json} {n : Notification}
    (h : parseNotification cfg body = .ok (some n)) :
    (Call.webhook body).notification cfg = some n := by
  rw [notification, h]

/-- The order a delivery names is the order of the payment, if it waits for one. -/
def NamesOrderOf (cfg : Settings) (c : Call) (x : CallAt) (row : Payment) : Prop :=
  ∀ n ∈ c.notification cfg, ∀ e ∈ findTrace x.mem.trace n.traceId, ∀ order ∈ x.db.orders.rows,
    order.state = .PAYMENT_PENDING → readUuid e.entityId = some order.id → row.orderId = order.id

instance (cfg : Settings) (c : Call) (x : CallAt) (row : Payment) :
    Decidable (NamesOrderOf cfg c x row) :=
  inferInstanceAs (Decidable (∀ n ∈ c.notification cfg, ∀ e ∈ findTrace x.mem.trace n.traceId,
    ∀ order ∈ x.db.orders.rows, _ → _ → _))

/-- While a delivery has a payment made `SUCCESS` and not committed, the order it
names is the order of the payment, if it waits for one. -/
def NamesPayer (cfg : Settings) (c : Call) (x : CallAt) : Prop :=
  ∀ w ∈ x.txn.writes, ∀ row ∈ w.success, NamesOrderOf cfg c x row

/-- An order the call has seen paid has been paid. -/
def PaidSince (x : CallAt) : Prop := ∀ o, PaidIn x.past o → WasPaid x.db o

def bindingCalls (cfg : Settings) : ShopContract :=
  shopContract cfg (fun c => c.isFront = true) BindingLaw (fun _ => Evolves)
    fun c x => NamesPayer cfg c x ∧ PaidSince x

section Commits

variable {cfg : Settings} {c : Call} {past : Past} {s : State} {txn : Txn Write Lock}
variable {d' : Database}

theorem May.underway_kept {row : Order} {event : OrderEvent} (hc : c.isFront = true)
    (h : May cfg c past s.1 row event) (hcook : event ≠ .START_COOKING) :
    event ≠ .PAYMENT_CONFIRMED := by
  rintro rfl
  cases c with
  | dispatchOrder role orderId e =>
      obtain ⟨-, -, hrole⟩ := h
      cases role <;> cases hrole
  | dispatchKitchen role ticketId e =>
      obtain ⟨-, -, -, -, p, -, ⟨he, -⟩ | ⟨he, -⟩⟩ := h <;> cases he
  | checkout body =>
      obtain ⟨-, -, he | ⟨he, -⟩ | ⟨he, -⟩⟩ := h <;> cases he
  | webhook body => cases h.1
  | payOrder _ _ => exact h.elim
  | _ => cases hc

/-- Only an order paid in cash, or one that has been paid, gets to the kitchen. -/
theorem May.cooks {row : Order} (hc : c.isFront = true)
    (h : May cfg c past s.1 row .START_COOKING) :
    row.paymentMethod = some "cash" ∨ PaidIn past row.id := by
  cases c with
  | dispatchOrder role orderId e =>
      obtain ⟨-, -, hrole⟩ := h
      cases role <;> cases hrole
  | dispatchKitchen role ticketId e =>
      obtain ⟨-, -, -, -, p, -, ⟨he, -⟩ | ⟨he, -⟩⟩ := h <;> cases he
  | checkout body =>
      obtain ⟨-, hpay, he | ⟨he, -⟩ | ⟨-, hcash⟩⟩ := h
      · cases he
      · cases he
      · exact Or.inl (hcash ▸ hpay)
  | webhook body => exact Or.inr h.2
  | payOrder _ _ => exact h.elim
  | _ => cases hc

/-- A payment is made over the total of its order. -/
theorem MayPay.amount {row : Order} {amount : ℚ} {currency : String} (hc : c.isFront = true)
    (h : MayPay c past row amount currency) : row.totalRub.map Int.cast = some amount := by
  cases c with
  | payOrder orderId body => exact h.2.1
  | checkout body => exact h.2.2.2.1
  | webhook body => exact h.elim
  | dispatchOrder _ _ _ => exact h.elim
  | dispatchKitchen _ _ _ => exact h.elim
  | _ => cases hc

/-- A settlement of a delivery, with what the provider reports. -/
theorem MaySettle.delivered {kind : Settlement} {orderId : String} {row : Payment}
    (hc : c.isFront = true) (h : MaySettle cfg c past kind orderId row s) :
    ∃ n e remote, c.notification cfg = some n ∧ n.kind = kind ∧
      findTrace s.2.trace n.traceId = some e ∧ e.entityId = orderId ∧
      row.providerId = some n.paymentId ∧ findRemote s.2.provider n.paymentId = some remote ∧
      providerAgrees remote row kind.expected = true := by
  cases c with
  | webhook body =>
      obtain ⟨n, hn, rfl, hprov, -, ⟨e, he, hid⟩, remote, hremote, hagrees⟩ := h
      exact ⟨n, e, remote, Call.notification_webhook hn, rfl, he, hid, hprov, hremote, hagrees⟩
  | checkout _ => exact h.elim
  | payOrder _ _ => exact h.elim
  | dispatchOrder _ _ _ => exact h.elim
  | dispatchKitchen _ _ _ => exact h.elim
  | _ => cases hc

/-- A settlement moves only an order that waits for a payment. -/
theorem Settlement.pending {kind : Settlement} {st st' : OrderState}
    (h : orderTransitions st kind.event = some st') : st = .PAYMENT_PENDING := by
  cases kind <;> cases st <;>
    first
    | rfl
    | cases h

/-- The status the provider agrees to. -/
theorem status_of_agrees {remote : RemotePayment} {row : Payment} {expected : RemoteStatus}
    (h : providerAgrees remote row expected = true) : remote.status = expected := by
  by_contra hne
  rw [providerAgrees, if_pos hne] at h
  cases h

/-- An order that gets to the kitchen was underway, where it is not paid in cash: one that
has been paid does not go back to `CONFIRMED`. -/
theorem May.cooks_underway {row : Order} {st : OrderState} (hc : c.isFront = true)
    (hsince : PaidSince ⟨txn, past, s.1, s.2⟩) (hfind : s.1.orders.find row.id = some row)
    (h : May cfg c past s.1 row .START_COOKING)
    (htr : orderTransitions row.state .START_COOKING = some st)
    (hcash : row.paymentMethod ≠ some "cash") : row.state.underway = true := by
  rcases h.cooks hc with hpay | hpaid
  · exact absurd hpay hcash
  · obtain ⟨order, hfind', hpath⟩ := hsince row.id hpaid
    obtain rfl := Option.some.inj (hfind.symm.trans hfind')
    have hwas := hpath.stays (P := fun st => st.wasPaid = true)
      OrderState.wasPaid_of_transition rfl
    cases hst : row.state <;> rw [hst] at htr hwas <;>
      first
      | rfl
      | (cases hwas; done)
      | cases htr

/-- An order that is underway after a transition was so before, or gets so by it. -/
theorem Moves.underway {t t' : Table Order.id} {row order : Order} {event : OrderEvent}
    {why : Prop} (hfind : t.find row.id = some row) (h : Moves t row event why t')
    (hmem : order ∈ t'.rows) (hunder : order.state.underway = true) :
    (∃ old ∈ t.rows, old.id = order.id ∧ old.paymentMethod = order.paymentMethod ∧
      old.state.underway = true) ∨
    (event = .PAYMENT_CONFIRMED ∨ event = .START_COOKING) ∧ order.id = row.id ∧
      ∃ st, orderTransitions row.state event = some st := by
  cases h with
  | kept _ => exact Or.inl ⟨order, hmem, rfl, rfl, hunder⟩
  | @moved st htr =>
      rcases Table.mem_put hmem with rfl | hmem
      · by_cases hevent : event = .PAYMENT_CONFIRMED ∨ event = .START_COOKING
        · exact Or.inr ⟨hevent, rfl, st, htr⟩
        · rw [not_or] at hevent
          exact Or.inl ⟨row, (Table.find_some hfind).1, rfl, rfl,
            OrderState.underway_of_transition htr hunder hevent.1 hevent.2⟩
      · exact Or.inl ⟨order, hmem, rfl, rfl, hunder⟩

/-- A payment is recorded, over the total of its order. -/
theorem BindingLaw.paymentCreated {row : Payment} {order : Order} {orders' : Table Order.id}
    (h : BindingLaw s.1 s.2)
    (he : Evolves s ({ s.1 with payments := s.1.payments.put row, orders := orders' }, s.2))
    (habs : s.1.payments.find row.id = none) (hfind : s.1.orders.find row.orderId = some order)
    (hamount : order.totalRub.map Int.cast = some row.amount) (hst : row.state = .PENDING)
    (hmoves : Moves s.1.orders order .REQUEST_PAYMENT True orders') :
    BindingLaw { s.1 with payments := s.1.payments.put row, orders := orders' } s.2 where
  amount row' hrow' := by
    have hold : ∃ order, s.1.orders.find row'.orderId = some order ∧
        order.totalRub.map Int.cast = some row'.amount := by
      rcases Table.mem_put hrow' with rfl | hmem
      · exact ⟨order, hfind, hamount⟩
      · exact h.amount row' hmem
    obtain ⟨o, ho, htotal⟩ := hold
    obtain ⟨o', ho', hl⟩ := he.orders _ _ ho
    refine ⟨o', ho', ?_⟩
    rw [hl.same]
    exact htotal
  success row' hrow' hst' := by
    rcases Table.mem_put hrow' with rfl | hmem
    · rw [hst] at hst'
      cases hst'
    · exact h.success row' hmem hst'
  underway order' hmem hcash hunder := by
    have hid : order.id = row.orderId := (Table.find_some hfind).2
    obtain ⟨old, hold, hid', hpay, hunder'⟩ | ⟨hevent | hevent, -⟩ :=
      hmoves.underway (hid ▸ hfind) hmem hunder
    · obtain ⟨paid, hpaid, horder, hsuccess⟩ := h.underway old hold (hpay ▸ hcash) hunder'
      refine ⟨paid, ?_, horder.trans hid', hsuccess⟩
      rw [Table.mem_rows_iff]
      refine (Table.find_put_of_ne _ fun he => ?_).trans (Table.find_of_mem hpaid)
      rw [he, Table.find_of_mem hpaid] at habs
      cases habs
    · cases hevent
    · cases hevent

/-- The provider takes back no payment that has succeeded. -/
theorem ReportedPaid.confirms {m : Memory} {row : Payment} {amount : ℚ} {kind : Settlement}
    {providerId : String} {remote : RemotePayment} (h : ReportedPaid m row amount)
    (hprov : row.providerId = some providerId)
    (hremote : findRemote m.provider providerId = some remote)
    (hagrees : providerAgrees remote row kind.expected = true) : kind = .confirm := by
  obtain ⟨providerId', remote', charged, hid, hremote', hsucceeded, -⟩ := h
  obtain rfl := Option.some.inj (hprov.symm.trans hid)
  obtain rfl := Option.some.inj (hremote.symm.trans hremote')
  have hexpected := status_of_agrees hagrees
  rw [hsucceeded] at hexpected
  cases kind with
  | confirm => rfl
  | fail => cases hexpected

/-- A payment is settled as the provider reports it, with the order it belongs to if that
waits for a payment. -/
theorem BindingLaw.settled {kind : Settlement} {row : Payment} {order : Order}
    {orders' : Table Order.id} {why : Prop} {providerId : String} {remote : RemotePayment}
    (h : BindingLaw s.1 s.2)
    (he : Evolves s ({ s.1 with
      payments := s.1.payments.put { row with state := kind.state }, orders := orders' }, s.2))
    (hfind : s.1.payments.find row.id = some row) (hprov : row.providerId = some providerId)
    (hremote : findRemote s.2.provider providerId = some remote)
    (hagrees : providerAgrees remote row kind.expected = true)
    (horder : s.1.orders.find order.id = some order)
    (hmoves : Moves s.1.orders order kind.event why orders')
    (hnames : kind = .confirm → order.state = .PAYMENT_PENDING → row.orderId = order.id) :
    BindingLaw { s.1 with
      payments := s.1.payments.put { row with state := kind.state }, orders := orders' } s.2 := by
  apply h.settle he hfind rfl
  · intro hst
    rw [(h.success row (Table.find_some hfind).1 hst).confirms hprov hremote hagrees]
    rfl
  · intro hconfirm
    cases kind with
    | confirm => exact .of_agrees hprov hremote hagrees
    | fail => cases hconfirm
  · intro order' hmem hcash hunder
    obtain ⟨old, hold, hid, hpay, hunder'⟩ | ⟨hevent, hid, st, htr⟩ :=
      hmoves.underway horder hmem hunder
    · exact Or.inl ⟨old, hold, hid, hpay ▸ hcash, hunder'⟩
    · cases kind with
      | confirm => exact Or.inr ⟨rfl, (hnames rfl (Settlement.pending htr)).trans hid.symm⟩
      | fail => cases hevent with
        | inl hevent => cases hevent
        | inr hevent => cases hevent

theorem Commits.binding (hc : c.isFront = true) (hlaw : BindingLaw s.1 s.2)
    (ha : (bindingCalls cfg).assume c ⟨txn, past, s.1, s.2⟩)
    (h : Commits cfg (bindingCalls cfg).assume (bindingCalls cfg).rely c past s txn.writes d') :
    BindingLaw d' s.2 := by
  have he := h.evolves
  cases h with
  | duplicate _ _ _ => exact hlaw
  | recorded row _ _ => exact hlaw.keeps he rfl (.of_same rfl)
  | answered body _ id rest _ _ _ => exact hlaw.keeps he rfl (.of_same rfl)
  | customer body _ row _ => exact hlaw.keeps he rfl (.of_same rfl)
  | placed body _ id customerId items totalRub promoCode discountRub _ _ _ =>
      refine hlaw.keeps he rfl fun order hmem hcash hunder => ?_
      rcases Table.mem_put hmem with rfl | hmem
      · cases hunder
      · exact ⟨order, hmem, rfl, hcash, hunder⟩
  | moved row row' event st hfind hmay htr hev hrow =>
      refine hlaw.keeps he rfl (.of_put hfind rfl (by rw [hrow]) (by rw [hrow]) fun _ hunder => ?_)
      rw [hrow] at hunder
      exact OrderState.underway_of_transition htr hunder (hmay.underway_kept hc hev) hev
  | cooked row row' orderId items lines d₁ ticket hfind hmay _ htr hrow _ _ hsells _ _ _ =>
      have hsame := hsells.steps.same
      have hpay : row'.paymentMethod = row.paymentMethod := by rw [hrow]
      apply hlaw.keeps he (by rw [hsame])
      apply KeepsUnderway.of_put (t := row') hfind (by rw [hsame]) (by rw [hrow]) hpay
      intro hcash _
      exact hmay.cooks_underway hc ha.2 hfind htr (hpay ▸ hcash)
  | paymentCreated row order orders' habs _ hfind hmay hst hmoves =>
      exact hlaw.paymentCreated he habs hfind (hmay.amount hc) hst hmoves
  | settled kind orderId row order orders' hfind hws hmay _ hid horder hmoves =>
      obtain ⟨n, e, remote, hn, hkind, hfinde, rfl, hprov, hremote, hagrees⟩ := hmay.delivered hc
      apply hlaw.settled he hfind hprov hremote hagrees horder hmoves
      rintro rfl hpending
      exact ha.1 _ hws { row with state := .SUCCESS } (by simp [Write.success, Settlement.state])
        n hn e hfinde order (Table.find_some horder).1 hpending hid
  | ticketMoved row event st _ _ _ => exact hlaw.keeps he rfl (.of_same rfl)
  | stock _ h _ => exact hlaw.keeps he (by rw [h.same]) (.of_same (by rw [h.same]))

end Commits

/-! ## Runs -/

theorem isShop_bindingCalls (cfg : Settings) : IsShop cfg (bindingCalls cfg) where
  guar c past s s' hc hi h := by
    refine ⟨h, ?_⟩
    have he := h.evolves
    cases h with
    | committed txn ha h =>
        have hlaw : BindingLaw _ s.2 := h.binding hc hi ha
        exact hlaw
    | remembered _ => exact BindingLaw.keeps hi he rfl (.of_same rfl)
  rely _ _ _ h := h

theorem valid_bindingCalls (cfg : Settings) : (bindingCalls cfg).Valid (shop cfg) :=
  valid_shop (isShop_bindingCalls cfg) (fun _ _ _ _ _ _ _ _ _ h => h.evolves)
    (fun _ _ _ _ h hi => ⟨BindingLaw.keeps hi (evolves_providerMove h) rfl (.of_same rfl),
      fun _ => evolves_providerMove h⟩)
    (fun _ _ hi => ⟨hi.amount, hi.success, hi.underway⟩)
    (fun _ _ _ _ _ _ _ _ _ => trivial) fun _ _ _ _ _ _ => trivial

/-- Where the step is one of a delivery that has made a payment `SUCCESS` and not
committed it, the order it names is the order of the payment, if it waits for one. -/
def NamesPayers (cfg : Settings) (c : ShopConfig) : Action Call ProviderMove → Prop
  | .run i _ | .fault i => ∀ t ∈ c.threads[i]?, NamesPayer cfg t.call (t.state c.db c.mem)
  | _ => True

section Runs

variable {cfg : Settings} {d : Database} {m : Memory} {c c' : ShopConfig}

/-- An order a call has seen paid has been paid. -/
theorem Reaches.paidSince (h : Reaches cfg (Config.start d m) c) {t : ShopThread}
    (ht : t ∈ c.threads) : PaidSince (t.state c.db c.mem) := by
  induction h generalizing t with
  | refl => cases ht
  | @step b b' a hr _ hs ih =>
      intro o ho
      obtain ⟨j, hj⟩ := List.mem_iff_getElem?.mp ht
      have hgrows : b.db.orders.Grows Order.Later b'.db.orders := by
        cases Reaches.changed hr hs with
        | kept hd _ => exact hd ▸ .refl Order.Later.refl _
        | committed t txn _ _ h _ _ => exact h.evolves.orders
      obtain ⟨p, hp, hpending, hpaid⟩ := ho
      rcases System.past_of_step hs hj with hnil | ⟨u, hu, -, hpast⟩
      · rw [Thread.state, hnil] at hp
        cases hp
      · have hmem := List.mem_of_getElem? hu
        rcases hpast with he | he <;> rw [Thread.state, he] at hp
        · exact (ih hmem o ⟨p, hp, hpending, hpaid⟩).grows hgrows
        · rcases List.mem_append.mp hp with hp | hp
          · exact (ih hmem o ⟨p, hp, hpending, hpaid⟩).grows hgrows
          · obtain rfl := List.mem_singleton.mp hp
            exact .of_stateAt hpaid

theorem BindingLaw.of_empty (horders : d.orders.rows = []) (hpayments : d.payments.rows = []) :
    BindingLaw d m :=
  ⟨by simp [hpayments], by simp [hpayments], by simp [horders]⟩

/-- From a database without orders and payments, and in every run of checkouts,
payments, deliveries and staff buttons in which every delivery that makes an order
`PAID` names the order of its payment: an order that is not paid in cash is `PAID`
or in a later state only if a payment of its own is `SUCCESS`, which the provider
reports as succeeded and paid over the order's total. -/
theorem underway_orders_are_paid (horders : d.orders.rows = []) (hpayments : d.payments.rows = [])
    (h : (shop cfg).Runs (fun c a => Begins (fun k => k.isFront = true) a ∧ NamesPayers cfg c a)
      (Config.start d m) c) :
    ∀ order ∈ c.db.orders.rows, order.paymentMethod ≠ some "cash" → order.state.underway = true →
      ∃ row ∈ c.db.payments.rows, row.orderId = order.id ∧ row.state = .SUCCESS ∧
        ∃ total, order.totalRub = some total ∧ ReportedPaid c.mem row total := by
  have hpaid := System.Runs.also (P := fun b : ShopConfig => ∀ t ∈ b.threads,
    PaidSince (t.state b.db b.mem))
    (fun b hb t ht => Reaches.paidSince (hb.mono _ fun _ _ _ => trivial) ht) h
  have hok : (bindingCalls cfg).Ok c := by
    have h₀ : (bindingCalls cfg).inv d m := BindingLaw.of_empty horders hpayments
    refine (Ok.start h₀).runs (valid_bindingCalls cfg) (fun b a _ ha => ?_) hpaid
    obtain ⟨⟨hbegin, hnames⟩, hpaid⟩ := ha
    cases a with
    | call k => exact ⟨hbegin, fun _ _ _ => ⟨trivial, trivial⟩⟩
    | run i n =>
        exact fun t ht => ⟨⟨hnames t ht, hpaid t (List.mem_of_getElem? ht)⟩, fun _ => trivial⟩
    | fault i => exact fun t ht => ⟨⟨hnames t ht, hpaid t (List.mem_of_getElem? ht)⟩, trivial⟩
    | kill i => exact trivial
    | restart => exact trivial
    | world v => exact trivial
  intro order hmem hcash hunder
  obtain ⟨row, hrow, horder, hst⟩ := hok.inv.underway order hmem hcash hunder
  obtain ⟨order', hfind, htotal⟩ := hok.inv.amount row hrow
  rw [horder, Table.find_of_mem hmem] at hfind
  obtain rfl := Option.some.inj hfind
  obtain ⟨total, htotal, hamount⟩ := Option.map_eq_some_iff.mp htotal
  exact ⟨row, hrow, horder, hst, total, htotal, hamount ▸ hok.inv.success row hrow hst⟩

end Runs

/-! ## A payment that pays for another order -/

/-- An order that is not paid in cash is underway, and has no payment that is `SUCCESS`. -/
def UnderwayUnpaid (d : Database) : Prop :=
  ∃ order ∈ d.orders.rows, order.paymentMethod ≠ some "cash" ∧ order.state.underway = true ∧
    ∀ row ∈ d.payments.rows, row.orderId = order.id → row.state ≠ .SUCCESS

instance (d : Database) : Decidable (UnderwayUnpaid d) :=
  inferInstanceAs (Decidable (∃ order ∈ d.orders.rows, _ ∧ _ ∧ ∀ row ∈ d.payments.rows, _ → _ ≠ _))

/-- The first of two payments succeeds, and a delivery names it with the trace id of
the second: the second order is `PAID` without a payment. -/
theorem other_order_paid :
    ¬ ∀ d m c, d.orders.rows = [] → d.payments.rows = [] →
      (shop sampleSettings).Runs (fun _ a => Begins (fun k => k.isFront = true) a)
        (Config.start d m) c →
      ∀ order ∈ c.db.orders.rows, order.paymentMethod ≠ some "cash" →
        order.state.underway = true → ∃ row ∈ c.db.payments.rows, row.orderId = order.id ∧
          row.state = .SUCCESS ∧ ∃ total, order.totalRub = some total ∧
            ReportedPaid c.mem row total := by
  intro hall
  obtain ⟨c, hr, hc⟩ := exists_run_of_exec sampleSettings (fun k => k.isFront = true)
    (Config.start (withMenu emptyDatabase) {})
    (twoCheckouts ++ .world (.update "0" .succeeded true (some ⟨some 500, "RUB"⟩)) ::
      .call (.webhook (some (sampleNotification "payment.succeeded" "0" (Uuid.text 5)))) ::
        runsWith 2 7 27)
    (f := fun c => decide (UnderwayUnpaid c.db)) (b := true) (by decide) (by decide +kernel)
  obtain ⟨order, hmem, hcash, hunder, hno⟩ := of_decide_eq_true hc
  obtain ⟨row, hrow, horder, hst, -⟩ :=
    hall (withMenu emptyDatabase) {} c rfl rfl hr order hmem hcash hunder
  exact hno row hrow horder hst

instance (cfg : Settings) (c : Call) (x : CallAt) : Decidable (NamesPayer cfg c x) :=
  inferInstanceAs (Decidable (∀ w ∈ x.txn.writes, ∀ row ∈ w.success, NamesOrderOf cfg c x row))

instance (cfg : Settings) (c : ShopConfig) (a : Action Call ProviderMove) :
    Decidable (NamesPayers cfg c a) :=
  match a with
  | .run i _ | .fault i =>
      inferInstanceAs (Decidable (∀ t ∈ c.threads[i]?, NamesPayer cfg t.call (t.state c.db c.mem)))
  | .call _ | .kill _ | .restart | .world _ => isTrue trivial

/-- Of two orders the one whose payment succeeds is paid. -/
theorem underway_orders_are_paid_delivered :
    ∃ c order, (shop sampleSettings).Runs
        (fun c a => Begins (fun k => k.isFront = true) a ∧ NamesPayers sampleSettings c a)
        (Config.start (withMenu emptyDatabase) {}) c ∧
      order ∈ c.db.orders.rows ∧ order.paymentMethod = some "yookassa_sbp" ∧
      order.state.underway = true ∧ ∃ row ∈ c.db.payments.rows, row.orderId = order.id ∧
        row.state = .SUCCESS ∧ ∃ total, order.totalRub = some total ∧
          ReportedPaid c.mem row total := by
  obtain ⟨c, hr, hc⟩ := exists_run_of_execIf sampleSettings
    (fun c a => Begins (fun k => k.isFront = true) a ∧ NamesPayers sampleSettings c a)
    (Config.start (withMenu emptyDatabase) {})
    (twoCheckouts ++ .world (.update "1" .succeeded true (some ⟨some 500, "RUB"⟩)) ::
      .call (.webhook (some (sampleNotification "payment.succeeded" "1" (Uuid.text 5)))) ::
        runsWith 2 7 27)
    (f := fun c => decide (∃ order ∈ c.db.orders.rows, order.paymentMethod = some "yookassa_sbp" ∧
      order.state.underway = true)) (v := true) (by decide +kernel)
  obtain ⟨order, hmem, hpay, hunder⟩ := of_decide_eq_true hc
  exact ⟨c, order, hr, hmem, hpay, hunder,
    underway_orders_are_paid rfl rfl hr order hmem (by rw [hpay]; decide) hunder⟩

end Sieshka
