import Sieshka.Properties.PaymentBinding

/-!
# What a cancelled payment cancels

`fail_payment` marks the payment of a delivery `FAILED` and moves the order of
its trace event. Where the two belong together, where a payment is made only for
an order whose others have failed, and where no delivery is committed over a
payment that has failed since it was read, an order loses its last payment when it
is moved, and nothing else changes.
-/

namespace Sieshka

open Transactions Contract

/-- `PENDING` or `SUCCESS`. -/
def PaymentState.live : PaymentState → Bool
  | .PENDING => true
  | .SUCCESS => true
  | .FAILED => false

/-- An order has at most one payment that is `PENDING` or `SUCCESS`. -/
def OneLive (d : Database) : Prop :=
  ∀ row ∈ d.payments.rows, ∀ other ∈ d.payments.rows, row.state.live = true →
    other.state.live = true → row.orderId = other.orderId → row = other

/-- The payment a write is of. -/
def Write.paymentRow : Write → Option Payment
  | .payment row => some row
  | _ => none

/-- A payment is made only for an order whose other payments have failed. -/
def InsertsAlone (txn : Txn Write Lock) (d : Database) : Prop :=
  ∀ w ∈ txn.writes, ∀ row ∈ w.paymentRow, row.state = .PENDING →
    ∀ old ∈ d.payments.rows, old.orderId = row.orderId → old.state = .FAILED

/-- A payment is settled only while it has not failed. -/
def SettlesOpen (txn : Txn Write Lock) (d : Database) : Prop :=
  ∀ w ∈ txn.writes, ∀ row ∈ w.paymentRow, row.state ≠ .PENDING →
    ∀ old ∈ d.payments.rows, old.id = row.id → old.state ≠ .FAILED

/-- While a delivery has a payment made `FAILED` and not committed, the order it
names is the order of the payment, if it waits for one. -/
def NamesCancelled (cfg : Settings) (c : Call) (x : CallAt) : Prop :=
  ∀ w ∈ x.txn.writes, ∀ row ∈ w.paymentRow, row.state = .FAILED → NamesOrderOf cfg c x row

/-- The calls that make and settle payments. -/
def Call.isPayment : Call → Bool
  | .checkout _ => true
  | .payOrder _ _ => true
  | .webhook _ => true
  | _ => false

def cancelCalls (cfg : Settings) : ShopContract :=
  shopContract cfg (fun c => c.isPayment = true) (fun d _ => OneLive d) (fun _ => Evolves)
    fun c x => InsertsAlone x.txn x.db ∧ SettlesOpen x.txn x.db ∧ NamesCancelled cfg c x

/-- What a commit does to payments and orders: an order that waits for a payment is
moved back only with its last one, and a payment that fails takes nothing with it but
its order. -/
structure CancelsOwn (d d' : Database) : Prop where
  moved : ∀ o, StateAt d o .PAYMENT_PENDING → StateAt d' o .CONFIRMED →
    ∃ row ∈ d.payments.rows, row.orderId = o ∧
      d'.payments = d.payments.put { row with state := .FAILED } ∧
      ∀ other ∈ d.payments.rows, other.orderId = o → other.id ≠ row.id → other.state = .FAILED
  alone : ∀ row ∈ d.payments.rows, row.state ≠ .FAILED →
    d'.payments.find row.id = some { row with state := .FAILED } →
    (∀ id, id ≠ row.id → d'.payments.find id = d.payments.find id) ∧
      ∀ o, o ≠ row.orderId → d'.orders.find o = d.orders.find o

theorem OneLive.of_same {d d' : Database} (h : OneLive d) (hp : d'.payments = d.payments) :
    OneLive d' := by
  rw [OneLive, hp]
  exact h

/-- A payment that has not failed stays so when the payments do not change. -/
theorem not_failed_of_same {d d' : Database} {row : Payment} (hp : d'.payments = d.payments)
    (hrow : row ∈ d.payments.rows) (hst : row.state ≠ .FAILED)
    (h : d'.payments.find row.id = some { row with state := .FAILED }) : False := by
  rw [hp, Table.find_of_mem hrow] at h
  exact hst (by rw [Option.some.inj h])

theorem CancelsOwn.of_same {d d' : Database} (hp : d'.payments = d.payments)
    (ho : ∀ o, StateAt d o .PAYMENT_PENDING → ¬ StateAt d' o .CONFIRMED) : CancelsOwn d d' where
  moved o h h' := absurd h' (ho o h)
  alone _ hrow hst h := (not_failed_of_same hp hrow hst h).elim

theorem not_both_states {d d' : Database} (h : d'.orders = d.orders) (o : Uuid)
    (ho : StateAt d o .PAYMENT_PENDING) : ¬ StateAt d' o .CONFIRMED := by
  rintro ⟨order', hfind', hst'⟩
  obtain ⟨order, hfind, hst⟩ := ho
  rw [h] at hfind'
  obtain rfl := Option.some.inj (hfind.symm.trans hfind')
  rw [hst] at hst'
  cases hst'

section Commits

variable {cfg : Settings} {c : Call} {past : Past} {s : State} {txn : Txn Write Lock}
variable {d' : Database}

/-- A payment whose state is written over one that has not failed leaves one live
payment to its order at most. -/
theorem OneLive.settle {d : Database} {row : Payment} {st : PaymentState} (h : OneLive d)
    (hrow : d.payments.find row.id = some row) (hlive : row.state.live = true)
    (hput : d'.payments = d.payments.put { row with state := st }) : OneLive d' := by
  have hold : ∀ r ∈ d'.payments.rows, ∃ old ∈ d.payments.rows, old.id = r.id ∧
      old.orderId = r.orderId ∧ (r.state.live = true → old.state.live = true) := by
    intro r hr
    rw [hput] at hr
    rcases Table.mem_put hr with rfl | hr
    · exact ⟨row, (Table.find_some hrow).1, rfl, rfl, fun _ => hlive⟩
    · exact ⟨r, hr, rfl, rfl, id⟩
  intro r hr r' hr' hl hl' horder
  obtain ⟨old, hmem, hid, ho, hlo⟩ := hold r hr
  obtain ⟨old', hmem', hid', ho', hlo'⟩ := hold r' hr'
  have heq := h old hmem old' hmem' (hlo hl) (hlo' hl') (ho.trans (horder.trans ho'.symm))
  have hids : r.id = r'.id := by rw [← hid, ← hid', heq]
  have hfind := Table.find_of_mem hr
  rw [hids, Table.find_of_mem hr'] at hfind
  exact (Option.some.inj hfind).symm

theorem PaymentState.live_of_ne_failed {st : PaymentState} (h : st ≠ .FAILED) : st.live = true := by
  cases st <;> first | rfl | exact absurd rfl h

/-- The row a settlement is written over has not failed. -/
theorem SettlesOpen.live {d : Database} {kind : Settlement} {row : Payment}
    (h : SettlesOpen txn d) (hrow : d.payments.find row.id = some row)
    (hws : .payment { row with state := kind.state } ∈ txn.writes) : row.state.live = true :=
  PaymentState.live_of_ne_failed (h _ hws { row with state := kind.state } rfl
    (by cases kind <;> simp [Settlement.state]) row (Table.find_some hrow).1 rfl)

theorem Commits.oneLive (hlaw : OneLive s.1)
    (ha : (cancelCalls cfg).assume c ⟨txn, past, s.1, s.2⟩)
    (h : Commits cfg (cancelCalls cfg).assume (cancelCalls cfg).rely c past s txn.writes d') :
    OneLive d' := by
  cases h with
  | duplicate _ _ _ => exact hlaw
  | recorded row _ _ => exact hlaw.of_same rfl
  | answered body _ id rest _ _ _ => exact hlaw.of_same rfl
  | customer body _ row _ => exact hlaw.of_same rfl
  | placed body _ id customerId items totalRub promoCode discountRub _ _ _ => exact hlaw.of_same rfl
  | moved row row' event st _ _ _ _ _ => exact hlaw.of_same rfl
  | cooked row row' orderId items lines d₁ ticket _ _ _ _ _ _ _ hsells _ _ _ =>
      exact hlaw.of_same (by rw [hsells.steps.same])
  | paymentCreated row order orders' habs hws _ _ hst _ =>
      have hfailed : ∀ old ∈ s.1.payments.rows, old.orderId = row.orderId → old.state = .FAILED :=
        ha.1 _ hws row rfl hst
      intro r hr r' hr' hl hl' horder
      rcases Table.mem_put hr with rfl | hold <;> rcases Table.mem_put hr' with rfl | hold'
      · rfl
      · rw [hfailed r' hold' horder.symm] at hl'
        cases hl'
      · rw [hfailed r hold horder] at hl
        cases hl
      · exact hlaw r hold r' hold' hl hl' horder
  | settled kind orderId row order orders' hfind hws _ _ _ _ _ =>
      exact hlaw.settle hfind (ha.2.1.live hfind hws) rfl
  | ticketMoved row event st _ _ _ => exact hlaw.of_same rfl
  | stock _ h _ => exact hlaw.of_same (by rw [h.same])

/-- A payment that has not failed and is found failed is the one that was written. -/
theorem put_failed {t : Table Payment.id} {row r : Payment} {st : PaymentState}
    (hfind : t.find row.id = some row) (hr : r ∈ t.rows) (hst : r.state ≠ .FAILED)
    (h : (t.put { row with state := st }).find r.id = some { r with state := .FAILED }) :
    r = row ∧ st = .FAILED := by
  have hold := Table.find_of_mem hr
  by_cases hid : row.id = r.id
  · rw [← hid] at h hold
    have hnew := Option.some.inj ((Table.find_put_self t { row with state := st }).symm.trans h)
    exact ⟨(Option.some.inj (hfind.symm.trans hold)).symm, congrArg Payment.state hnew⟩
  · have hne : ({ row with state := st } : Payment).id ≠ r.id := hid
    rw [Table.find_put_of_ne _ hne, hold] at h
    exact absurd (by rw [Option.some.inj h]) hst

/-- An order that a settlement has moved from `PAYMENT_PENDING` to `CONFIRMED`. -/
theorem Moves.confirmed {d : Database} {order : Order} {event : OrderEvent} {why : Prop}
    {orders' : Table Order.id} {o : Uuid} (h : Moves d.orders order event why orders')
    (ho : StateAt d o .PAYMENT_PENDING)
    (hconfirmed : ∃ row, orders'.find o = some row ∧ row.state = .CONFIRMED) :
    order.id = o ∧ orderTransitions order.state event = some .CONFIRMED := by
  obtain ⟨row, hfind, hst⟩ := hconfirmed
  cases h with
  | kept _ => exact absurd ⟨row, hfind, hst⟩ (not_both_states rfl o ho)
  | @moved st htr =>
      by_cases hid : order.id = o
      · subst hid
        have hrow := Option.some.inj ((Table.find_put_self d.orders
          { order with state := st }).symm.trans hfind)
        obtain rfl : st = .CONFIRMED := by rw [← hst, ← hrow]
        exact ⟨rfl, htr⟩
      · have hne : ({ order with state := st } : Order).id ≠ o := hid
        rw [Table.find_put_of_ne _ hne] at hfind
        exact absurd ⟨row, hfind, hst⟩ (not_both_states rfl o ho)

theorem Commits.cancelsOwn (hc : c.isWebhook = true) (hlaw : OneLive s.1)
    (ha : (cancelCalls cfg).assume c ⟨txn, past, s.1, s.2⟩)
    (h : Commits cfg (cancelCalls cfg).assume (cancelCalls cfg).rely c past s txn.writes d') :
    CancelsOwn s.1 d' := by
  have hpayment : c.isFront = true := by cases c <;> first | rfl | cases hc
  cases h with
  | duplicate _ _ _ => exact .of_same rfl (not_both_states rfl)
  | recorded row _ _ => exact .of_same rfl (not_both_states rfl)
  | answered body _ id rest _ _ _ => exact .of_same rfl (not_both_states rfl)
  | customer body _ row _ => exact .of_same rfl (not_both_states rfl)
  | placed body he _ _ _ _ _ _ _ _ _ => subst he; cases hc
  | moved row row' event st _ hmay _ hev _ =>
      cases c with
      | webhook body => exact absurd hmay.1 hev
      | _ => cases hc
  | cooked row row' orderId items lines d₁ ticket _ _ _ _ hrow _ _ hsells _ _ _ =>
      have hsame := hsells.steps.same
      refine .of_same (by rw [hsame]) fun o ho hconfirmed => ?_
      obtain ⟨order, hfind, hst⟩ := hconfirmed
      have hfind : (d₁.orders.put row').find o = some order := hfind
      by_cases hid : row'.id = o
      · subst hid
        rw [Table.find_put_self] at hfind
        rw [← Option.some.inj hfind, hrow] at hst
        cases hst
      · rw [Table.find_put_of_ne _ hid, hsame] at hfind
        exact not_both_states rfl o ho ⟨order, hfind, hst⟩
  | paymentCreated row order orders' _ _ _ hmay _ _ =>
      cases c with
      | webhook body => exact hmay.elim
      | _ => cases hc
  | settled kind orderId row order orders' hfind hws hmay _ hid horder hmoves =>
      obtain ⟨n, e, remote, hn, -, hfinde, rfl, -⟩ := hmay.delivered hpayment
      have hlive := ha.2.1.live hfind hws
      refine ⟨fun o ho hconfirmed => ?_, fun r hr hst hfailed => ?_⟩
      · -- only a failed payment moves its order back
        obtain ⟨hido, htr⟩ := hmoves.confirmed ho hconfirmed
        cases kind with
        | confirm =>
            rw [Settlement.pending htr] at htr
            cases htr
        | fail =>
            have hrow : row.orderId = order.id := ha.2.2 _ hws { row with state := .FAILED } rfl rfl
              n hn e hfinde order (Table.find_some horder).1 (Settlement.pending htr) hid
            refine ⟨row, (Table.find_some hfind).1, hrow.trans hido, rfl, fun other hother ho' hne => ?_⟩
            by_contra hst
            refine hne (congrArg Payment.id (hlaw other hother row (Table.find_some hfind).1
              (PaymentState.live_of_ne_failed hst) hlive ?_))
            rw [ho', hrow, hido]
      · obtain ⟨rfl, hkind⟩ := put_failed hfind hr hst hfailed
        refine ⟨fun id hid => Table.find_put_of_ne _ fun he => hid he.symm, fun o ho => ?_⟩
        cases hmoves with
        | kept _ => rfl
        | @moved st htr =>
            cases kind with
            | confirm => cases hkind
            | fail =>
                have hrow : r.orderId = order.id := ha.2.2 _ hws { r with state := .FAILED } rfl rfl
                  n hn e hfinde order (Table.find_some horder).1 (Settlement.pending htr) hid
                exact Table.find_put_of_ne _ fun he => ho (he.symm.trans hrow.symm)
  | ticketMoved row event st _ hmay _ =>
      cases c with
      | webhook body => exact hmay.2.elim
      | _ => cases hc
  | stock he _ _ =>
      cases c with
      | webhook body => cases he
      | _ => cases hc

end Commits

/-! ## Runs -/

theorem isShop_cancelCalls (cfg : Settings) : IsShop cfg (cancelCalls cfg) where
  guar c past s s' hc hi h := by
    refine ⟨h, ?_⟩
    cases h with
    | committed txn ha h =>
        have hlaw : OneLive _ := h.oneLive hi ha
        exact hlaw
    | remembered _ => exact hi
  rely _ _ _ h := h

theorem valid_cancelCalls (cfg : Settings) : (cancelCalls cfg).Valid (shop cfg) :=
  valid_shop (isShop_cancelCalls cfg) (fun _ _ _ _ _ _ _ _ _ h => h.evolves)
    (fun _ _ _ _ h hi => ⟨hi, fun _ => evolves_providerMove h⟩) (fun _ _ hi => hi)
    (fun _ _ _ _ _ _ _ _ _ => trivial) fun _ _ _ _ _ _ => trivial

/-- Where the step is one of a session with a payment that it has made or settled and
not committed: the other payments of the order of a new one have failed, one that is
settled has not, and the order that a cancellation names is the order of the payment,
if it waits for one. -/
def CancelsOwnOrders (cfg : Settings) (c : ShopConfig) : Action Call ProviderMove → Prop
  | .run i _ | .fault i => ∀ t ∈ c.threads[i]?, InsertsAlone t.txn c.db ∧ SettlesOpen t.txn c.db ∧
      NamesCancelled cfg t.call (t.state c.db c.mem)
  | _ => True

section Runs

variable {cfg : Settings} {d : Database} {m : Memory} {c c' : ShopConfig}

theorem allows_cancelCalls (c : ShopConfig) (a : Action Call ProviderMove)
    (h : Begins (fun k => k.isPayment = true) a ∧ CancelsOwnOrders cfg c a) :
    (cancelCalls cfg).Allows (S := shop cfg) c a := by
  cases a with
  | call k => exact ⟨h.1, fun _ _ _ => ⟨trivial, trivial⟩⟩
  | run i n => exact fun t ht => ⟨h.2 t ht, fun _ => trivial⟩
  | fault i => exact fun t ht => ⟨h.2 t ht, trivial⟩
  | kill i => exact trivial
  | restart => exact trivial
  | world v => exact trivial

/-- From a database in which an order has at most one payment that is `PENDING` or
`SUCCESS`, and in every run of checkouts, payments and deliveries whose steps make
payments only for orders without one, settle only what has not failed, and cancel
only the order of the payment they name: every commit of a delivery moves an order
out of `PAYMENT_PENDING` only with its last payment, and a payment that it marks
`FAILED` is the only one that changes, and its order the only order. -/
theorem cancellations_touch_their_order (hd : OneLive d)
    (h : (shop cfg).Runs (fun c a => Begins (fun k => k.isPayment = true) a ∧
      CancelsOwnOrders cfg c a) (Config.start d m) c) :
    ∀ p ∈ c.commits, p.1.isWebhook = true → CancelsOwn p.2.1 p.2.2 := by
  have hok : (cancelCalls cfg).Ok (Config.start d m) := Ok.start hd
  refine Ok.runs_induction (valid_cancelCalls cfg) hok (fun c a _ ha => allows_cancelCalls c a ha)
    (P := fun c => ∀ p ∈ c.commits, p.1.isWebhook = true → CancelsOwn p.2.1 p.2.2)
    (by simp [Config.start, Config.commits]) (fun b a b' hb _ _ _ hcaused ih => ?_) h
  cases Changed.of_caused (fun _ _ _ _ h => h) hcaused with
  | kept _ hc => exact fun p hp => ih p (hc ▸ hp)
  | committed t txn ht ha hcommit _ hc =>
      intro p hp hweb
      rcases List.mem_cons.mp (hc.mem_iff.mp hp) with rfl | hp
      · exact hcommit.cancelsOwn (s := (b.db, b.mem)) hweb hb.inv ha
      · exact ih p hp hweb

end Runs

/-! ## A payment that cancels another order -/

/-- An order has gone from `PAYMENT_PENDING` to `CONFIRMED` while a payment of its own
has not failed. -/
def CancelledLive (c : ShopConfig) (o : Uuid) : Prop :=
  ∃ p ∈ c.commits, p.1.isWebhook = true ∧ StateAt p.2.1 o .PAYMENT_PENDING ∧
    StateAt p.2.2 o .CONFIRMED ∧ ∀ row ∈ p.2.1.payments.rows, row.orderId = o →
      p.2.2.payments.find row.id = some row ∧ row.state = .PENDING

instance (c : ShopConfig) (o : Uuid) : Decidable (CancelledLive c o) :=
  inferInstanceAs (Decidable (∃ p ∈ c.commits, _ ∧ _ ∧ _ ∧
    ∀ row ∈ p.2.1.payments.rows, _ → _ ∧ _))

/-- The first of two payments is canceled, and a delivery names it with the trace id of
the second: the second order is moved back while its payment is pending. -/
theorem other_order_cancelled :
    ¬ ∀ d m c, OneLive d → (shop sampleSettings).Runs
      (fun _ a => Begins (fun k => k.isPayment = true) a) (Config.start d m) c →
      ∀ p ∈ c.commits, p.1.isWebhook = true → CancelsOwn p.2.1 p.2.2 := by
  intro hall
  obtain ⟨c, hr, hc⟩ := exists_run_of_exec sampleSettings (fun k => k.isPayment = true)
    (Config.start (withMenu emptyDatabase) {})
    (twoCheckouts ++ .world (.update "0" .canceled false (some ⟨some 500, "RUB"⟩)) ::
      .call (.webhook (some (sampleNotification "payment.canceled" "0" (Uuid.text 5)))) ::
        runsWith 2 7 15)
    (f := fun c => decide (CancelledLive c 5)) (b := true) (by decide) (by decide +kernel)
  obtain ⟨p, hp, hweb, hpending, hconfirmed, hlive⟩ := of_decide_eq_true hc
  have hone : OneLive (withMenu emptyDatabase) := fun row hrow => by cases hrow
  obtain ⟨row, hrow, horder, hput, -⟩ :=
    (hall (withMenu emptyDatabase) {} c hone hr p hp hweb).moved 5 hpending hconfirmed
  obtain ⟨hfind, hst⟩ := hlive row hrow horder
  rw [hput, Table.find_put_self p.2.1.payments { row with state := .FAILED }] at hfind
  rw [← Option.some.inj hfind] at hst
  cases hst

instance (cfg : Settings) (c : Call) (x : CallAt) : Decidable (NamesCancelled cfg c x) :=
  inferInstanceAs (Decidable (∀ w ∈ x.txn.writes, ∀ row ∈ w.paymentRow, _ →
    NamesOrderOf cfg c x row))

instance (txn : Txn Write Lock) (d : Database) : Decidable (InsertsAlone txn d) :=
  inferInstanceAs (Decidable (∀ w ∈ txn.writes, ∀ row ∈ w.paymentRow, _ →
    ∀ old ∈ d.payments.rows, _ → _))

instance (txn : Txn Write Lock) (d : Database) : Decidable (SettlesOpen txn d) :=
  inferInstanceAs (Decidable (∀ w ∈ txn.writes, ∀ row ∈ w.paymentRow, _ →
    ∀ old ∈ d.payments.rows, _ → _))

instance (cfg : Settings) (c : ShopConfig) (a : Action Call ProviderMove) :
    Decidable (CancelsOwnOrders cfg c a) :=
  match a with
  | .run i _ | .fault i => inferInstanceAs (Decidable (∀ t ∈ c.threads[i]?, _ ∧ _ ∧ _))
  | .call _ | .kill _ | .restart | .world _ => isTrue trivial

/-- The commits of deliveries that move an order back. -/
def cancellations (c : ShopConfig) : List (Call × Database × Database) :=
  c.commits.filter fun p => p.1.isWebhook &&
    p.2.1.orders.rows.any fun order => order.state = .PAYMENT_PENDING &&
      (p.2.2.orders.find order.id).map Order.state = some .CONFIRMED

/-- Of two orders the one whose payment is canceled is moved back. -/
theorem cancellations_touch_their_order_canceled :
    ∃ c p, (shop sampleSettings).Runs (fun c a => Begins (fun k => k.isPayment = true) a ∧
        CancelsOwnOrders sampleSettings c a) (Config.start (withMenu emptyDatabase) {}) c ∧
      cancellations c = [p] ∧ CancelsOwn p.2.1 p.2.2 := by
  obtain ⟨c, hr, hc⟩ := exists_run_of_execIf sampleSettings
    (fun c a => Begins (fun k => k.isPayment = true) a ∧ CancelsOwnOrders sampleSettings c a)
    (Config.start (withMenu emptyDatabase) {})
    (twoCheckouts ++ .world (.update "1" .canceled false (some ⟨some 500, "RUB"⟩)) ::
      .call (.webhook (some (sampleNotification "payment.canceled" "1" (Uuid.text 5)))) ::
        runsWith 2 7 15)
    (f := fun c => (cancellations c).length) (v := 1) (by decide +kernel)
  obtain ⟨p, hp⟩ := List.length_eq_one_iff.mp hc
  have hmem : p ∈ cancellations c := by rw [hp]; exact List.mem_singleton_self p
  obtain ⟨hcommit, hkind⟩ := List.mem_filter.mp hmem
  have hone : OneLive (withMenu emptyDatabase) := fun row hrow => by cases hrow
  exact ⟨c, p, hr, hp, cancellations_touch_their_order hone hr p hcommit
    (Bool.and_eq_true_iff.mp hkind).1⟩

end Sieshka
