import Sieshka.Samples
import Sieshka.Specs.Shop

/-!
# Payments that are settled twice

`fail_payment` skips a payment that is `SUCCESS` or `FAILED`, `confirm_payment`
one that is `SUCCESS`, and both look before they hold the row. A payment stays
as it was settled where no delivery commits the other end on top.
-/

namespace Sieshka

open Transactions Contract

/-- The payment is `PENDING`, or it keeps its state. -/
def Payment.Kept (r r' : Payment) : Prop := r.state ≠ .PENDING → r'.state = r.state

theorem Payment.Kept.refl (r : Payment) : r.Kept r := fun _ => rfl

theorem Payment.Kept.trans {r r' r'' : Payment} (h : r.Kept r') (h' : r'.Kept r'') :
    r.Kept r'' := fun hr => by
  have hst := h hr
  rw [h' (by rw [hst]; exact hr), hst]

/-- How a delivery settles a payment, and the provider id it finds it under. -/
def Call.settles (cfg : Settings) : Call → Option (Settlement × String)
  | .confirmPayment _ providerId _ => some (.confirm, providerId)
  | .failPayment _ providerId _ => some (.fail, providerId)
  | .webhook body =>
      match parseNotification cfg body with
      | .ok (some n) => some (n.kind, n.paymentId)
      | _ => none
  | _ => none

theorem MaySettle.settles {cfg : Settings} {c : Call} {past : Past} {kind : Settlement}
    {orderId : String} {row : Payment} {s : State}
    (h : MaySettle cfg c past kind orderId row s) :
    past ≠ [] ∧ ∃ providerId, c.settles cfg = some (kind, providerId) ∧
      row.providerId = some providerId := by
  have hne : ∀ key, KeyRecorded past key → past ≠ [] := by
    rintro key ⟨p, hp, -⟩ rfl
    cases hp
  cases c with
  | confirmPayment oid providerId traceId =>
      obtain ⟨rfl, -, hprov, hrec⟩ := h
      exact ⟨hne _ hrec, providerId, rfl, hprov⟩
  | failPayment oid providerId traceId =>
      obtain ⟨rfl, -, hprov, hrec⟩ := h
      exact ⟨hne _ hrec, providerId, rfl, hprov⟩
  | webhook body =>
      obtain ⟨n, hn, rfl, hprov, hrec, -⟩ := h
      exact ⟨hne _ hrec, n.paymentId, by simp [Call.settles, hn], hprov⟩
  | _ => exact h.elim

/-- Where the step commits what a delivery has done after it recorded its key,
no payment under its provider id is settled the other way. -/
def NotOverruled (cfg : Settings) (c : ShopConfig) : Action Call ProviderMove → Prop
  | .run i _ => ∀ t ∈ c.threads[i]?, t.committing = true → t.commits ≠ [] →
      ∀ p ∈ t.call.settles cfg, ∀ row ∈ withProviderId c.db p.2,
        row.state = .PENDING ∨ row.state = p.1.state
  | _ => True

instance (cfg : Settings) (c : ShopConfig) (a : Action Call ProviderMove) :
    Decidable (NotOverruled cfg c a) :=
  match a with
  | .run i _ => inferInstanceAs (Decidable (∀ t ∈ c.threads[i]?, _ → ¬ _ → _))
  | .call _ | .fault _ | .kill _ | .restart | .world _ => isTrue trivial

section Commits

variable {cfg : Settings} {A : Call → CallAt → Prop} {R : Call → State → State → Prop} {c : Call}
variable {past : Past} {s : State} {ws : List Write} {d' : Database}

/-- A commit that overrules no settlement keeps every payment that is settled. -/
theorem Commits.paymentsKept (h : Commits cfg A R c past s ws d')
    (hok : past ≠ [] → ∀ p ∈ c.settles cfg, ∀ row ∈ withProviderId s.1 p.2,
      row.state = .PENDING ∨ row.state = p.1.state) :
    s.1.payments.Grows Payment.Kept d'.payments := by
  have hsame : ∀ t : Table Payment.id, t = s.1.payments → s.1.payments.Grows Payment.Kept t :=
    fun t ht => ht ▸ .refl Payment.Kept.refl _
  cases h with
  | duplicate _ _ _ => exact hsame _ rfl
  | recorded row _ _ => exact hsame _ rfl
  | answered body _ id rest _ _ _ => exact hsame _ rfl
  | customer body _ row _ => exact hsame _ rfl
  | placed body _ id customerId items totalRub promoCode discountRub _ _ _ => exact hsame _ rfl
  | moved row row' event st _ _ _ _ _ => exact hsame _ rfl
  | cooked row row' orderId items lines d₁ ticket _ _ _ _ _ _ _ hsells _ _ _ =>
      exact hsame _ (by rw [hsells.steps.same])
  | paymentCreated row order orders' habs _ _ _ _ _ => exact .put_absent Payment.Kept.refl habs
  | settled kind orderId row order orders' hfind _ hmay _ _ _ _ =>
      refine .put Payment.Kept.refl fun old hold hst => ?_
      rw [show ({ row with state := kind.state } : Payment).id = row.id from rfl, hfind] at hold
      obtain rfl := Option.some.inj hold
      obtain ⟨hpast, providerId, hset, hprov⟩ := hmay.settles
      rcases hok hpast _ hset row (mem_withProviderId.mpr ⟨hfind, hprov⟩) with h | h
      · exact absurd h hst
      · exact h.symm
  | ticketMoved row event st _ _ _ => exact hsame _ rfl
  | stock _ h _ => exact hsame _ (by rw [h.same])

end Commits

section Runs

variable {cfg : Settings} {d : Database} {m : Memory} {c c' : ShopConfig}

theorem paymentsKept_of_step {a : Action Call ProviderMove}
    (hc : Reaches cfg (Config.start d m) c) (ha : NotOverruled cfg c a)
    (hs : (shop cfg).step c a = some c') : c.db.payments.Grows Payment.Kept c'.db.payments := by
  rcases committed_of_step (fun _ _ _ _ h => h) hc.ok (fun _ _ => trivial) hs with
    hd | ⟨i, n, t, txn, rfl, ht, hcom, h⟩
  · exact hd ▸ .refl Payment.Kept.refl _
  · exact h.paymentsKept (ha t ht hcom)

/-- In every run of any calls in which no delivery commits one end of a payment
on top of the other, a payment that is `SUCCESS` or `FAILED` stays so. -/
theorem terminal_payments_absorbing (h : (shop cfg).Runs (NotOverruled cfg) (Config.start d m) c)
    (h' : (shop cfg).Runs (NotOverruled cfg) c c') (id : Uuid) (row : Payment)
    (hid : c.db.payments.find id = some row) (hst : row.state = .SUCCESS ∨ row.state = .FAILED) :
    ∃ row', c'.db.payments.find id = some row' ∧ row'.state = row.state := by
  have hreach : Reaches cfg (Config.start d m) c := h.mono _ fun _ _ _ => trivial
  have hkept : c.db.payments.Grows Payment.Kept c'.db.payments := by
    induction h' with
    | refl => exact .refl Payment.Kept.refl _
    | step hr ha hs ih =>
        have hr := hr.mono _ fun _ _ _ => trivial
        exact ih.trans (fun _ _ _ => Payment.Kept.trans)
          (paymentsKept_of_step (hreach.trans _ hr) ha hs)
  obtain ⟨row', hid', hk⟩ := hkept id row hid
  exact ⟨row', hid', hk (by rcases hst with hst | hst <;> simp [hst])⟩

end Runs

/-- The call is a `confirm_payment` or a `fail_payment`. -/
def Call.isDelivery : Call → Bool
  | .confirmPayment _ _ _ => true
  | .failPayment _ _ _ => true
  | _ => false

/-- One order of 500 rubles with one payment that is still open. -/
def samplePending : Database :=
  databaseWith [sampleOrder 1 .PAYMENT_PENDING "yookassa_sbp" []]
    [samplePayment 9 1 "p" .PENDING]

/-- The state of the sample's payment. -/
def paymentState (c : ShopConfig) : Option PaymentState :=
  (c.db.payments.find 9).map Payment.state

/-- A payment that `fail_payment` has left `FAILED` is made `SUCCESS` by a later
`confirm_payment`. -/
theorem terminal_payment_overruled :
    ¬ ∀ d m c c', (shop sampleSettings).Runs (fun _ => Begins fun k => k.isDelivery = true)
        (Config.start d m) c →
      (shop sampleSettings).Runs (fun _ => Begins fun k => k.isDelivery = true) c c' →
      ∀ id row, c.db.payments.find id = some row → row.state = .SUCCESS ∨ row.state = .FAILED →
        ∃ row', c'.db.payments.find id = some row' ∧ row'.state = row.state := by
  intro hall
  let confirm : List (Action Call ProviderMove) :=
    .call (.confirmPayment (Uuid.text 1) "p" "t₂") :: runs 1 8
  obtain ⟨c, hr, hc⟩ := exists_run_of_exec sampleSettings (fun k => k.isDelivery = true)
    (Config.start samplePending {}) (.call (.failPayment (Uuid.text 1) "p" "t₁") :: runs 0 10)
    (f := fun c => (paymentState c, ((shop sampleSettings).exec c confirm).map paymentState))
    (b := (some .FAILED, some (some .SUCCESS))) (by decide) (by decide +kernel)
  obtain ⟨hfailed, hmore⟩ := Prod.mk.inj hc
  obtain ⟨c', hr', hc'⟩ := exists_run_of_exec sampleSettings (fun k => k.isDelivery = true) c confirm
    (by decide) hmore
  obtain ⟨row, hrow, hst⟩ := Option.map_eq_some_iff.mp hfailed
  obtain ⟨row', hrow', hst'⟩ := hall samplePending {} c c' hr hr' 9 row hrow (Or.inr hst)
  rw [paymentState, hrow', Option.map_some, hst', hst] at hc'
  cases hc'

/-- A payment that is confirmed stays so when it is failed after that. -/
theorem terminal_payments_absorbing_confirmed :
    ∃ c c' row row', (shop sampleSettings).Runs (NotOverruled sampleSettings)
        (Config.start samplePending {}) c ∧
      (shop sampleSettings).Runs (NotOverruled sampleSettings) c c' ∧
      c.db.payments.find 9 = some row ∧ row.state = .SUCCESS ∧
      c'.db.payments.find 9 = some row' ∧ row'.state = row.state := by
  let fail : List (Action Call ProviderMove) :=
    .call (.failPayment (Uuid.text 1) "p" "t₂") :: runs 1 5
  obtain ⟨c, hr, hc⟩ := exists_run_of_execIf sampleSettings (NotOverruled sampleSettings)
    (Config.start samplePending {}) (.call (.confirmPayment (Uuid.text 1) "p" "t₁") :: runs 0 10)
    (f := fun c => (paymentState c, (@System.execIf _ _ _ _ _ _ _ _ _ (shop sampleSettings)
      (NotOverruled sampleSettings) (instDecidableNotOverruled sampleSettings) c fail).map
        paymentState))
    (v := (some .SUCCESS, some (some .SUCCESS))) (by decide +kernel)
  obtain ⟨hpaid, hmore⟩ := Prod.mk.inj hc
  obtain ⟨c', hr', -⟩ := exists_run_of_execIf sampleSettings _ c fail hmore
  obtain ⟨row, hrow, hst⟩ := Option.map_eq_some_iff.mp hpaid
  obtain ⟨row', hrow', hst'⟩ := terminal_payments_absorbing hr hr' 9 row hrow (Or.inl hst)
  exact ⟨c, c', row, row', hr, hr', hrow, hst, hrow', hst'⟩

end Sieshka
