import Sieshka.Shop
import Mathlib.Logic.Relation

/-!
# What every step of the shop keeps

Rows are never deleted, their identifying columns never change, an order moves
along the edges of its graph, the trace list only grows while the process
lives, and the provider never takes back a final status.
-/

namespace Sieshka

open Transactions
open Relation (ReflTransGen)

/-- The shared state. -/
abbrev State := Database × Memory

/-- `s'` can be reached from `s` along the order graph. -/
abbrev OrderPath : OrderState → OrderState → Prop := ReflTransGen OrderEdge

/-- A set of states that no transition leaves is left along no path. -/
theorem OrderPath.stays {P : OrderState → Prop}
    (hP : ∀ s e s', orderTransitions s e = some s' → P s → P s') {s s' : OrderState}
    (h : OrderPath s s') (hs : P s) : P s' := by
  induction h with
  | refl => exact hs
  | tail _ he ih =>
      obtain ⟨e, he⟩ := he
      exact hP _ e _ he ih

/-- A later version of an order. -/
structure Order.Later (r r' : Order) : Prop where
  same : r' = { r with state := r'.state, traceId := r'.traceId }
  path : OrderPath r.state r'.state

theorem Order.Later.refl (r : Order) : r.Later r := ⟨rfl, .refl⟩

theorem Order.Later.trans {r r' r'' : Order} (h : r.Later r') (h' : r'.Later r'') :
    r.Later r'' := by
  refine ⟨?_, h.path.trans h'.path⟩
  have h₁ := h.same
  have h₂ := h'.same
  rw [h₁] at h₂
  exact h₂

/-- A later version of a payment: only the state can differ. -/
def Payment.Later (r r' : Payment) : Prop := r' = { r with state := r'.state }

theorem Payment.Later.refl (r : Payment) : r.Later r := rfl

theorem Payment.Later.trans {r r' r'' : Payment} (h : r.Later r') (h' : r'.Later r'') :
    r.Later r'' := by
  simp only [Payment.Later] at *
  rw [h] at h'
  exact h'

/-- A later version of a ticket: it belongs to the same order. -/
def KitchenTicket.Later (r r' : KitchenTicket) : Prop := r'.orderId = r.orderId

theorem KitchenTicket.Later.refl (r : KitchenTicket) : r.Later r := rfl

/-- A later report of the provider on a payment. -/
structure RemotePayment.Later (p p' : RemotePayment) : Prop where
  same : p' = p.changed p'.status p'.paid p'.amount
  final : p.status.final = true → p' = p

theorem RemotePayment.Later.refl (p : RemotePayment) : p.Later p := ⟨rfl, fun _ => rfl⟩

theorem RemotePayment.Later.trans {p p' p'' : RemotePayment} (h : p.Later p') (h' : p'.Later p'') :
    p.Later p'' := by
  constructor
  · have h₁ := h.same
    have h₂ := h'.same
    rw [h₁] at h₂
    exact h₂
  · intro hf
    have heq := h.final hf
    rw [← heq] at hf
    exact (h'.final hf).trans heq

/-- What any number of steps keep while the process lives. -/
structure Evolves (s s' : State) : Prop where
  orders : s.1.orders.Grows Order.Later s'.1.orders
  payments : s.1.payments.Grows Payment.Later s'.1.payments
  keys : s.1.idempotencyKeys.Grows (fun _ _ => True) s'.1.idempotencyKeys
  tickets : s.1.kitchenTickets.Grows KitchenTicket.Later s'.1.kitchenTickets
  products : s'.1.products = s.1.products
  staff : s'.1.staff = s.1.staff
  trace : s.2.trace <+: s'.2.trace
  provider : ∀ id p, findRemote s.2.provider id = some p →
    ∃ p', findRemote s'.2.provider id = some p' ∧ p.Later p'

theorem Evolves.refl (s : State) : Evolves s s where
  orders := .refl Order.Later.refl _
  payments := .refl Payment.Later.refl _
  keys := .refl (fun _ => trivial) _
  tickets := .refl KitchenTicket.Later.refl _
  products := rfl
  staff := rfl
  trace := List.prefix_rfl
  provider _ p h := ⟨p, h, .refl p⟩

theorem Evolves.trans {s s' s'' : State} (h : Evolves s s') (h' : Evolves s' s'') :
    Evolves s s'' where
  orders := h.orders.trans (fun _ _ _ => Order.Later.trans) h'.orders
  payments := h.payments.trans (fun _ _ _ => Payment.Later.trans) h'.payments
  keys := h.keys.trans (fun _ _ _ _ _ => trivial) h'.keys
  tickets := h.tickets.trans (fun _ _ _ h₁ h₂ => h₂.trans h₁) h'.tickets
  products := h'.products.trans h.products
  staff := h'.staff.trans h.staff
  trace := h.trace.trans h'.trace
  provider := by
    intro id p hp
    obtain ⟨p', hp', h₁⟩ := h.provider id p hp
    obtain ⟨p'', hp'', h₂⟩ := h'.provider id p' hp'
    exact ⟨p'', hp'', h₁.trans h₂⟩

/-- What a change of the database keeps does not depend on the memory. -/
theorem Evolves.of_database {d d' : Database} {m : Memory} (h : Evolves (d, m) (d', m))
    (m' : Memory) : Evolves (d, m') (d', m') :=
  { h with
    trace := List.prefix_rfl
    provider := (Evolves.refl (d, m')).provider }

theorem Evolves.of_reflTransGen {R : State → State → Prop} (hR : ∀ s s', R s s' → Evolves s s')
    {s s' : State} (h : ReflTransGen R s s') : Evolves s s' := by
  induction h with
  | refl => exact .refl _
  | tail _ hs ih => exact ih.trans (hR _ _ hs)

/-- The trace event found under an id stays the one found. -/
theorem Evolves.findTrace {s s' : State} (h : Evolves s s') {traceId : String} {e : TraceEvent}
    (he : findTrace s.2.trace traceId = some e) : findTrace s'.2.trace traceId = some e := by
  obtain ⟨t, ht⟩ := h.trace
  rw [Sieshka.findTrace, ← ht, List.find?_append]
  rw [Sieshka.findTrace] at he
  rw [he]
  rfl

/-- A final report of the provider is still its report. -/
theorem Evolves.final {s s' : State} (h : Evolves s s') {id : String} {p : RemotePayment}
    (hp : findRemote s.2.provider id = some p) (hf : p.status.final = true) :
    findRemote s'.2.provider id = some p := by
  obtain ⟨p', hp', hl⟩ := h.provider id p hp
  rw [hp', hl.final hf]

/-! ## The provider -/

theorem findRemote_append {provider : List RemotePayment} {id : String} {p : RemotePayment}
    (h : findRemote provider id = some p) (more : List RemotePayment) :
    findRemote (provider ++ more) id = some p := by
  rw [findRemote, List.find?_append]
  rw [findRemote] at h
  rw [h]
  rfl

theorem findRemote_map {provider : List RemotePayment} {id : String}
    {f : RemotePayment → RemotePayment} (hf : ∀ q, (f q).id = q.id) :
    findRemote (provider.map f) id = (findRemote provider id).map f := by
  induction provider with
  | nil => rfl
  | cons q rest ih =>
      simp only [findRemote, List.map_cons, List.find?_cons, hf]
      by_cases hq : q.id = id
      · simp [hq]
      · simpa [hq, findRemote] using ih

/-- A move of the provider leaves the database and the trace alone and takes
back no final status. -/
theorem evolves_providerMove {api : ProviderApi} {v : ProviderMove} {d : Database} {m m' : Memory}
    (h : providerMove api v m = some m') : Evolves (d, m) (d, m') := by
  have hbase := Evolves.refl (d, m)
  cases v with
  | update paymentId status paid amount =>
      simp only [providerMove] at h
      split at h
      · cases h
      · rename_i p hp
        split_ifs at h with hf
        obtain rfl := Option.some.inj h
        refine { hbase with provider := fun id q hq => ?_ }
        refine ⟨_, by
          rw [findRemote_map (fun q => by split_ifs <;> rfl), hq]
          rfl, ?_, fun hfq => ?_⟩
        · by_cases he : q.id = paymentId <;> simp [he, RemotePayment.changed]
        · have hid : q.id = id := by simpa using List.find?_some hq
          refine if_neg fun he => ?_
          rw [← hid, he, hp] at hq
          obtain rfl := Option.some.inj hq
          exact hf hfq
  | create payment =>
      obtain rfl := Option.some.inj h
      exact { hbase with provider := fun id p hp => ⟨p, findRemote_append hp _, .refl p⟩ }

/-- Recording a trace event. -/
theorem evolves_trace (d : Database) (m : Memory) (e : TraceEvent) :
    Evolves (d, m) (d, { m with trace := m.trace ++ [e] }) :=
  { Evolves.refl (d, m) with trace := List.prefix_append _ _ }

/-- Creating a payment at the provider. -/
theorem evolves_provider (d : Database) (m : Memory) (p : RemotePayment) :
    Evolves (d, m) (d, { m with provider := m.provider ++ [p] }) :=
  { Evolves.refl (d, m) with
    provider := fun _ q hq => ⟨q, findRemote_append hq _, .refl q⟩ }

/-! ## Payments by provider id -/

/-- The one payment with a provider id, however the session reads it. -/
theorem oneRow_eq_ok {α : Type} {rows : List α} {r : α} : oneRow rows = .ok r ↔ rows = [r] := by
  match rows with
  | [] => simp [oneRow]
  | [a] => simp [oneRow]
  | _ :: _ :: _ => simp [oneRow]

theorem mem_withProviderId {d : Database} {providerId : String} {r : Payment} :
    r ∈ withProviderId d providerId ↔
      d.payments.find r.id = some r ∧ r.providerId = some providerId := by
  simp [withProviderId, Table.mem_rows_iff]

theorem find_of_oneRow {d : Database} {providerId : String} {r : Payment}
    (h : oneRow (withProviderId d providerId) = .ok r) :
    d.payments.find r.id = some r ∧ r.providerId = some providerId := by
  refine mem_withProviderId.mp ?_
  rw [oneRow_eq_ok.mp h]
  exact List.mem_singleton_self r

end Sieshka
