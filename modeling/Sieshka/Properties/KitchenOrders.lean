import Sieshka.Properties.Cooking

/-!
# The kitchen's tickets and the cooked orders

What a commit means to the kitchen is one of two things: one order is sent there, with its
ticket, or the orders that have been cooked and the orders of the tickets stay what they were.
From this, tickets and cooked orders correspond in every run.
-/

namespace Sieshka

open Transactions Contract

/-- The tickets of an order. -/
def ticketCount (d : Database) (o : Uuid) : Nat :=
  d.kitchenTickets.rows.countP fun ticket => ticket.orderId = o

/-! ## What a commit means to the kitchen -/

/-- A version of an order that is cooked when the order was, with the items it had. -/
structure Order.SameFood (r r' : Order) : Prop where
  id : r'.id = r.id
  items : r'.items = r.items
  cooked : r'.state.cooked = r.state.cooked

/-- No order has been sent to the kitchen: one may have moved on, or have been placed. -/
inductive SameFood (orders : Table Order.id) : Table Order.id → Prop
  | same : SameFood orders orders
  | moved (row row' : Order) (hfind : orders.find row.id = some row) (h : row.SameFood row') :
      SameFood orders (orders.put row')
  | placed (row : Order) (habs : orders.find row.id = none) (h : row.state.cooked = false) :
      SameFood orders (orders.put row)

/-- One order is sent to the kitchen, with one ticket, or none is. -/
inductive KitchenStep (d d' : Database) : Prop
  | sent (row row' : Order) (ticket : KitchenTicket) (hfind : d.orders.find row.id = some row)
      (hraw : row.state.cooked = false)
      (hrow : row' = { row with state := .COOKING, traceId := row'.traceId })
      (horders : d'.orders = d.orders.put row') (horder : ticket.orderId = row.id)
      (habs : d.kitchenTickets.find ticket.id = none)
      (htickets : d'.kitchenTickets = d.kitchenTickets.put ticket)
  | kept (horders : SameFood d.orders d'.orders)
      (htickets : ∀ o, ticketCount d' o = ticketCount d o)

/-- `START_COOKING` is the only way into the kitchen. -/
theorem cooked_of_transition_eq (s : OrderState) (e : OrderEvent) (s' : OrderState)
    (h : orderTransitions s e = some s') (he : e ≠ .START_COOKING) : s'.cooked = s.cooked := by
  cases s <;> cases e <;> simp only [orderTransitions, reduceCtorEq, Option.some.injEq] at h <;>
    (subst h; first | rfl | exact absurd rfl he)

theorem Moves.sameFood {t t' : Table Order.id} {row : Order} {event : OrderEvent} {why : Prop}
    (hfind : t.find row.id = some row) (he : event ≠ .START_COOKING)
    (h : Moves t row event why t') : SameFood t t' := by
  cases h with
  | @moved st htr =>
      apply SameFood.moved row _ hfind
      exact ⟨rfl, rfl, cooked_of_transition_eq _ _ _ htr he⟩
  | kept _ => exact .same

theorem ticketCount_put {d d' : Database} {row r : KitchenTicket}
    (hfind : d.kitchenTickets.find r.id = some row) (horder : r.orderId = row.orderId)
    (h : d'.kitchenTickets = d.kitchenTickets.put r) (o : Uuid) :
    ticketCount d' o = ticketCount d o := by
  rw [ticketCount, h, Table.rows_put_of_find hfind, List.countP_map, ticketCount]
  apply List.countP_congr
  intro ticket hticket
  by_cases hid : ticket.id = r.id
  · obtain rfl : ticket = row := by
      have hmem := Table.find_of_mem hticket
      rw [hid, hfind] at hmem
      exact (Option.some.inj hmem).symm
    simp [hid, horder]
  · simp [hid]

theorem ticketCount_put_absent {d d' : Database} {ticket : KitchenTicket}
    (habs : d.kitchenTickets.find ticket.id = none)
    (h : d'.kitchenTickets = d.kitchenTickets.put ticket) (o : Uuid) :
    ticketCount d' o = ticketCount d o + if ticket.orderId = o then 1 else 0 := by
  rw [ticketCount, h, Table.rows_put_of_find_eq_none habs, List.countP_append, ticketCount,
    List.countP_singleton]
  simp

section Commits

variable {cfg : Settings} {A : Call → CallAt → Prop} {R : Call → State → State → Prop} {c : Call}
variable {past : Past} {s : State} {ws : List Write} {d' : Database}

theorem Commits.kitchenStep (h : Commits cfg A R c past s ws d') : KitchenStep s.1 d' := by
  cases h with
  | duplicate _ _ _ => exact .kept .same fun _ => rfl
  | recorded row _ _ => exact .kept .same fun _ => rfl
  | answered body _ id rest _ _ _ => exact .kept .same fun _ => rfl
  | customer body _ row _ => exact .kept .same fun _ => rfl
  | placed body _ id customerId items totalRub promoCode discountRub _ _ habs =>
      exact .kept (.placed _ habs rfl) fun _ => rfl
  | moved row row' event st hfind _ htr hev hrow =>
      have hcooked : st.cooked = row.state.cooked := cooked_of_transition_eq _ _ _ htr hev
      refine .kept (.moved row row' hfind ⟨?_, ?_, ?_⟩) fun _ => rfl
      · rw [hrow]
      · rw [hrow]
      · rw [hrow]
        exact hcooked
  | cooked row row' orderId items lines d₁ ticket hfind _ _ htr hrow _ _ hsells habs horder _ =>
      have hsame := hsells.steps.same
      have horders : d₁.orders = s.1.orders := by rw [hsame]
      have htickets : d₁.kitchenTickets = s.1.kitchenTickets := by rw [hsame]
      refine .sent row row' ticket hfind ?_ hrow (by rw [horders]) horder habs (by rw [htickets])
      revert htr
      cases row.state <;> simp [orderTransitions, OrderState.cooked]
  | paymentCreated row order orders' _ _ hfind _ _ hmoves =>
      have hid : order.id = row.orderId := (Table.find_some hfind).2
      exact .kept (hmoves.sameFood (hid ▸ hfind) (by simp)) fun _ => rfl
  | settled kind orderId row order orders' _ _ _ _ _ horder hmoves =>
      refine .kept (hmoves.sameFood horder ?_) fun _ => rfl
      cases kind <;> simp [Settlement.event]
  | ticketMoved row event st hfind _ _ =>
      refine .kept .same fun o => ?_
      exact ticketCount_put (r := { row with state := st }) hfind rfl rfl o
  | stock _ h _ =>
      have horders : d'.orders = s.1.orders := by rw [h.same]
      refine .kept (by rw [horders]; exact .same) fun o => ?_
      rw [ticketCount, ticketCount, h.same]

end Commits

/-! ## Which orders are cooked -/

theorem cooked_put_of_ne {d d' : Database} {row : Order} {o : Uuid}
    (h : d'.orders = d.orders.put row) (hne : row.id ≠ o) : Cooked o d' ↔ Cooked o d := by
  rw [Cooked, h, Table.find_put_of_ne _ hne, Cooked]

theorem cooked_put_self {d d' : Database} {row : Order} (h : d'.orders = d.orders.put row) :
    Cooked row.id d' ↔ row.state.cooked = true := by
  rw [Cooked, h, Table.find_put_self]
  constructor
  · rintro ⟨row', hrow, hcooked⟩
    rw [Option.some.inj hrow]
    exact hcooked
  · intro hcooked
    exact ⟨row, rfl, hcooked⟩

theorem SameFood.cooked {d d' : Database} (h : SameFood d.orders d'.orders) (o : Uuid) :
    Cooked o d' ↔ Cooked o d := by
  generalize horders : d'.orders = t at h
  cases h with
  | same => rw [Cooked, horders, Cooked]
  | moved row row' hfind hfood =>
      by_cases hid : row'.id = o
      · subst hid
        rw [cooked_put_self horders, hfood.cooked, Cooked, hfood.id, hfind]
        simp
      · exact cooked_put_of_ne horders hid
  | placed row habs hraw =>
      by_cases hid : row.id = o
      · subst hid
        rw [cooked_put_self horders, hraw, Cooked, habs]
        simp
      · exact cooked_put_of_ne horders hid

/-! ## Every run -/

/-- An order that has been cooked has one ticket, and any other order has none. -/
structure KitchenAgrees (d : Database) : Prop where
  cooked : ∀ o, Cooked o d → ticketCount d o = 1
  raw : ∀ o, ¬ Cooked o d → ticketCount d o = 0

theorem KitchenStep.agrees {d d' : Database} (hs : KitchenStep d d') (h : KitchenAgrees d) :
    KitchenAgrees d' := by
  cases hs with
  | sent row row' ticket hfind hraw hrow horders horder habs htickets =>
      have hid : row'.id = row.id := by rw [hrow]
      have hcount := ticketCount_put_absent habs htickets
      have hnot : ¬ Cooked row.id d := by
        rintro ⟨r, hr, hcooked⟩
        rw [hfind] at hr
        rw [← Option.some.inj hr, hraw] at hcooked
        cases hcooked
      have hnow : Cooked row.id d' := by
        rw [← hid, cooked_put_self horders, hrow]
        rfl
      constructor
      · intro o ho
        by_cases he : row.id = o
        · rw [hcount, horder, if_pos he, h.raw o (he ▸ hnot)]
        · rw [cooked_put_of_ne horders (hid ▸ he)] at ho
          rw [hcount, horder, if_neg he, h.cooked o ho]
      · intro o ho
        have he : row.id ≠ o := by
          intro he
          exact ho (he ▸ hnow)
        rw [cooked_put_of_ne horders (hid ▸ he)] at ho
        rw [hcount, horder, if_neg he, h.raw o ho]
  | kept horders htickets =>
      constructor
      · intro o ho
        rw [htickets]
        exact h.cooked o ((horders.cooked o).mp ho)
      · intro o ho
        rw [htickets]
        exact h.raw o fun hc => ho ((horders.cooked o).mpr hc)

section Runs

variable {cfg : Settings} {d : Database} {m : Memory} {c : ShopConfig}

/-- From a database where they correspond and under any interleaving of any calls, tickets and
cooked orders correspond: an order that is `COOKING` or further has exactly one ticket in the
kitchen, and an order that is not there yet, is `CANCELLED` or is not stored has none. -/
theorem kitchen_agrees_with_orders (h : Reaches cfg (Config.start d m) c)
    (hd : KitchenAgrees d) : KitchenAgrees c.db := by
  induction h with
  | refl => exact hd
  | step hr _ hs ih =>
      cases Reaches.changed hr hs with
      | kept hdb _ => exact hdb ▸ ih
      | committed _ _ _ _ hcommit _ _ => exact hcommit.kitchenStep.agrees ih

end Runs

/-- A paid order is sent to the kitchen, and a confirmed one is cancelled. -/
theorem kitchen_agrees_with_orders_sent :
    ∃ c, Reaches sampleSettings (Config.start (databaseWith
          [sampleOrder 1 .PAID "cash" [], sampleOrder 2 .CONFIRMED "cash" []] []) {}) c ∧
      orderStates c = [(1, .COOKING), (2, .CANCELLED)] ∧ KitchenAgrees c.db := by
  obtain ⟨c, hr, hc⟩ := System.Runs.exists_of_exec (shop sampleSettings) (fun _ _ => True)
    (Config.start (databaseWith
      [sampleOrder 1 .PAID "cash" [], sampleOrder 2 .CONFIRMED "cash" []] []) {})
    (.call (.triggerEvent 1 .START_COOKING) :: .call (.triggerEvent 2 .CANCEL) ::
      (runs 1 2 ++ runs 0 11 ++ runs 1 5))
    (f := orderStates) (b := [(1, .COOKING), (2, .CANCELLED)]) (fun _ _ _ => trivial)
    (by decide +kernel)
  refine ⟨c, hr, hc, kitchen_agrees_with_orders hr ⟨?_, fun _ _ => rfl⟩⟩
  rintro o ⟨row, hfind, hcooked⟩
  have hmem : row ∈ [sampleOrder 1 .PAID "cash" [], sampleOrder 2 .CONFIRMED "cash" []] :=
    (Table.find_some hfind).1
  rcases List.mem_pair.mp hmem with rfl | rfl <;> cases hcooked

end Sieshka
