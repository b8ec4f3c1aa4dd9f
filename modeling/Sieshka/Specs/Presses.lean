import Sieshka.Specs.MaxWebhook

/-!
# Transitions of a call that runs alone

What a transition of an order or of a ticket comes to when no other call runs and every row
fits: it is made where the graph allows it, and else nothing changes.
-/

namespace Sieshka

open Transactions

section Alone

variable {E₀ : Engine Database Write} {s : Quiet Database Memory}

/-- The order is stored in another state, with a trace. -/
def movedOrder (d : Database) (row : Order) (state : OrderState) (trace : String) : Database :=
  { d with orders := d.orders.put { row with state, traceId := some trace } }

theorem returns_transitionOrderState (hfits : ∀ w, E₀.fits w = true) (hs : s.failed = false)
    {row : Order} (hrow : s.view.orders.find row.id = some row) (state : OrderState) :
    (transitionOrderState row.id.text row.state state).Returns E₀ s "OK"
      (s.wrote [.order { row with state }]) := by
  have hlocked : (orders.findForUpdate row.id : Async _).Returns E₀ s (some row) s := by
    simp [hs, hrow, orders]
  have hwritten : (orders.update row.id fun row => { row with state } : Async Unit).Returns E₀ s ()
      (s.wrote [.order { row with state }]) :=
    orders.returns_update_of_find hs hrow (hfits _)
  rw [transitionOrderState, uuid_text, ofExcept_ok, Prog.bind_eq, Prog.andThen, Prog.bind_eq,
    hlocked.andThen_iff]
  dsimp only
  rw [if_neg (by simp), Prog.bind_eq, hwritten.andThen_iff]
  exact (Prog.returns_ret _).mpr ⟨rfl, rfl⟩

/-- A tool that returns makes its one-step program succeed. -/
theorem returns_vmRun_single {Tool Name : Type} [DecidableEq Name]
    {tools : Tool → List (Name × Value) → Async Value} {context : List (Name × Value)}
    {step : Step Tool Name} {tool : Tool} {args : List (Name × Arg Name)} {out : Value}
    {s' : Quiet Database Memory} (haction : step.action = .tool tool args none)
    (h : (tools tool (resolve context [] args)).Returns E₀ s out s') :
    (vmRun tools [step] context).Returns E₀ s
      { outputs := [(step.id, out), (step.outputKey, out)] } s' := by
  have hrun : vmRun tools [step] context = (tools tool (resolve context [] args)).andThen
      (fun out => .ret { outputs := [(step.id, out), (step.outputKey, out)] })
      (fun e => .ret { outputs := [], error := some e.message }) := by
    simp [vmRun, runFrom, haction]
  rw [hrun, Prog.Returns, h.serial_andThen]
  rfl

/-- The program of an event that sends nothing to the kitchen. -/
theorem returns_selectProgram (hfits : ∀ w, E₀.fits w = true) (hs : s.failed = false)
    {row : Order} (hrow : s.view.orders.find row.id = some row) {event : OrderEvent}
    {state : OrderState} (hev : event ≠ .START_COOKING)
    (htr : orderTransitions row.state event = some state) :
    ∃ outputs, (vmRun orderTools (selectProgram event row.state state)
      (transitionContext row.id.text event row.state)).Returns E₀ s { outputs }
        (s.wrote [.order { row with state }]) := by
  obtain ⟨name, f, t, hprogram, hargs⟩ := selectProgram_single row.id.text hev htr
  have hmoved := returns_transitionOrderState hfits hs hrow state
  have htool : (orderTools .transition_order_state
      (transitionArgs row.id.text row.state state)).Returns E₀ s (.text "OK")
        (s.wrote [.order { row with state }]) := by
    change ((transitionOrderState row.id.text row.state state).andThen
      (fun ok => .ret (Value.text ok)) .raise).Returns E₀ s _ _
    rw [hmoved.andThen_iff]
    exact (Prog.returns_ret _).mpr ⟨rfl, rfl⟩
  rw [hprogram]
  exact ⟨_, returns_vmRun_single rfl (hargs ▸ htool)⟩

theorem returns_orderState (hs : s.failed = false) {row : Order}
    (hrow : s.view.orders.find row.id = some row) :
    (orderState row.id.text).Returns E₀ s row.state s := by
  have hfind : (orders.table s.view).find row.id = some row := hrow
  simp [orderState, hs, hfind]

theorem returns_finishTransition (hfits : ∀ w, E₀.fits w = true) (hs : s.failed = false)
    {row : Order} (hrow : s.view.orders.find row.id = some row) {event : OrderEvent}
    {state : OrderState} (hcook : state ≠ .COOKING) :
    (finishTransition row.id.text event state).Returns E₀ s ()
      (s.wrote [.order { row with
        traceId := some (Uuid.text (BitVec.ofNat 128 (E₀.supply s.view))) }]) := by
  have hwritten := orders.returns_update_of_find (M := Memory) (E := PyError)
    (f := fun row => { row with
      traceId := some (Uuid.text (BitVec.ofNat 128 (E₀.supply s.view))) }) hs hrow (hfits _)
  rw [finishTransition, Prog.bind_eq, uuid4, Prog.andThen, Prog.returns_choose, Prog.andThen,
    uuid_text, ofExcept_ok, Prog.bind_eq, Prog.andThen, Prog.bind_eq, hwritten.andThen_iff,
    if_neg (fun h => hcook h.1)]
  exact (Prog.returns_ret _).mpr ⟨rfl, rfl⟩

/-- The trace that a transition alone leaves with the order. -/
def aloneTrace (E₀ : Engine Database Write) (d : Database) (row : Order) (state : OrderState) :
    String :=
  Uuid.text (BitVec.ofNat 128 (E₀.supply { d with orders := d.orders.put { row with state } }))

/-- An event that the graph does not allow. -/
theorem returns_transitionOrder_none {d : Database} {m : Memory} {row : Order}
    (hrow : d.orders.find row.id = some row) {event : OrderEvent}
    (htr : orderTransitions row.state event = none) :
    (transitionOrder row.id.text event).Returns E₀ (Quiet.start d m)
      (rejected (some event) (notAllowed "Order" event.value row.state.value)) (Quiet.start d m) := by
  have hstate : (orderState row.id.text).Returns E₀ (Quiet.start d m) row.state
      (Quiet.start d m) := returns_orderState rfl hrow
  rw [transitionOrder, runTransition, Prog.Returns, Prog.serial_withSession, Prog.bind_eq,
    hstate.serial_andThen, htr]
  rfl

/-- An event that the graph allows, and that sends nothing to the kitchen. -/
theorem returns_transitionOrder (hfits : ∀ w, E₀.fits w = true) {d : Database} {m : Memory}
    {row : Order} (hrow : d.orders.find row.id = some row) {event : OrderEvent}
    (hev : event ≠ .START_COOKING) {state : OrderState}
    (htr : orderTransitions row.state event = some state) :
    (transitionOrder row.id.text event).Returns E₀ (Quiet.start d m) (transitioned state)
      (Quiet.start (movedOrder d row state (aloneTrace E₀ d row state)) m) := by
  have hstate : (orderState row.id.text).Returns E₀ (Quiet.start d m) row.state
      (Quiet.start d m) := returns_orderState rfl hrow
  have hquiet : (Quiet.start d m : Quiet Database Memory).failed = false := rfl
  obtain ⟨outputs, hprogram⟩ := returns_selectProgram hfits hquiet hrow hev htr
  have hcook : state ≠ .COOKING := fun h => hev (startCooking_of_cooking (h ▸ htr))
  have hmoved : (d.orders.put { row with state }).find row.id = some { row with state } :=
    Table.find_put_self d.orders { row with state }
  have hfinish : (finishTransition row.id.text event state).Returns E₀
      ((Quiet.start d m).wrote [.order { row with state }]) ()
      (((Quiet.start d m).wrote [.order { row with state }]).wrote [.order { row with
        state, traceId := some (aloneTrace E₀ d row state) }]) :=
    @returns_finishTransition _ ((Quiet.start d m).wrote [.order { row with state }]) hfits rfl
      { row with state } hmoved event state hcook
  have hput : (d.orders.put { row with state }).put { row with
      state, traceId := some (aloneTrace E₀ d row state) } =
      d.orders.put { row with state, traceId := some (aloneTrace E₀ d row state) } :=
    Table.put_put rfl
  rw [transitionOrder, runTransition, Prog.Returns, Prog.serial_withSession, Prog.bind_eq,
    hstate.serial_andThen, htr]
  dsimp only
  rw [Prog.bind_eq, hprogram.serial_andThen]
  dsimp only
  rw [Prog.bind_eq, hfinish.serial_andThen, movedOrder, ← hput]
  rfl

/-! ## Tickets -/

/-- The ticket is stored in another state. -/
def movedTicket (d : Database) (ticket : KitchenTicket) (state : KitchenState) : Database :=
  { d with kitchenTickets := d.kitchenTickets.put { ticket with state } }

theorem returns_writeKitchenState (hfits : ∀ w, E₀.fits w = true) (hs : s.failed = false)
    {ticket : KitchenTicket} (hticket : s.view.kitchenTickets.find ticket.id = some ticket)
    (state : KitchenState) :
    (writeKitchenState ticket.id.text ticket.state state).Returns E₀ s "OK"
      (s.wrote [.kitchenTicket { ticket with state }]) := by
  have hlocked : (kitchenTickets.findForUpdate ticket.id : Async _).Returns E₀ s (some ticket)
      s := by
    simp [hs, hticket, kitchenTickets]
  have hwritten : (kitchenTickets.update ticket.id fun row => { row with state } :
      Async Unit).Returns E₀ s () (s.wrote [.kitchenTicket { ticket with state }]) :=
    kitchenTickets.returns_update_of_find hs hticket (hfits _)
  rw [writeKitchenState, uuid_text, ofExcept_ok, Prog.bind_eq, Prog.andThen, Prog.bind_eq,
    hlocked.andThen_iff]
  dsimp only
  rw [if_neg (by simp), Prog.bind_eq, hwritten.andThen_iff]
  exact (Prog.returns_ret _).mpr ⟨rfl, rfl⟩

theorem returns_kitchenProgram (hfits : ∀ w, E₀.fits w = true) (hs : s.failed = false)
    {ticket : KitchenTicket} (hticket : s.view.kitchenTickets.find ticket.id = some ticket)
    {event : KitchenEvent} {state : KitchenState}
    (htr : kitchenTransitions ticket.state event = some state) :
    ∃ outputs, (vmRun kitchenTools (kitchenProgram event)
      [(.ticket_id, .text ticket.id.text)]).Returns E₀ s { outputs }
        (s.wrote [.kitchenTicket { ticket with state }]) := by
  obtain ⟨tool, hprogram, htool⟩ := kitchenTools_eq ticket.id.text event
  have hstep : kitchenStep event = (ticket.state, state) := by
    revert htr
    cases ticket.state <;> cases event <;> simp [kitchenTransitions, kitchenStep]
  have hreturns : (kitchenTools tool [(.ticket_id, .text ticket.id.text)]).Returns E₀ s
      (.text "OK") (s.wrote [.kitchenTicket { ticket with state }]) := by
    rw [htool, hstep, Prog.bind_eq, (returns_writeKitchenState hfits hs hticket state).andThen_iff]
    exact (Prog.returns_ret _).mpr ⟨rfl, rfl⟩
  rw [hprogram]
  exact ⟨_, returns_vmRun_single rfl hreturns⟩

theorem returns_ticketState (hs : s.failed = false) {ticket : KitchenTicket}
    (hticket : s.view.kitchenTickets.find ticket.id = some ticket) :
    (ticketState ticket.id.text).Returns E₀ s ticket.state s := by
  have hfind : (kitchenTickets.table s.view).find ticket.id = some ticket := hticket
  simp [ticketState, hs, hfind]

/-- An event that the graph does not allow. -/
theorem returns_runTicketTransition_none {d : Database} {m : Memory} {ticket : KitchenTicket}
    (hticket : d.kitchenTickets.find ticket.id = some ticket) {event : KitchenEvent}
    (htr : kitchenTransitions ticket.state event = none) :
    (runTicketTransition ticket.id.text event).Returns E₀ (Quiet.start d m)
      (rejected (some event) (notAllowed "Kitchen" event.value ticket.state.value)) (Quiet.start d m) := by
  have hstate : (ticketState ticket.id.text).Returns E₀ (Quiet.start d m) ticket.state
      (Quiet.start d m) := returns_ticketState rfl hticket
  rw [runTicketTransition, Prog.Returns, Prog.serial_withSession, Prog.bind_eq,
    hstate.serial_andThen, htr]
  rfl

/-- An event that the graph allows. -/
theorem returns_runTicketTransition (hfits : ∀ w, E₀.fits w = true) {d : Database} {m : Memory}
    {ticket : KitchenTicket} (hticket : d.kitchenTickets.find ticket.id = some ticket)
    {event : KitchenEvent} {state : KitchenState}
    (htr : kitchenTransitions ticket.state event = some state) :
    (runTicketTransition ticket.id.text event).Returns E₀ (Quiet.start d m) (transitioned state)
      (Quiet.start (movedTicket d ticket state) m) := by
  have hstate : (ticketState ticket.id.text).Returns E₀ (Quiet.start d m) ticket.state
      (Quiet.start d m) := returns_ticketState rfl hticket
  have hquiet : (Quiet.start d m : Quiet Database Memory).failed = false := rfl
  obtain ⟨outputs, hprogram⟩ := returns_kitchenProgram hfits hquiet hticket htr
  rw [runTicketTransition, Prog.Returns, Prog.serial_withSession, Prog.bind_eq,
    hstate.serial_andThen, htr]
  dsimp only
  rw [Prog.bind_eq, hprogram.serial_andThen]
  rfl

theorem returns_ticketOrder {d : Database} {m : Memory} {ticket : KitchenTicket} {row : Order}
    (hticket : d.kitchenTickets.find ticket.id = some ticket)
    (hrow : d.orders.find ticket.orderId = some row) :
    (ticketOrder ticket.id.text).Returns E₀ (Quiet.start d m) (some (row.id, row.deliveryMode))
      (Quiet.start d m) := by
  have hfound : (d.kitchenTickets.find ticket.id).bind (fun ticket =>
      (d.orders.find ticket.orderId).map fun order => (order.id, order.deliveryMode)) =
      some (row.id, row.deliveryMode) := by
    rw [hticket, Option.bind_some, hrow, Option.map_some]
  rw [ticketOrder, Prog.returns_withSession]
  refine ⟨Quiet.start d m, ?_, rfl⟩
  rw [uuid_text, ofExcept_ok, Prog.bind_eq, Prog.andThen, Prog.returns_select]
  exact ⟨rfl, hfound.symm, rfl⟩

/-- The state a hand-off leaves an order in. -/
def handedOver (row : Order) : OrderState :=
  if row.deliveryMode = some "pickup" then .CLOSED else .PACKING

/-- The order is moved a second time. -/
theorem movedOrder_movedOrder (d : Database) (row : Order) (state state' : OrderState)
    (trace trace' : String) :
    movedOrder (movedOrder d row state trace) { row with state, traceId := some trace } state'
        trace' =
      movedOrder d row state' trace' := by
  have hput : (d.orders.put { row with state, traceId := some trace }).put
      { row with state := state', traceId := some trace' } =
      d.orders.put { row with state := state', traceId := some trace' } := Table.put_put rfl
  exact congrArg (fun t => { d with orders := t }) hput

/-- What follows a hand-off, alone: an order that was cooked is packed, and closed when the
customer picks it up; another stays where it is. -/
theorem returns_advanceOrder (hfits : ∀ w, E₀.fits w = true) {d : Database} {m : Memory}
    {ticket : KitchenTicket} {row : Order}
    (hticket : d.kitchenTickets.find ticket.id = some ticket)
    (hrow : d.orders.find ticket.orderId = some row) :
    ∃ d', (advanceOrder ticket.id.text).Returns E₀ (Quiet.start d m) () (Quiet.start d' m) ∧
      (row.state = .COOKING → ∃ trace, d' = movedOrder d row (handedOver row) trace) ∧
      (row.state ≠ .COOKING → d' = d) := by
  have hrow' : d.orders.find row.id = some row := by
    rw [(Table.find_some hrow).2]
    exact hrow
  have horder : (ticketOrder ticket.id.text).Returns E₀ (Quiet.start d m)
      (some (row.id, row.deliveryMode)) (Quiet.start d m) := returns_ticketOrder hticket hrow
  by_cases hcook : row.state = .COOKING
  · have htr : orderTransitions row.state .START_PACKING = some .PACKING := by
      rw [hcook]
      rfl
    have hpack := returns_transitionOrder (m := m) hfits hrow' (by decide) htr
    by_cases hmode : row.deliveryMode = some "pickup"
    · -- the order is closed as well
      generalize aloneTrace E₀ d row .PACKING = trace at hpack
      have hpacked : (movedOrder d row .PACKING trace).orders.find row.id =
          some { row with state := .PACKING, traceId := some trace } :=
        Table.find_put_self d.orders { row with state := .PACKING, traceId := some trace }
      have hgraph : orderTransitions .PACKING .CLOSE = some .CLOSED := rfl
      have hclose := @returns_transitionOrder _ hfits _ m
        { row with state := .PACKING, traceId := some trace } hpacked .CLOSE (by decide) .CLOSED
        hgraph
      rw [movedOrder_movedOrder] at hclose
      generalize aloneTrace E₀ (movedOrder d row .PACKING trace) _ .CLOSED = last at hclose
      refine ⟨movedOrder d row (handedOver row) last, ?_, fun _ => ⟨last, rfl⟩,
        fun h => absurd hcook h⟩
      rw [advanceOrder, Prog.bind_eq, horder.andThen_iff]
      dsimp only
      rw [Prog.bind_eq, hpack.andThen_iff, if_pos ⟨rfl, hmode⟩, Prog.bind_eq, hclose.andThen_iff,
        handedOver, if_pos hmode]
      exact (Prog.returns_ret _).mpr ⟨rfl, rfl⟩
    · generalize aloneTrace E₀ d row .PACKING = trace at hpack
      refine ⟨movedOrder d row (handedOver row) trace, ?_, fun _ => ⟨trace, rfl⟩,
        fun h => absurd hcook h⟩
      rw [advanceOrder, Prog.bind_eq, horder.andThen_iff]
      dsimp only
      rw [Prog.bind_eq, hpack.andThen_iff, if_neg fun h => hmode h.2, handedOver, if_neg hmode]
      exact (Prog.returns_ret _).mpr ⟨rfl, rfl⟩
  · have htr : orderTransitions row.state .START_PACKING = none := by
      revert hcook
      cases row.state <;> simp [orderTransitions]
    have hstay : (transitionOrder row.id.text .START_PACKING).Returns E₀ (Quiet.start d m)
        (rejected (some .START_PACKING)
          (notAllowed "Order" OrderEvent.START_PACKING.value row.state.value)) (Quiet.start d m) :=
      returns_transitionOrder_none hrow' htr
    refine ⟨d, ?_, fun h => absurd h hcook, fun _ => rfl⟩
    rw [advanceOrder, Prog.bind_eq, horder.andThen_iff]
    dsimp only
    rw [Prog.bind_eq, hstay.andThen_iff, if_neg (by simp [rejected])]
    exact (Prog.returns_ret _).mpr ⟨rfl, rfl⟩

/-- What a transition of a ticket leaves of its order. -/
def TicketDone (d : Database) (row : Order) (event : KitchenEvent) (d' : Database) : Prop :=
  (event = .HAND_OFF ∧ row.state = .COOKING →
    ∃ trace, d' = movedOrder d row (handedOver row) trace) ∧
    (¬ (event = .HAND_OFF ∧ row.state = .COOKING) → d' = d)

/-- An event of a ticket that the graph allows. -/
theorem returns_transitionTicket (hfits : ∀ w, E₀.fits w = true) {d : Database} {m : Memory}
    {ticket : KitchenTicket} {row : Order}
    (hticket : d.kitchenTickets.find ticket.id = some ticket)
    (hrow : d.orders.find ticket.orderId = some row) {event : KitchenEvent} {state : KitchenState}
    (htr : kitchenTransitions ticket.state event = some state) :
    ∃ d', (transitionTicket ticket.id.text event).Returns E₀ (Quiet.start d m) (transitioned state)
        (Quiet.start d' m) ∧
      TicketDone (movedTicket d ticket state) row event d' := by
  have hmoved := returns_runTicketTransition (m := m) hfits hticket htr
  by_cases hev : event = .HAND_OFF
  · have hticket' : (movedTicket d ticket state).kitchenTickets.find ticket.id =
        some { ticket with state } := Table.find_put_self d.kitchenTickets { ticket with state }
    obtain ⟨d', hadvance, hcook, hstay⟩ := @returns_advanceOrder _ hfits _ m
      { ticket with state } row hticket' hrow
    refine ⟨d', ?_, fun h => hcook h.2, fun h => hstay fun hc => h ⟨hev, hc⟩⟩
    rw [transitionTicket, Prog.bind_eq, hmoved.andThen_iff, if_pos ⟨hev, rfl⟩, Prog.bind_eq,
      Prog.Returns, Prog.serial_andThen, hadvance.serial_andThen]
    rfl
  · refine ⟨movedTicket d ticket state, ?_, fun h => absurd h.1 hev, fun _ => rfl⟩
    rw [transitionTicket, Prog.bind_eq, hmoved.andThen_iff, if_neg fun h => hev h.1]
    exact (Prog.returns_ret _).mpr ⟨rfl, rfl⟩

/-- An event of a ticket that the graph does not allow. -/
theorem returns_transitionTicket_none {d : Database} {m : Memory} {ticket : KitchenTicket}
    (hticket : d.kitchenTickets.find ticket.id = some ticket) {event : KitchenEvent}
    (htr : kitchenTransitions ticket.state event = none) :
    (transitionTicket ticket.id.text event).Returns E₀ (Quiet.start d m)
      (rejected (some event) (notAllowed "Kitchen" event.value ticket.state.value)) (Quiet.start d m) := by
  have hstay : (runTicketTransition ticket.id.text event).Returns E₀ (Quiet.start d m)
      (rejected (some event) (notAllowed "Kitchen" event.value ticket.state.value)) (Quiet.start d m) :=
    returns_runTicketTransition_none hticket htr
  rw [transitionTicket, Prog.bind_eq, hstay.andThen_iff, if_neg (by simp [rejected])]
  exact (Prog.returns_ret _).mpr ⟨rfl, rfl⟩

/-! ## The webhook -/

/-- A press that gets as far as its dispatch is answered 200 when the dispatch returns. -/
theorem returns_maxWebhook {cfg : Settings} (hset : cfg.maxWebhookSecret ≠ "")
    (hascii : cfg.maxWebhookSecret.toList.all (fun c => c.toNat < 128) = true) {update : Json}
    {callback : List (String × Json)} {sender : Int} {member : StaffMember} {press : Press}
    {d d' : Database} {m : Memory} (hcb : callbackOf update = .ok (some (callback, sender)))
    (hbig : IsBigint sender) (hm : staffByMaxId d sender = some member)
    (hpress : pressOf cfg callback = .ok (some press))
    (hdone : (dispatchPress member.role press).Returns E₀ (Quiet.start d m) () (Quiet.start d' m)) :
    (maxWebhook cfg (some cfg.maxWebhookSecret) (some update)).Returns E₀ (Quiet.start d m) 200
      (Quiet.start d' m) := by
  have hdigest : compareDigest ((some cfg.maxWebhookSecret).getD "") cfg.maxWebhookSecret =
      .ok true := by
    rw [Option.getD_some, compareDigest, hascii]
    simp
  have hfound : (findByMaxUserId sender).Returns E₀ (Quiet.start d m) (some member)
      (Quiet.start d m) := by
    have hbig : -2 ^ 63 ≤ sender ∧ sender < 2 ^ 63 := hbig
    rw [findByMaxUserId, Prog.returns_withSession, if_pos hbig]
    exact ⟨Quiet.start d m, (Prog.returns_select _).mpr ⟨rfl, hm.symm, rfl⟩, rfl⟩
  rw [maxWebhook, if_neg hset, hdigest, ofExcept_ok, Prog.bind_eq, Prog.andThen, if_pos rfl]
  rw [hcb, ofExcept_ok, Prog.bind_eq, Prog.andThen]
  dsimp only
  rw [handleCallback, Prog.bind_eq, hfound.andThen_iff]
  dsimp only
  rw [hpress, ofExcept_ok, Prog.bind_eq, Prog.andThen]
  dsimp only
  rw [Prog.bind_eq, hdone.andThen_iff]
  exact (Prog.returns_ret _).mpr ⟨rfl, rfl⟩

end Alone

end Sieshka
