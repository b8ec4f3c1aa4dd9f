import Sieshka.Services.OrderService

/-!
# Kitchen tickets and staff buttons

`KitchenService.transition_ticket` with the order transitions a hand-off
triggers, and the role tables through which staff reach both services.
-/

namespace Sieshka

open Transactions

abbrev KitchenResult := TransitionResult KitchenState KitchenEvent

/-- `KitchenRepository.get_state`. -/
def ticketState (ticketId : String) : Async KitchenState := do
  let id ← ofExcept (uuid ticketId)
  match ← kitchenTickets.find id with
  | none => throw .noResultFound
  | some row => return row.state

/-- The governed transition of a ticket. -/
def runTicketTransition (ticketId : String) (event : KitchenEvent) : Async KitchenResult :=
  Prog.withSession do
    let currentState ← ticketState ticketId
    match kitchenTransitions currentState event with
    | none => return rejected (some event) (notAllowed "Kitchen" event.value currentState.value)
    | some newState => do
        let trace ← vmRun kitchenTools (kitchenProgram event) [(.ticket_id, .text ticketId)]
        match trace.error with
        | some error => return rejected (some event) error
        | none => do
            Prog.commitSession
            return transitioned newState

/-- The order of a ticket and its delivery mode. -/
def ticketOrder (ticketId : String) : Async (Option (Uuid × Option String)) :=
  Prog.withSession do
    let id ← ofExcept (uuid ticketId)
    Prog.select fun (d : Database) =>
      (d.kitchenTickets.find id).bind fun ticket =>
        (d.orders.find ticket.orderId).map fun order => (order.id, order.deliveryMode)

/-- After a hand-off the order is packed, and closed when it is picked up. -/
def advanceOrder (ticketId : String) : Async Unit := do
  match ← ticketOrder ticketId with
  | none => return ()
  | some (order, deliveryMode) => do
      let packing ← transitionOrder order.text .START_PACKING
      if packing.success ∧ deliveryMode = some "pickup" then do
        let _ ← transitionOrder order.text .CLOSE
        return ()
      else return ()

/-- `KitchenService.transition_ticket`; what goes wrong after the hand-off is
only logged. -/
def transitionTicket (ticketId : String) (event : KitchenEvent) : Async KitchenResult := do
  let result ← runTicketTransition ticketId event
  if event = .HAND_OFF ∧ result.success then do
    (advanceOrder ticketId).andThen .ret fun _ => .ret ()
    return result
  else return result

/-! ## Staff -/

/-- `_KITCHEN_ROLE_EVENTS`. -/
def kitchenRoleEvents : StaffRole → KitchenEvent → Bool
  | .kitchen, _ => true
  | .staff, _ => true
  | _, _ => false

/-- `_ORDER_ROLE_EVENTS`. -/
def orderRoleEvents : StaffRole → OrderEvent → Bool
  | .courier, .ASSIGN_COURIER => true
  | .courier, .PICKUP => true
  | .courier, .DELIVER => true
  | .admin, .CANCEL => true
  | .staff, .ASSIGN_COURIER => true
  | .staff, .PICKUP => true
  | .staff, .DELIVER => true
  | .staff, .CANCEL => true
  | _, _ => false

/-- `dispatch_kitchen`; `none` is an event the role lacks. -/
def dispatchKitchen (role : StaffRole) (ticketId event : String) :
    Async (Option KitchenResult) :=
  match KitchenEvent.ofValue event with
  | none => return none
  | some event =>
      if kitchenRoleEvents role event then do
        let result ← transitionTicket ticketId event
        return some result
      else return none

/-- `dispatch_order`; `none` is an event the role lacks. -/
def dispatchOrder (role : StaffRole) (orderId event : String) : Async (Option OrderResult) :=
  match OrderEvent.ofValue event with
  | none => return none
  | some event =>
      if orderRoleEvents role event then do
        let result ← transitionOrder orderId event
        return some result
      else return none

end Sieshka
