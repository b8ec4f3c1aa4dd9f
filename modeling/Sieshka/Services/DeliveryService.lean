import Sieshka.Services.OrderService

/-!
# DeliveryService

Delivery tasks, with a database and calls of their own: no other service
touches `delivery_tasks`.

## Implementation notes

`get_state` reads without a lock and `write_state` writes without looking at
the state again, unlike the tools of orders and kitchen tickets.
-/

namespace Sieshka

open Transactions

inductive DeliveryState
  | UNASSIGNED
  | ASSIGNED
  | PICKED_UP
  | ON_ROUTE
  | DELIVERED
  | FAILED
deriving DecidableEq, Repr

inductive DeliveryEvent
  | ASSIGN
  | PICKUP
  | START_ROUTE
  | COMPLETE
  | FAIL
deriving DecidableEq, Repr

/-- The `.value` of a state. -/
def DeliveryState.value : DeliveryState → String
  | UNASSIGNED => "UNASSIGNED"
  | ASSIGNED => "ASSIGNED"
  | PICKED_UP => "PICKED_UP"
  | ON_ROUTE => "ON_ROUTE"
  | DELIVERED => "DELIVERED"
  | FAILED => "FAILED"

/-- The `.value` of an event. -/
def DeliveryEvent.value : DeliveryEvent → String
  | ASSIGN => "ASSIGN"
  | PICKUP => "PICKUP"
  | START_ROUTE => "START_ROUTE"
  | COMPLETE => "COMPLETE"
  | FAIL => "FAIL"

/-- `DELIVERY_TRANSITIONS[state].get(event)`. -/
def deliveryTransitions : DeliveryState → DeliveryEvent → Option DeliveryState
  | .UNASSIGNED, .ASSIGN => some .ASSIGNED
  | .ASSIGNED, .PICKUP => some .PICKED_UP
  | .ASSIGNED, .FAIL => some .FAILED
  | .PICKED_UP, .START_ROUTE => some .ON_ROUTE
  | .ON_ROUTE, .COMPLETE => some .DELIVERED
  | .ON_ROUTE, .FAIL => some .FAILED
  | _, _ => none

/-! ## The table -/

structure DeliveryTask where
  id : Uuid
  orderId : Uuid
  state : DeliveryState
deriving DecidableEq

/-- The tasks, and the orders they can refer to. -/
structure DeliveryDatabase where
  tasks : Table DeliveryTask.id
  orders : List Uuid

instance : RowStore DeliveryDatabase DeliveryTask Uuid where
  Cell _ := Option DeliveryTask
  get id d := d.tasks.find id
  put d row := { d with tasks := d.tasks.put row }
  row := DeliveryTask.id
  get_put_self _ _ _ := (Table.find_put_self _ _).trans (Table.find_put_self _ _).symm
  get_put_of_ne _ _ _ h := Table.find_put_of_ne _ fun he => h he.symm

def deliveryTasks : Schema DeliveryDatabase DeliveryTask.id where
  table := DeliveryDatabase.tasks
  lock := id
  write := id
  row_write _ := rfl
  table_put _ _ := rfl
  find_congr _ _ _ h := h

/-- What a call on delivery tasks does. -/
abbrev DeliveryAsync := Prog DeliveryDatabase DeliveryTask Uuid Unit PyError

abbrev DeliveryResult := TransitionResult DeliveryState DeliveryEvent

/-! ## DeliveryRepository -/

/-- `UUID(text)`. -/
def deliveryUuid (text : String) : DeliveryAsync Uuid :=
  match uuid text with
  | .ok id => return id
  | .error e => throw e

/-- `DeliveryRepository.get_state`. -/
def deliveryState (taskId : String) : DeliveryAsync DeliveryState := do
  let id ← deliveryUuid taskId
  match ← deliveryTasks.find id with
  | none => throw .noResultFound
  | some row => return row.state

/-- `DeliveryRepository.write_state`. -/
def writeDeliveryState (taskId : String) (state : DeliveryState) : DeliveryAsync Unit := do
  let id ← deliveryUuid taskId
  deliveryTasks.update id fun row => { row with state := state }

/-- `DeliveryRepository.create`: a task in `UNASSIGNED`. -/
def createDeliveryTask (orderId : String) : DeliveryAsync DeliveryTask := do
  let order ← deliveryUuid orderId
  let n ← Prog.pick
  let row : DeliveryTask := { id := BitVec.ofNat 128 n, orderId := order, state := .UNASSIGNED }
  deliveryTasks.insert (fun d => order ∈ d.orders) row
  return row

/-! ## DeliveryFSM and DeliveryService -/

/-- `DeliveryFSM.transition`. -/
def deliveryTransition (taskId : String) (event : DeliveryEvent) :
    DeliveryAsync DeliveryResult := do
  let current ← deliveryState taskId
  match deliveryTransitions current event with
  | none => return rejected (some event) (notAllowed "Delivery" event.value current.value)
  | some newState => do
      writeDeliveryState taskId newState
      return transitioned newState

/-- `DeliveryService.transition_task`. -/
def transitionTask (taskId : String) (event : DeliveryEvent) : DeliveryAsync DeliveryResult :=
  Prog.withSession do
    let result ← deliveryTransition taskId event
    Prog.commitSession
    return result

/-- `DeliveryService.create_task`. -/
def createTask (orderId : String) : DeliveryAsync DeliveryTask :=
  Prog.withSession do
    let task ← createDeliveryTask orderId
    Prog.commitSession
    return task

/-! ## Calls -/

/-- A request to the delivery routes. -/
inductive DeliveryCall
  | createTask (orderId : String)
  | transitionTask (taskId : String) (event : DeliveryEvent)

/-- What a call returns. -/
inductive DeliveryAnswer
  | task (row : DeliveryTask)
  | transition (result : DeliveryResult)

/-- The program of a call. -/
def deliveryBody : DeliveryCall → DeliveryAsync DeliveryAnswer
  | .createTask orderId => do
      let task ← createTask orderId
      return .task task
  | .transitionTask taskId event => do
      let result ← transitionTask taskId event
      return .transition result

/-- Any number of calls on one `delivery_tasks` table. -/
def delivery : System DeliveryCall DeliveryDatabase DeliveryTask Uuid Unit PyError
    DeliveryAnswer where
  body := deliveryBody
  restart := id
  Move := Empty
  move v _ := nomatch v

end Sieshka
