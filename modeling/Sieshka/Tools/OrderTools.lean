import Sieshka.World
import Sieshka.Python.Parameters

/-!
# Order and inventory tools

The tools that the order programs and the restock program call, each on the
session it is bound to.
-/

namespace Sieshka

open Transactions

/-! ## The inventory ledger -/

/-- `record_movement`: one `inventory_movements` row; the caller commits. -/
def recordMovement (sku : String) (delta : Int) (reason : MovementReason)
    (sourceType sourceId : Option String) (belowZero : Bool) : Async Unit := do
  let id ← uuid4
  inventoryMovements.insert (fun _ => true)
    { id, sku, delta, reason, sourceType, sourceId, belowZero }

/-! ## Inventory -/

/-- `decrement_inventory`: 1 when the stock was sufficient, else 0. -/
def decrementInventory (sku : String) (quantity : Int) : Async Int := do
  match ← inventory.findForUpdate sku with
  | none => return 0
  | some current =>
      if current.quantity < quantity then return 0
      else do
        inventory.update sku fun row => { row with quantity := row.quantity - quantity }
        recordMovement sku (-quantity) .ADJUSTMENT none none false
        return 1

/-- `increment_inventory`. -/
def incrementInventory (sku : String) (quantity : Int) (reason : Option MovementReason)
    (sourceType sourceId : Option String) : Async String := do
  bindParam (storable sku)
  match ← inventory.findForUpdate sku with
  | none => throw (.valueError ("sku not found: " ++ sku))
  | some _ => do
      bindParam (int4 quantity)
      inventory.update sku fun row => { row with quantity := row.quantity + quantity }
      let reason :=
        if reason = some .RESTOCK_AGENT then MovementReason.RESTOCK_AGENT else .RESTOCK_MANUAL
      recordMovement sku quantity reason sourceType sourceId false
      return "OK"

/-- `set_inventory_quantity`. -/
def setInventoryQuantity (sku : String) (quantity : Int) : Async String := do
  match ← inventory.findForUpdate sku with
  | none => throw (.valueError ("sku not found: " ++ sku))
  | some current => do
      let delta := quantity - current.quantity
      inventory.update sku fun row => { row with quantity := quantity }
      if delta ≠ 0 then recordMovement sku delta .ADJUSTMENT none none false else pure ()
      return "OK"

/-- The state that goes with a quantity. -/
def stateOfQuantity (quantity : Int) : InventoryState :=
  if quantity ≤ 0 then .OUT_OF_STOCK
  else if quantity < 5 then .CRITICAL
  else if quantity < 20 then .LOW_STOCK
  else .AVAILABLE

/-- `set_inventory_state`. -/
def setInventoryState (sku : String) : Async String := do
  match ← inventory.findForUpdate sku with
  | none => throw (.valueError ("sku not found: " ++ sku))
  | some current => do
      inventory.update sku fun row => { row with state := stateOfQuantity current.quantity }
      return "OK"

/-- What `reserve_inventory_items` reads of an order item before it looks at
the product: the `sku`, the `qty` and the `product_id`. -/
def itemFields : Json → Except PyError (Json × Int × Json)
  | .obj fields => do
      let qty ← (Json.get fields "qty" (.int 1)).toInt
      return (Json.get fields "sku" .null, qty, Json.get fields "product_id" .null)
  | _ => .ok (.str "", 1, .null)

/-- The `sku` of an order item, or of the product it names. -/
def resolveSku (sku productId : Json) : Async Json :=
  if sku.truthy then return sku
  else if productId.truthy then do
    let id ← ofExcept productId.toUuid
    let product ← Prog.select fun (d : Database) => d.products.find id
    return .str ((product.bind Product.sku).getD "")
  else return sku

/-- Take `qty` pieces of one sku: whether the stock went below zero. -/
def reserveSku (orderId sku : String) (qty : Int) : Async Bool := do
  match ← inventory.findForUpdate sku with
  | none => return false
  | some stock => do
      let belowZero := stock.quantity - qty < 0
      inventory.updateIf (int4 qty) sku fun row => { row with quantity := row.quantity - qty }
      recordMovement sku (-qty) .SALE (some "order") (some orderId) belowZero
      return belowZero

/-- One round of the loop of `reserve_inventory_items`. -/
def reserveItem (orderId : String) (item : Json) : Async Bool := do
  let (sku, qty, productId) ← ofExcept (itemFields item)
  let sku ← resolveSku sku productId
  if sku.truthy then
    match sku with
    | .str sku => reserveSku orderId sku qty
    -- the driver refuses a parameter that is not text
    | _ => throw .dbapiError
  else return false

/-- The loop of `reserve_inventory_items`. -/
def reserveItems (orderId : String) : List Json → Bool → Async Bool
  | [], anyBelowZero => return anyBelowZero
  | item :: rest, anyBelowZero => do
      let belowZero ← reserveItem orderId item
      reserveItems orderId rest (anyBelowZero || belowZero)

/-- `reserve_inventory_items`: 1 when any item went below zero, else 0. -/
def reserveInventoryItems (orderId : String) : Async Int := do
  let id ← ofExcept (uuid orderId)
  match ← Prog.select fun (d : Database) => d.orders.find id with
  | none => throw (.valueError ("order not found: " ++ orderId))
  | some row => do
      let items ← ofExcept row.items.iter
      let anyBelowZero ← reserveItems orderId items false
      return if anyBelowZero then 1 else 0

/-! ## Kitchen tickets -/

/-- `create_kitchen_ticket` and `KitchenRepository.create`: a ticket in `NEW`. -/
def createKitchenTicket (orderId : String) : Async String := do
  let order ← ofExcept (uuid orderId)
  let id ← uuid4
  kitchenTickets.insert (fun d => (d.orders.find order).isSome)
    { id, orderId := order, state := .NEW }
  return id.text

/-! ## Terminal tools -/

/-- `transition_order_state`: validates the state under the row lock. -/
def transitionOrderState (orderId : String) (fromState toState : OrderState) : Async String := do
  let id ← ofExcept (uuid orderId)
  match ← orders.findForUpdate id with
  | none => throw (.valueError ("order not found: " ++ orderId))
  | some row =>
      if row.state ≠ fromState then
        throw (.valueError ("invalid state transition: expected " ++ fromState.value ++
          ", got " ++ row.state.value))
      else do
        orders.update id fun row => { row with state := toState }
        return "OK"

/-- `write_order_state_cooking`: `PAID` or `CONFIRMED` to `COOKING`. -/
def writeOrderStateCooking (orderId ticketId : String) : Async String := do
  let id ← ofExcept (uuid orderId)
  match ← orders.findForUpdate id with
  | none => throw (.valueError ("order not found: " ++ orderId))
  | some row =>
      if row.state ≠ .PAID ∧ row.state ≠ .CONFIRMED then
        throw (.valueError ("invalid state transition: expected PAID or CONFIRMED, got " ++
          row.state.value))
      else do
        orders.update id fun row => { row with state := .COOKING }
        let ticket ← ofExcept (uuid ticketId)
        kitchenTickets.update ticket fun row => { row with orderId := id }
        return "OK"

/-- The four `write_kitchen_state_*` tools: from one state to the next, under
the row lock. -/
def writeKitchenState (ticketId : String) (fromState toState : KitchenState) : Async String := do
  let id ← ofExcept (uuid ticketId)
  match ← kitchenTickets.findForUpdate id with
  | none => throw (.valueError ("ticket not found: " ++ ticketId))
  | some row =>
      if row.state ≠ fromState then
        throw (.valueError ("invalid state transition: expected " ++ fromState.value ++
          ", got " ++ row.state.value))
      else do
        kitchenTickets.update id fun row => { row with state := toState }
        return "OK"

def writeKitchenStateQueued (ticketId : String) : Async String :=
  writeKitchenState ticketId .NEW .QUEUED

def writeKitchenStatePreparing (ticketId : String) : Async String :=
  writeKitchenState ticketId .QUEUED .PREPARING

def writeKitchenStateReady (ticketId : String) : Async String :=
  writeKitchenState ticketId .PREPARING .READY

def writeKitchenStateHandedOff (ticketId : String) : Async String :=
  writeKitchenState ticketId .READY .HANDED_OFF

end Sieshka
