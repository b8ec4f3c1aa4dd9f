import Sieshka.Vm
import Sieshka.Tools.OrderTools

/-!
# The programs and their tools

The programs that `OrderService`, `PaymentService`, `KitchenService` and the
restock agent run, and the tools each of their machines has registered.
-/

namespace Sieshka

open Transactions

/-! ## Orders -/

inductive OrderTool
  | transition_order_state
  | reserve_inventory_items
  | notify_inventory_insufficient
  | create_kitchen_ticket
  | write_order_state_cooking
  | notify_staff_new_kitchen_ticket
deriving DecidableEq

/-- The names an order program uses: context variables, arguments, step ids
and output keys. -/
inductive OrderName
  | order_id
  | from_state
  | to_state
  | ticket_id
  | write_state
  | write_result
  | write_confirmed
  | write_rollback
  | write_cancelled
  | reserve_inventory
  | inventory_result
  | check_inventory_alert
  | notify_inventory_below_zero
  | notify_result
  | create_kitchen_ticket
  | write_cooking_state
  | notify_staff_kitchen_ticket
  | notify_staff_result
deriving DecidableEq

abbrev OrderProgram := Program OrderTool OrderName

/-- A program of one terminal step that writes an order state. -/
def singleTransition (id : OrderName) (fromState toState : Arg OrderName) : OrderProgram :=
  [{ id
     outputKey := .write_result
     action := .tool .transition_order_state
       [(.order_id, .context .order_id), (.from_state, fromState), (.to_state, toState)] none }]

/-- `build_simple_program`. -/
def buildSimpleProgram (fromState toState : OrderState) : OrderProgram :=
  singleTransition .write_state (.value (.state fromState)) (.value (.state toState))

def programConfirm : OrderProgram :=
  singleTransition .write_confirmed (.value (.state .DRAFT)) (.value (.state .CONFIRMED))

def programPaymentFailed : OrderProgram :=
  singleTransition .write_rollback (.value (.state .PAYMENT_PENDING))
    (.value (.state .CONFIRMED))

def programCancel : OrderProgram :=
  singleTransition .write_cancelled (.context .from_state) (.value (.state .CANCELLED))

def programStartCooking : OrderProgram :=
  [{ id := .reserve_inventory
     outputKey := .inventory_result
     action := .tool .reserve_inventory_items [(.order_id, .context .order_id)]
       (some .check_inventory_alert) },
   { id := .check_inventory_alert
     outputKey := .check_inventory_alert
     action := .condition .inventory_result
       (fun v => match v with | .number n => n ≥ 1 | _ => false)
       .notify_inventory_below_zero .create_kitchen_ticket },
   { id := .notify_inventory_below_zero
     outputKey := .notify_result
     action := .tool .notify_inventory_insufficient [(.order_id, .context .order_id)]
       (some .create_kitchen_ticket) },
   { id := .create_kitchen_ticket
     outputKey := .ticket_id
     action := .tool .create_kitchen_ticket [(.order_id, .context .order_id)]
       (some .write_cooking_state) },
   { id := .write_cooking_state
     outputKey := .write_result
     action := .tool .write_order_state_cooking
       [(.order_id, .context .order_id), (.ticket_id, .output .create_kitchen_ticket)]
       (some .notify_staff_kitchen_ticket) },
   { id := .notify_staff_kitchen_ticket
     outputKey := .notify_staff_result
     action := .tool .notify_staff_new_kitchen_ticket
       [(.order_id, .context .order_id), (.ticket_id, .output .create_kitchen_ticket)] none }]

/-- A text argument of a tool. -/
def textArg {Name : Type} [DecidableEq Name] (args : List (Name × Value)) (name : Name) :
    Async String :=
  match lookup args name with
  | some (.text s) => .ret s
  | _ => .raise (.typeError "missing argument")

/-- An order state argument of a tool. -/
def stateArg (args : List (OrderName × Value)) (name : OrderName) : Async OrderState :=
  match lookup args name with
  | some (.state s) => .ret s
  | _ => .raise (.typeError "missing argument")

/-- `_ORDER_TOOLS`, bound to the session. The two `notify_*` tools send messages
and never raise. -/
def orderTools (tool : OrderTool) (args : List (OrderName × Value)) : Async Value := do
  let orderId ← textArg args .order_id
  match tool with
  | .transition_order_state => do
      let fromState ← stateArg args .from_state
      let toState ← stateArg args .to_state
      let ok ← transitionOrderState orderId fromState toState
      return .text ok
  | .reserve_inventory_items => do
      let alert ← reserveInventoryItems orderId
      return .number alert
  | .notify_inventory_insufficient => return .text "NOTIFIED"
  | .create_kitchen_ticket => do
      let ticket ← createKitchenTicket orderId
      return .text ticket
  | .write_order_state_cooking => do
      let ticketId ← textArg args .ticket_id
      let ok ← writeOrderStateCooking orderId ticketId
      return .text ok
  | .notify_staff_new_kitchen_ticket => return .text "NOTIFIED"

/-! ## Kitchen tickets -/

inductive KitchenTool
  | write_kitchen_state_queued
  | write_kitchen_state_preparing
  | write_kitchen_state_ready
  | write_kitchen_state_handed_off
deriving DecidableEq

inductive KitchenName
  | ticket_id
  | write_state
  | write_result
deriving DecidableEq

/-- `EVENT_PROGRAM_MAP` of the kitchen programs. -/
def kitchenProgram (event : KitchenEvent) : Program KitchenTool KitchenName :=
  [{ id := .write_state
     outputKey := .write_result
     action := .tool
       (match event with
        | .QUEUE => .write_kitchen_state_queued
        | .START_PREP => .write_kitchen_state_preparing
        | .MARK_READY => .write_kitchen_state_ready
        | .HAND_OFF => .write_kitchen_state_handed_off)
       [(.ticket_id, .context .ticket_id)] none }]

/-- `_KITCHEN_TOOLS`, bound to the session. -/
def kitchenTools (tool : KitchenTool) (args : List (KitchenName × Value)) : Async Value := do
  let ticketId ← textArg args .ticket_id
  let ok ← match tool with
    | .write_kitchen_state_queued => writeKitchenStateQueued ticketId
    | .write_kitchen_state_preparing => writeKitchenStatePreparing ticketId
    | .write_kitchen_state_ready => writeKitchenStateReady ticketId
    | .write_kitchen_state_handed_off => writeKitchenStateHandedOff ticketId
  return .text ok

/-! ## Restock commands -/

inductive RestockTool
  | validate_apply_restock_command
  | apply_restock_command
  | report_invalid_restock_command
deriving DecidableEq

inductive RestockName
  | command
  | reason
  | validate_command
  | validation_result
  | check_valid
  | apply_command
  | apply_result
  | report_invalid
  | invalid_result
deriving DecidableEq

def programApplyRestock : Program RestockTool RestockName :=
  [{ id := .validate_command
     outputKey := .validation_result
     action := .tool .validate_apply_restock_command [(.command, .context .command)]
       (some .check_valid) },
   { id := .check_valid
     outputKey := .check_valid
     action := .condition .validate_command
       (fun v => match v with | .number n => n < 1 | _ => false)
       .report_invalid .apply_command },
   { id := .apply_command
     outputKey := .apply_result
     action := .tool .apply_restock_command [(.command, .context .command)] none },
   { id := .report_invalid
     outputKey := .invalid_result
     action := .tool .report_invalid_restock_command [(.reason, .output .validate_command)]
       none }]

/-- `_required_apply_fields`: the sku and the quantity of a well-formed command. -/
def requiredApplyFields : Json → Option (String × Int)
  | .obj fields =>
      match Json.get fields "sku" .null, Json.get fields "quantity" .null with
      | .str sku, .int quantity =>
          if strip sku = "" then none
          else if quantity ≤ 0 then none
          else some (strip sku, quantity)
      | _, _ => none
  | _ => none

/-- `validate_apply_restock_command`. -/
def validateApplyRestockCommand (command : Json) : Async Int :=
  match requiredApplyFields command with
  | none => return 0
  | some (sku, _) => do
      bindParam (storable sku)
      let existing ← Prog.select fun (d : Database) => d.inventory.find sku
      return if existing.isSome then 1 else 0

/-- `apply_restock_command`. -/
def applyRestockCommand (command : Json) : Async String :=
  match requiredApplyFields command with
  | none => throw (.valueError "apply_restock_command: malformed command")
  | some (sku, quantity) =>
      incrementInventory sku quantity (some .RESTOCK_AGENT) (some "agent") none

/-- `_APPLY_TOOLS`, bound to the session. -/
def restockTools (tool : RestockTool) (args : List (RestockName × Value)) : Async Value :=
  match tool, lookup args .command with
  | .validate_apply_restock_command, some (.command command) => do
      let valid ← validateApplyRestockCommand command
      return .number valid
  | .apply_restock_command, some (.command command) => do
      let ok ← applyRestockCommand command
      return .text ok
  | .report_invalid_restock_command, _ => return .text "REJECTED"
  | _, _ => throw (.typeError "missing argument")

end Sieshka
