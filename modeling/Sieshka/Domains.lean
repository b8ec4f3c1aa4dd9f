import Mathlib.Data.List.Basic

/-!
# States and events

The enumerations of the order, payment, kitchen, inventory and staff domains
and the transition graphs of orders and kitchen tickets.
-/

namespace Sieshka

inductive OrderState
  | DRAFT
  | CONFIRMED
  | PAYMENT_PENDING
  | PAID
  | COOKING
  | PACKING
  | COURIER_ASSIGNED
  | DELIVERING
  | DELIVERED
  | CLOSED
  | CANCELLED
deriving DecidableEq, Repr

inductive OrderEvent
  | CONFIRM
  | REQUEST_PAYMENT
  | PAYMENT_CONFIRMED
  | PAYMENT_FAILED
  | START_COOKING
  | START_PACKING
  | ASSIGN_COURIER
  | PICKUP
  | DELIVER
  | CLOSE
  | CANCEL
deriving DecidableEq, Repr

/-- The `.value` of a state. -/
def OrderState.value : OrderState → String
  | DRAFT => "DRAFT"
  | CONFIRMED => "CONFIRMED"
  | PAYMENT_PENDING => "PAYMENT_PENDING"
  | PAID => "PAID"
  | COOKING => "COOKING"
  | PACKING => "PACKING"
  | COURIER_ASSIGNED => "COURIER_ASSIGNED"
  | DELIVERING => "DELIVERING"
  | DELIVERED => "DELIVERED"
  | CLOSED => "CLOSED"
  | CANCELLED => "CANCELLED"

/-- The `.value` of an event. -/
def OrderEvent.value : OrderEvent → String
  | CONFIRM => "CONFIRM"
  | REQUEST_PAYMENT => "REQUEST_PAYMENT"
  | PAYMENT_CONFIRMED => "PAYMENT_CONFIRMED"
  | PAYMENT_FAILED => "PAYMENT_FAILED"
  | START_COOKING => "START_COOKING"
  | START_PACKING => "START_PACKING"
  | ASSIGN_COURIER => "ASSIGN_COURIER"
  | PICKUP => "PICKUP"
  | DELIVER => "DELIVER"
  | CLOSE => "CLOSE"
  | CANCEL => "CANCEL"

/-- Every `OrderEvent`. -/
def OrderEvent.all : List OrderEvent :=
  [.CONFIRM, .REQUEST_PAYMENT, .PAYMENT_CONFIRMED, .PAYMENT_FAILED, .START_COOKING,
    .START_PACKING, .ASSIGN_COURIER, .PICKUP, .DELIVER, .CLOSE, .CANCEL]

/-- `OrderEvent(text)`; `none` is a `ValueError`. -/
def OrderEvent.ofValue (text : String) : Option OrderEvent :=
  OrderEvent.all.find? fun e => e.value = text

/-- `ORDER_TRANSITIONS[state].get(event)`. -/
def orderTransitions : OrderState → OrderEvent → Option OrderState
  | .DRAFT, .CONFIRM => some .CONFIRMED
  | .DRAFT, .CANCEL => some .CANCELLED
  | .CONFIRMED, .REQUEST_PAYMENT => some .PAYMENT_PENDING
  | .CONFIRMED, .START_COOKING => some .COOKING
  | .CONFIRMED, .CANCEL => some .CANCELLED
  | .PAYMENT_PENDING, .PAYMENT_CONFIRMED => some .PAID
  | .PAYMENT_PENDING, .PAYMENT_FAILED => some .CONFIRMED
  | .PAYMENT_PENDING, .CANCEL => some .CANCELLED
  | .PAID, .START_COOKING => some .COOKING
  | .PAID, .CANCEL => some .CANCELLED
  | .COOKING, .START_PACKING => some .PACKING
  | .PACKING, .ASSIGN_COURIER => some .COURIER_ASSIGNED
  | .PACKING, .CLOSE => some .CLOSED
  | .COURIER_ASSIGNED, .PICKUP => some .DELIVERING
  | .DELIVERING, .DELIVER => some .DELIVERED
  | .DELIVERED, .CLOSE => some .CLOSED
  | _, _ => none

/-- One edge of the order graph. -/
def OrderEdge (s s' : OrderState) : Prop := ∃ e, orderTransitions s e = some s'

instance (s s' : OrderState) : Decidable (OrderEdge s s') :=
  decidable_of_iff (∃ e ∈ OrderEvent.all, orderTransitions s e = some s')
    ⟨fun ⟨e, _, h⟩ => ⟨e, h⟩, fun ⟨e, h⟩ => ⟨e, by cases e <;> decide, h⟩⟩

inductive PaymentState
  | PENDING
  | SUCCESS
  | FAILED
deriving DecidableEq, Repr

inductive KitchenState
  | NEW
  | QUEUED
  | PREPARING
  | READY
  | HANDED_OFF
deriving DecidableEq, Repr

inductive KitchenEvent
  | QUEUE
  | START_PREP
  | MARK_READY
  | HAND_OFF
deriving DecidableEq, Repr

/-- The `.value` of a kitchen state. -/
def KitchenState.value : KitchenState → String
  | NEW => "NEW"
  | QUEUED => "QUEUED"
  | PREPARING => "PREPARING"
  | READY => "READY"
  | HANDED_OFF => "HANDED_OFF"

/-- The `.value` of a kitchen event. -/
def KitchenEvent.value : KitchenEvent → String
  | QUEUE => "QUEUE"
  | START_PREP => "START_PREP"
  | MARK_READY => "MARK_READY"
  | HAND_OFF => "HAND_OFF"

/-- `KitchenEvent(text)`; `none` is a `ValueError`. -/
def KitchenEvent.ofValue (text : String) : Option KitchenEvent :=
  [QUEUE, START_PREP, MARK_READY, HAND_OFF].find? fun e => e.value = text

/-- `KITCHEN_TRANSITIONS[state].get(event)`. -/
def kitchenTransitions : KitchenState → KitchenEvent → Option KitchenState
  | .NEW, .QUEUE => some .QUEUED
  | .QUEUED, .START_PREP => some .PREPARING
  | .PREPARING, .MARK_READY => some .READY
  | .READY, .HAND_OFF => some .HANDED_OFF
  | _, _ => none

inductive InventoryState
  | AVAILABLE
  | LOW_STOCK
  | CRITICAL
  | OUT_OF_STOCK
deriving DecidableEq, Repr

inductive MovementReason
  | RESTOCK_MANUAL
  | RESTOCK_AGENT
  | SALE
  | ADJUSTMENT
  | SYNC_INIT
deriving DecidableEq, Repr

/-- The text of a reason in its column. -/
def MovementReason.value : MovementReason → String
  | RESTOCK_MANUAL => "RESTOCK_MANUAL"
  | RESTOCK_AGENT => "RESTOCK_AGENT"
  | SALE => "SALE"
  | ADJUSTMENT => "ADJUSTMENT"
  | SYNC_INIT => "SYNC_INIT"

inductive EffectType
  | PERCENT_DISCOUNT
  | FIXED_AMOUNT
  | FREE_DELIVERY
deriving DecidableEq, Repr

inductive StaffRole
  | kitchen
  | courier
  | admin
  | staff
deriving DecidableEq, Repr

/-- `TransitionResult`: what a transition did, or why it was rejected. -/
structure TransitionResult (State Event : Type) where
  success : Bool
  newState : Option State := none
  rejectedEvent : Option Event := none
  reason : Option String := none

end Sieshka
