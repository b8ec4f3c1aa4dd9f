import Sieshka.Python.Values
import Sieshka.Domains

/-!
# The database

The rows of the tables the services read and write, the database as a row
store, and one schema for each table that is written.

## Implementation notes

A table is keyed by its primary key, except `inventory` (by its unique `sku`)
and `customers` (by its unique `phone`). Products, promotions and delivery
zones are reference data that no modelled call writes. A column too small for
the value written to it is one of the ways the database can refuse a statement.
-/

namespace Sieshka

open Transactions

structure Order where
  id : Uuid
  customerId : Uuid
  state : OrderState
  items : Json
  deliveryAddress : String
  deliveryMode : Option String
  zoneId : Option Uuid
  comment : Option String
  clientMaxUid : Option Int
  clientZaloUid : Option String
  clientTelegramUid : Option Int
  totalRub : Option Int
  paymentMethod : Option String
  promoCode : Option String
  discountRub : Int
  traceId : Option String

structure Payment where
  id : Uuid
  orderId : Uuid
  providerId : Option String
  amount : ℚ
  currency : String
  state : PaymentState
deriving DecidableEq

structure IdempotencyKey where
  key : String
  payload : Json

structure KitchenTicket where
  id : Uuid
  orderId : Uuid
  state : KitchenState
deriving DecidableEq

structure Inventory where
  sku : String
  name : String
  quantity : Int
  state : InventoryState
deriving DecidableEq

structure InventoryMovement where
  id : Uuid
  sku : String
  delta : Int
  reason : MovementReason
  sourceType : Option String
  sourceId : Option String
  belowZero : Bool
deriving DecidableEq

structure Customer where
  id : Uuid
  name : String
  phone : String
deriving DecidableEq

structure Product where
  id : Uuid
  name : String
  priceRub : Option Int
  sku : Option String
  isActive : Bool
deriving DecidableEq

/-- A row of `promotions`; a discount that is `NaN` is `none`. -/
structure Promotion where
  id : Uuid
  discount : Option ℚ
  effectType : EffectType
  triggerCode : Option String
  state : String
deriving DecidableEq

structure DeliveryZone where
  id : Uuid
  deliveryFeeRub : Int
deriving DecidableEq

structure StaffMember where
  id : Uuid
  role : StaffRole
  maxUserId : Option Int
  zaloUserId : Option String
  active : Bool
deriving DecidableEq

structure Database where
  orders : Table Order.id
  payments : Table Payment.id
  idempotencyKeys : Table IdempotencyKey.key
  kitchenTickets : Table KitchenTicket.id
  inventory : Table Inventory.sku
  inventoryMovements : Table InventoryMovement.id
  customers : Table Customer.phone
  products : Table Product.id
  promotions : List Promotion
  deliveryZones : Table DeliveryZone.id
  staff : Table StaffMember.id

/-- A row that can be locked. -/
inductive Lock
  | order (id : Uuid)
  | payment (id : Uuid)
  | idempotencyKey (key : String)
  | kitchenTicket (id : Uuid)
  | inventory (sku : String)
  | inventoryMovement (id : Uuid)
  | customer (phone : String)
  | staff (id : Uuid)
deriving DecidableEq

/-- A row version that a session has written. -/
inductive Write
  | order (row : Order)
  | payment (row : Payment)
  | idempotencyKey (row : IdempotencyKey)
  | kitchenTicket (row : KitchenTicket)
  | inventory (row : Inventory)
  | inventoryMovement (row : InventoryMovement)
  | customer (row : Customer)
  | staff (row : StaffMember)

/-- The row a write goes to. -/
def Write.lock : Write → Lock
  | order row => .order row.id
  | payment row => .payment row.id
  | idempotencyKey row => .idempotencyKey row.key
  | kitchenTicket row => .kitchenTicket row.id
  | inventory row => .inventory row.sku
  | inventoryMovement row => .inventoryMovement row.id
  | customer row => .customer row.phone
  | staff row => .staff row.id

namespace Database

/-- The type of what a lockable row holds. -/
def Cell : Lock → Type
  | .order _ => Option Order
  | .payment _ => Option Payment
  | .idempotencyKey _ => Option IdempotencyKey
  | .kitchenTicket _ => Option KitchenTicket
  | .inventory _ => Option Inventory
  | .inventoryMovement _ => Option InventoryMovement
  | .customer _ => Option Customer
  | .staff _ => Option StaffMember

/-- The content of a row. -/
def get : (l : Lock) → Database → Cell l
  | .order id, d => d.orders.find id
  | .payment id, d => d.payments.find id
  | .idempotencyKey key, d => d.idempotencyKeys.find key
  | .kitchenTicket id, d => d.kitchenTickets.find id
  | .inventory sku, d => d.inventory.find sku
  | .inventoryMovement id, d => d.inventoryMovements.find id
  | .customer phone, d => d.customers.find phone
  | .staff id, d => d.staff.find id

/-- The database after a write. -/
def put (d : Database) : Write → Database
  | .order row => { d with orders := d.orders.put row }
  | .payment row => { d with payments := d.payments.put row }
  | .idempotencyKey row => { d with idempotencyKeys := d.idempotencyKeys.put row }
  | .kitchenTicket row => { d with kitchenTickets := d.kitchenTickets.put row }
  | .inventory row => { d with inventory := d.inventory.put row }
  | .inventoryMovement row => { d with inventoryMovements := d.inventoryMovements.put row }
  | .customer row => { d with customers := d.customers.put row }
  | .staff row => { d with staff := d.staff.put row }

theorem get_put_self (d d' : Database) (w : Write) :
    get w.lock (put d w) = get w.lock (put d' w) := by
  cases w <;> exact (Table.find_put_self _ _).trans (Table.find_put_self _ _).symm

theorem get_put_of_ne (d : Database) (w : Write) (l : Lock) (h : l ≠ w.lock) :
    get l (put d w) = get l d := by
  cases w <;> cases l <;>
    first
    | rfl
    | exact Table.find_put_of_ne _ fun he => h (congrArg _ he.symm)

instance : RowStore Database Write Lock where
  Cell := Cell
  get := get
  put := put
  row := Write.lock
  get_put_self := get_put_self
  get_put_of_ne := get_put_of_ne

end Database

def orders : Schema Database Order.id where
  table := Database.orders
  lock := .order
  write := .order
  row_write _ := rfl
  table_put _ _ := rfl
  find_congr _ _ _ h := h

def payments : Schema Database Payment.id where
  table := Database.payments
  lock := .payment
  write := .payment
  row_write _ := rfl
  table_put _ _ := rfl
  find_congr _ _ _ h := h

def idempotencyKeys : Schema Database IdempotencyKey.key where
  table := Database.idempotencyKeys
  lock := .idempotencyKey
  write := .idempotencyKey
  row_write _ := rfl
  table_put _ _ := rfl
  find_congr _ _ _ h := h

def kitchenTickets : Schema Database KitchenTicket.id where
  table := Database.kitchenTickets
  lock := .kitchenTicket
  write := .kitchenTicket
  row_write _ := rfl
  table_put _ _ := rfl
  find_congr _ _ _ h := h

def inventory : Schema Database Inventory.sku where
  table := Database.inventory
  lock := .inventory
  write := .inventory
  row_write _ := rfl
  table_put _ _ := rfl
  find_congr _ _ _ h := h

def inventoryMovements : Schema Database InventoryMovement.id where
  table := Database.inventoryMovements
  lock := .inventoryMovement
  write := .inventoryMovement
  row_write _ := rfl
  table_put _ _ := rfl
  find_congr _ _ _ h := h

def customers : Schema Database Customer.phone where
  table := Database.customers
  lock := .customer
  write := .customer
  row_write _ := rfl
  table_put _ _ := rfl
  find_congr _ _ _ h := h

end Sieshka
