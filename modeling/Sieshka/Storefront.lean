import Sieshka.Menu
import Sieshka.Schedule
import Sieshka.World
import Sieshka.Zones

/-!
# The storefront's view of the database

The tables a customer's page is built from, read at one moment.
-/

namespace Sieshka

open Transactions

structure Catalog where
  categories : Table Category.id
  products : Table MenuProduct.id
  inventory : Table Inventory.sku
  zones : Table Zone.id

/-- The method of a request. -/
inductive FulfillmentMethod
  | delivery
  | pickup
deriving DecidableEq, Repr

/-- The scope a method falls into. -/
def FulfillmentMethod.scope : FulfillmentMethod → FulfillmentScope
  | delivery => .delivery
  | pickup => .pickup

/-- The time of day as a `time_period`. -/
def SchedulePeriod.timePeriod : SchedulePeriod → TimePeriod
  | morning => .morning
  | evening => .evening

inductive CtaType
  | unavailable
  | out_of_stock
  | add_to_cart
deriving DecidableEq, Repr

inductive ReasonCode
  | INACTIVE
  | OUTSIDE_WINDOW
  | OUT_OF_STOCK
deriving DecidableEq, Repr

/-- `MenuProductItem`, without the fields that are always `None`. -/
structure MenuProductItem where
  productId : Uuid
  name : String
  priceRub : Option Int
  imageUrl : Option String := none
  description : Option String := none
  available : Bool
  ctaType : CtaType
  reasonCode : Option ReasonCode
deriving DecidableEq

structure MenuCategory where
  categoryId : Uuid
  name : String
  products : List MenuProductItem
deriving DecidableEq

end Sieshka
