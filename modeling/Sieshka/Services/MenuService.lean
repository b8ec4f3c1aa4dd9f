import Sieshka.Storefront

/-!
# The menu service

What the storefront shows: the categories of the current period and the method, with
their products and whether each can be ordered.

## Implementation notes

The queries of one request are answered from one catalog. Rows that a query leaves in
no order come in the order of their insertion.
-/

namespace Sieshka.MenuService

open Transactions

/-- `_current_menu_period` at the local time `now`; `morningEndHour` is the setting
`MENU_MORNING_END_HOUR`. -/
def currentMenuPeriod (morningEndHour : Int) (now : PyTime) : SchedulePeriod :=
  if (now.hour : Int) < morningEndHour then .morning else .evening

/-- `_fetch_categories`. -/
def fetchCategories (currentPeriod : SchedulePeriod) (method : FulfillmentMethod) (d : Catalog) :
    List Category :=
  let rows := d.categories.filter fun row => row.isActive &&
    (row.timePeriod = .both || row.timePeriod = currentPeriod.timePeriod) &&
    (row.fulfillmentScope = .both || row.fulfillmentScope = method.scope)
  rows.mergeSort fun a b => a.sort ≤ b.sort

/-- The row of `_fetch_products` as an item of the menu. -/
def menuItem (currentPeriod : SchedulePeriod) (categoryPeriod : TimePeriod)
    (row : MenuProduct × Option Inventory) : MenuProductItem :=
  let effectivePeriod := row.1.timePeriodOverride.getD categoryPeriod
  let inWindow : Bool := effectivePeriod = .both || effectivePeriod = currentPeriod.timePeriod
  let verdict : Bool × CtaType × Option ReasonCode :=
    if !row.1.isActive then (false, .unavailable, some .INACTIVE)
    else if !inWindow then (false, .unavailable, some .OUTSIDE_WINDOW)
    -- a sku that is not in stock at all never blocks an order
    else if row.2.any fun stock => stock.quantity ≤ 0 then
      (false, .out_of_stock, some .OUT_OF_STOCK)
    else (true, .add_to_cart, none)
  { productId := row.1.id
    name := row.1.name
    priceRub := row.1.priceRub
    imageUrl := row.1.imageUrl
    description := row.1.description
    available := verdict.1
    ctaType := verdict.2.1
    reasonCode := verdict.2.2 }

/-- `ORDER BY p.sort, p.name`, with the order of texts of the server. -/
def inMenuOrder (textLe : String → String → Bool) (a b : MenuProduct × Option Inventory) : Bool :=
  a.1.sort < b.1.sort || (a.1.sort = b.1.sort && textLe a.1.name b.1.name)

/-- `_fetch_products`. -/
def fetchProducts (textLe : String → String → Bool) (categoryId : Uuid)
    (currentPeriod : SchedulePeriod) (categoryPeriod : TimePeriod) (d : Catalog) :
    List MenuProductItem :=
  let rows := leftJoin (fun p inv => p.sku = some inv.sku) d.products.rows d.inventory.rows
  let rows := rows.filter fun row => row.1.categoryId = some categoryId && row.1.priceRub.isSome
  (rows.mergeSort (inMenuOrder textLe)).map (menuItem currentPeriod categoryPeriod)

/-- `get_menu`. -/
def getMenu (textLe : String → String → Bool) (currentPeriod : SchedulePeriod)
    (method : FulfillmentMethod) (d : Catalog) : List MenuCategory :=
  (fetchCategories currentPeriod method d).map fun cat =>
    { categoryId := cat.id
      name := cat.name
      products := fetchProducts textLe cat.id currentPeriod cat.timePeriod d }

/-- The current name and price of a product, whatever else its row says. -/
def productSnapshot (row : Product) : MenuProductItem where
  productId := row.id
  name := row.name
  priceRub := row.priceRub
  available := true
  ctaType := .add_to_cart
  reasonCode := none

/-- `get_product_snapshot`. -/
def getProductSnapshot (productId : Uuid) : Async (Option MenuProductItem) :=
  Prog.withSession
    (Prog.select fun (d : Database) => (d.products.find productId).map productSnapshot)

/-- `get_delivery_zones`. -/
def getDeliveryZones (d : Catalog) : List Zone :=
  (d.zones.filter Zone.isActive).mergeSort fun a b =>
    a.deliveryTimeMinutes ≤ b.deliveryTimeMinutes

end Sieshka.MenuService
