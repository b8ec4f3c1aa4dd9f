import Mathlib.Data.Rat.Floor

/-!
# The cart of the storefront

`CartManager` of `cart.js`: the cart is kept in the local storage, what was deleted last
and a cleared cart that can be brought back are kept by the page. The checkout form of the same
file looks at the phone before it is sent.

## Implementation notes

`JSON.parse(JSON.stringify(items))` is `items`. The history in the local storage, which is
only read when a page loads, and the widgets that show the cart are left out.
-/

namespace Sieshka

namespace Cart

/-- An item of the cart. -/
structure Item where
  productId : String
  priceRub : ℚ
  name : String
  qty : Int
  leadTimeMinutes : Int
deriving DecidableEq

/-- An item of `recentlyDeleted`. -/
structure DeletedItem where
  productId : String
  name : String
  priceRub : ℚ
deriving DecidableEq

/-- The state of a page and of the local storage. -/
structure Page where
  stored : List Item
  recentlyDeleted : List DeletedItem
  clearBackup : Option (List Item)
deriving DecidableEq

/-- Whether a call can read and write the local storage. -/
structure LocalStorage where
  readable : Bool := true
  writable : Bool := true
deriving DecidableEq

/-- What a call returns, and the toast it shows. -/
structure Reply where
  success : Bool
  toast : Option String := none
deriving DecidableEq

def qtyMin : Int := 0

def qtyMax : Int := 20

def maxItems : Int := 50

/-- `normalizeLeadTime`; `none` is what `Number` makes no finite number of. -/
def normalizeLeadTime : Option ℚ → Int
  | some n => if 0 < n then (n + 1 / 2).floor else 0
  | none => 0

/-- `loadCart`. -/
def loadCart (storage : LocalStorage) (page : Page) : List Item :=
  if storage.readable then
    page.stored.map fun item =>
      { item with leadTimeMinutes := normalizeLeadTime (some item.leadTimeMinutes) }
  else []

/-- `saveCart`. -/
def saveCart (storage : LocalStorage) (items : List Item) (page : Page) : Page :=
  if storage.writable then { page with stored := items } else page

/-- The index `findItemIndex` finds, with the item there. -/
def findItem (items : List Item) (productId : String) : Option (Nat × Item) :=
  (items.findIdx? fun item => item.productId = productId).bind fun idx =>
    items[idx]?.map fun item => (idx, item)

/-- `getTotalItems`. -/
def getTotalItems (items : List Item) : Int := (items.map Item.qty).sum

/-- `trackDeleted`. -/
def trackDeleted (item : Item) (page : Page) : Page :=
  let others := page.recentlyDeleted.eraseP fun x => x.productId = item.productId
  let deleted :=
    { productId := item.productId, name := item.name, priceRub := item.priceRub } :: others
  { page with recentlyDeleted := if 3 < deleted.length then deleted.dropLast else deleted }

/-- `_pruneRecentlyDeleted`, which `updateAllUI` begins with. -/
def pruneRecentlyDeleted (storage : LocalStorage) (page : Page) : Page :=
  let cartProductIds := (loadCart storage page).map Item.productId
  { page with
    recentlyDeleted := page.recentlyDeleted.filter fun rd => rd.productId ∉ cartProductIds }

def qtyLimitToast : String := "Достигнут лимит: макс. 20 шт. на товар"

def maxItemsToast : String := "Максимум " ++ toString maxItems ++ " товаров в корзине"

section Calls

variable (storage : LocalStorage) (productId : String)

/-- `addItem`. -/
def addItem (priceRub : ℚ) (name : String) (leadTimeMinutes : Option ℚ) (page : Page) :
    Reply × Page :=
  let items := loadCart storage page
  let totalItems := getTotalItems items
  let normalizedLeadTime := normalizeLeadTime leadTimeMinutes
  match findItem items productId with
  | some (idx, item) =>
      let newQty := item.qty + 1
      if qtyMax < newQty then ({ success := false, toast := some qtyLimitToast }, page)
      else
        let items := items.set idx
          { item with
            qty := newQty
            leadTimeMinutes :=
              max (normalizeLeadTime (some item.leadTimeMinutes)) normalizedLeadTime }
        ({ success := true }, pruneRecentlyDeleted storage (saveCart storage items page))
  | none =>
      if maxItems ≤ totalItems then ({ success := false, toast := some maxItemsToast }, page)
      else
        let items := items ++
          [{ productId, priceRub, name, qty := 1, leadTimeMinutes := normalizedLeadTime }]
        let recentlyDeleted := page.recentlyDeleted.eraseP fun x => x.productId = productId
        ({ success := true },
          pruneRecentlyDeleted storage (saveCart storage items { page with recentlyDeleted }))

/-- `updateQty`. -/
def updateQty (delta : Int) (page : Page) : Reply × Page :=
  let items := loadCart storage page
  match findItem items productId with
  | some (idx, item) =>
      let newQty := item.qty + delta
      if newQty ≤ 0 then
        ({ success := true },
          pruneRecentlyDeleted storage
            (saveCart storage (items.eraseIdx idx) (trackDeleted item page)))
      else if qtyMax < newQty then ({ success := false, toast := some qtyLimitToast }, page)
      else if 0 < delta ∧ maxItems ≤ getTotalItems items then
        ({ success := false, toast := some maxItemsToast }, page)
      else
        ({ success := true },
          pruneRecentlyDeleted storage
            (saveCart storage (items.set idx { item with qty := newQty }) page))
  | none => ({ success := false }, page)

/-- `setQty`; `qty` is what `parseInt` reads, `none` is `NaN`. -/
def setQty (priceRub : ℚ) (name : String) (qty : Option Int) (leadTimeMinutes : Option ℚ)
    (page : Page) : Reply × Page :=
  let qty := max qtyMin (min qtyMax (qty.getD 0))
  let items := loadCart storage page
  let normalizedLeadTime := normalizeLeadTime leadTimeMinutes
  let items :=
    match findItem items productId with
    | some (idx, item) =>
        if qty ≤ 0 then items.eraseIdx idx
        else
          items.set idx
            { item with
              qty
              leadTimeMinutes :=
                max (normalizeLeadTime (some item.leadTimeMinutes)) normalizedLeadTime }
    | none =>
        if qty ≤ 0 then items
        else
          items ++ [{ productId, priceRub, name, qty, leadTimeMinutes := normalizedLeadTime }]
  if maxItems < getTotalItems items then
    ({ success := false, toast := some maxItemsToast }, page)
  else ({ success := true }, pruneRecentlyDeleted storage (saveCart storage items page))

/-- `removeItem`. -/
def removeItem (page : Page) : Reply × Page :=
  let items := loadCart storage page
  match findItem items productId with
  | some (idx, item) =>
      ({ success := true },
        pruneRecentlyDeleted storage
          (saveCart storage (items.eraseIdx idx) (trackDeleted item page)))
  | none => ({ success := false }, page)

/-- `clearCart`. -/
def clearCart (page : Page) : Reply × Page :=
  let items := loadCart storage page
  if items = [] then ({ success := true }, page)
  else
    ({ success := true, toast := some "Корзина очищена" },
      pruneRecentlyDeleted storage (saveCart storage [] { page with clearBackup := some items }))

/-- `undoClearCart`. -/
def undoClearCart (page : Page) : Reply × Page :=
  match page.clearBackup with
  | none => ({ success := false }, page)
  | some items =>
      ({ success := true },
        pruneRecentlyDeleted storage { saveCart storage items page with clearBackup := none })

end Calls

/-- A call of the public interface that changes the cart. -/
inductive Call
  | addItem (productId : String) (priceRub : ℚ) (name : String)
      (leadTimeMinutes : Option ℚ := some 0)
  | updateQty (productId : String) (delta : Int)
  | setQty (productId : String) (priceRub : ℚ) (name : String) (qty : Option Int)
      (leadTimeMinutes : Option ℚ := some 0)
  | removeItem (productId : String)
  | clearCart
  | undoClearCart
deriving DecidableEq

/-- A call of the page. -/
def Call.run (storage : LocalStorage) : Call → Page → Reply × Page
  | addItem productId priceRub name leadTimeMinutes =>
      Cart.addItem storage productId priceRub name leadTimeMinutes
  | updateQty productId delta => Cart.updateQty storage productId delta
  | setQty productId priceRub name qty leadTimeMinutes =>
      Cart.setQty storage productId priceRub name qty leadTimeMinutes
  | removeItem productId => Cart.removeItem storage productId
  | clearCart => Cart.clearCart storage
  | undoClearCart => Cart.undoClearCart storage

/-- What happens to a page: a call, or the end of the five seconds in which a cleared cart
can be brought back. -/
inductive Event
  | call (storage : LocalStorage) (call : Call)
  | backupExpires
deriving DecidableEq

/-- The page after an event. -/
def Page.step (page : Page) : Event → Page
  | .call storage call => (call.run storage page).2
  | .backupExpires => { page with clearBackup := none }

/-- A page that opens on an empty cart. -/
def Page.empty (recentlyDeleted : List DeletedItem) : Page where
  stored := []
  recentlyDeleted
  clearBackup := none

end Cart

/-! ## The checkout form -/

/-- `validatePhone`; the digits of a browser are those of ASCII. -/
def validatePhone (phone : String) : Bool :=
  match phone.toList.filter Char.isDigit with
  | c :: rest => (c = '7' ∨ c = '8') ∧ rest.length = 10
  | [] => false

end Sieshka
