import Sieshka.Refreshes
import Sieshka.Services.Checkout
import Sieshka.Transactions.Serial
import Sieshka.Web.Cart

/-!
# The checkout page

The part of `checkout.html` and `cart.js` that shows what an order will cost: the cart, the
delivery mode, the zone and the promo code, the totals and the request that is sent in the end.

## Implementation notes

The handlers of the page run one at a time, and a handler that waits for an answer lets others
run. So `updateAllUI` is in two places here: before `updateCheckoutTotal` has read the page, and
in `updateCheckoutTotal` where it waits for a fee. In between anything may happen, and updates
that wait go on in any order. What the totals show is the number that `formatPrice` writes.

The contact fields and their checks, the other widgets and the texts beside the totals are left
out. A call of the cart may fail to read or write the local storage; the totals and the form
can read it.
-/

namespace Sieshka

open Transactions

deriving instance DecidableEq for CheckoutItem, CheckoutRequest

/-! ## The routes the page asks -/

/-- `PromoCheckResponse`. -/
structure PromoCheckResponse where
  valid : Bool
  discountRub : Int := 0
  freeDelivery : Bool := false
deriving DecidableEq

/-- `check_promo_code`. -/
def checkPromoCode (cfg : Settings) (code : String) (subtotal : Int) :
    Async PromoCheckResponse := do
  match ← Prog.withSession (resolvePromoEffect cfg (some code) subtotal) with
  | none => return { valid := false }
  | some effect => return { valid := true
                            discountRub := effect.discountRub
                            freeDelivery := effect.freeDelivery }

/-- `MenuService.get_delivery_fee`. -/
def getDeliveryFee (cfg : Settings) (zoneId : Option Uuid) : Async Int :=
  match zoneId with
  | none => return cfg.deliveryFee
  | some zoneId => do
      let row ← Prog.withSession (Prog.select fun (d : Database) => d.deliveryZones.find zoneId)
      return (row.map DeliveryZone.deliveryFeeRub).getD cfg.deliveryFee

/-! ## The page -/

/-- `appliedPromo`. -/
structure AppliedPromo where
  code : String
  discountRub : Int
  freeDelivery : Bool
deriving DecidableEq

/-- What `updateCheckoutTotal` reads of the page: the goods less the discount, and the zone
whose fee it needs. -/
structure Reading where
  goods : ℚ
  zoneId : Option Uuid
deriving DecidableEq

/-- An `updateAllUI` that is under way. -/
inductive Update
  /-- before `updateCheckoutTotal` -/
  | widgets
  /-- in `updateCheckoutTotal`, at the fee of a zone, which was in the cache or was not -/
  | fee (goods : ℚ) (zoneId : Uuid) (cached : Option Int)
deriving DecidableEq

/-- The page. -/
structure CheckoutPage where
  cart : Cart.Page
  /-- `#delivery_pickup` is checked -/
  isPickup : Bool
  /-- the value of `#f-zone` -/
  zoneId : Option Uuid
  /-- the text in `#promo-code-input` -/
  codeInput : String := ""
  /-- the value of `#f-promo-code` -/
  promoCode : String := ""
  appliedPromo : Option AppliedPromo := none
  /-- the code and the subtotal of the check that waits for its answer -/
  checking : Option (String × ℚ) := none
  zoneDeliveryFeeCache : List (Uuid × Int) := []
  updates : List Update := []
  /-- the number in `#checkoutGrandTotal` -/
  grandTotal : Option Int := none
deriving DecidableEq

/-- `getTotalPrice`. -/
def Cart.getTotalPrice (items : List Cart.Item) : ℚ :=
  (items.map fun item => item.priceRub * (item.qty : ℚ)).sum

/-- An item of the request, as `CheckoutItem` reads it. -/
def Cart.Item.ordered (item : Cart.Item) : Option CheckoutItem :=
  match uuid item.productId with
  | .ok productId =>
      if h : 0 < item.qty then some { productId, qty := item.qty, qty_pos := h } else none
  | .error _ => none

/-- `Math.round`. -/
def mathRound (q : ℚ) : Int := (q + 1 / 2).floor

/-- `String.prototype.trim`. -/
def trim (s : String) : String :=
  String.ofList (stripChars (fun c =>
    c.toNat ∈ [0x9, 0xA, 0xB, 0xC, 0xD, 0x20, 0xA0, 0x1680, 0x2028, 0x2029, 0x202F, 0x205F, 0x3000,
        0xFEFF] ∨ 0x2000 ≤ c.toNat ∧ c.toNat ≤ 0x200A) s.toList)

namespace CheckoutPage

variable (page : CheckoutPage)

/-- `getTotalPrice(loadCart())`. -/
def subtotal : ℚ := Cart.getTotalPrice (Cart.loadCart {} page.cart)

/-- The goods less the discount, and the zone whose fee is needed. -/
def reading : Reading where
  goods :=
    let discountRub := match page.appliedPromo with
      | some promo => min (promo.discountRub : ℚ) page.subtotal
      | none => 0
    max 0 (page.subtotal - discountRub)
  zoneId :=
    if page.isPickup then none
    else if page.appliedPromo.any AppliedPromo.freeDelivery then none
    else page.zoneId

/-- `updateAllUI` is called. -/
def updateAllUI : CheckoutPage := { page with updates := page.updates ++ [.widgets] }

/-- `clearAppliedPromo`. -/
def clearAppliedPromo : CheckoutPage :=
  { page with appliedPromo := none, promoCode := "" }.updateAllUI

/-- `setupCheckoutForm`: the request the form sends. The fields that have no part in the totals
are those of `form`. -/
def request (form : CheckoutRequest) : Option CheckoutRequest :=
  let items := Cart.loadCart {} page.cart
  if items = [] ∨ page.isPickup = false ∧ page.zoneId = none then none
  else (items.mapM Cart.Item.ordered).map fun items =>
    { form with
      items
      address := if page.isPickup then none else form.address
      deliveryMode := if page.isPickup then "pickup" else "delivery"
      zoneId := page.zoneId
      promoCode := nonEmpty page.promoCode }

end CheckoutPage

/-- A call of the cart gets as far as `updateAllUI`. -/
def Cart.Call.updatesUI (storage : Cart.LocalStorage) (page : Cart.Page) (call : Cart.Call) :
    Bool :=
  (call.run storage page).1.success &&
    !(call = .clearCart && Cart.loadCart storage page = [])

/-- What happens on the page. -/
inductive PageEvent
  | cart (event : Cart.Event)
  /-- a radio button of `delivery_mode` -/
  | chooseMode (isPickup : Bool)
  | chooseZone (zoneId : Option Uuid)
  /-- typing in `#promo-code-input` -/
  | typeCode (text : String)
  /-- `#promo-apply-btn` -/
  | applyCode
  /-- the answer of `/api/promo/check` -/
  | checked
  /-- `updateAllUI` or `updateCheckoutTotal` is called for another reason -/
  | refresh
  /-- another widget loads the fee of a zone -/
  | widgetFee (zoneId : Uuid)
  /-- the update at `i` goes on -/
  | resume (i : ℕ)
deriving DecidableEq

section Steps

variable (cfg : Settings) (E₀ : Engine Database Write) (d : Database) (m : Memory)

/-- What a route answers on the database. -/
def answer {α : Type} (p : Async α) : Except PyError α := (p.serial E₀ (.start d m)).1

/-- What `/api/promo/check` answers; `subtotal` is declared `int`. -/
def promoAnswer (code : String) (subtotal : ℚ) : Option PromoCheckResponse :=
  if subtotal.isInt then (answer E₀ d m (checkPromoCode cfg code subtotal.num)).toOption else none

/-- The fee that `loadDeliveryFee` loads. -/
def loadedFee (zoneId : Uuid) : Int :=
  match answer E₀ d m (getDeliveryFee cfg (some zoneId)) with
  | .ok fee => fee
  | .error _ => 0

namespace CheckoutPage

variable (page : CheckoutPage)

/-- `loadDeliveryFee`. -/
def loadDeliveryFee (zoneId : Uuid) : CheckoutPage :=
  { page with
    zoneDeliveryFeeCache :=
      (zoneId, loadedFee cfg E₀ d m zoneId) :: page.zoneDeliveryFeeCache }

/-- The end of `updateCheckoutTotal`. -/
def display (goods : ℚ) (effectiveFee : Int) : CheckoutPage :=
  { page with grandTotal := some (mathRound (goods + effectiveFee)) }

/-- An update goes on until it waits or is over. -/
def resume (i : ℕ) : CheckoutPage :=
  match page.updates[i]? with
  | none => page
  | some .widgets =>
      match page.reading.zoneId with
      | none => { page.display page.reading.goods 0 with updates := page.updates.eraseIdx i }
      | some zoneId =>
          { page with
            updates := page.updates.set i
              (.fee page.reading.goods zoneId (page.zoneDeliveryFeeCache.lookup zoneId)) }
  | some (.fee goods _ (some fee)) =>
      { page.display goods fee with updates := page.updates.eraseIdx i }
  | some (.fee goods zoneId none) =>
      { (page.loadDeliveryFee cfg E₀ d m zoneId).display goods (loadedFee cfg E₀ d m zoneId) with
        updates := page.updates.eraseIdx i }

/-- The answer of `/api/promo/check` arrives. -/
def promoChecked : CheckoutPage :=
  match page.checking with
  | none => page
  | some (code, subtotal) =>
      let page := { page with checking := none }
      match promoAnswer cfg E₀ d m code subtotal with
      | some { valid := true, discountRub, freeDelivery } =>
          { page with
            appliedPromo := some { code, discountRub, freeDelivery }
            promoCode := code }.updateAllUI
      | _ => page.clearAppliedPromo.updateAllUI

/-- The page after an event. -/
def step : PageEvent → CheckoutPage
  | .cart (.call storage call) =>
      let page' := { page with cart := (call.run storage page.cart).2 }
      if call.updatesUI storage page.cart then page'.updateAllUI else page'
  | .cart .backupExpires => { page with cart := page.cart.step .backupExpires }
  | .chooseMode isPickup => { page with isPickup }.updateAllUI
  | .chooseZone zoneId => { page with zoneId }.updateAllUI
  | .typeCode text => { page with codeInput := text }.clearAppliedPromo
  | .applyCode =>
      let code := trim page.codeInput
      if page.checking.isSome ∨ code = "" then page
      else { page with checking := some (code, page.subtotal) }
  | .checked => page.promoChecked cfg E₀ d m
  | .refresh => page.updateAllUI
  | .widgetFee zoneId => page.loadDeliveryFee cfg E₀ d m zoneId
  | .resume i => page.resume cfg E₀ d m i

/-- A page that opens on a cart: no code is applied, and the totals are on their way. -/
def opened (cart : Cart.Page) (isPickup : Bool) (zoneId : Option Uuid) : CheckoutPage where
  cart
  isPickup
  zoneId
  updates := [.widgets, .widgets]

end CheckoutPage

end Steps

end Sieshka
