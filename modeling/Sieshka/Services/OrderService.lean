import Sieshka.Programs
import Sieshka.Services.MenuService

/-!
# OrderService

Transitions of orders through the programs, and the creation of an order from
a checkout.

## Implementation notes

`PolicyProvider.can_transition` always allows, and every program of the
repository passes `ProgramValidator`. Messages to staff and customers are left
out: they are sent after the commit and never raise. So is `created_at`, which
orders the rows a list is read from.
-/

namespace Sieshka

open Transactions

abbrev OrderResult := TransitionResult OrderState OrderEvent

/-- `repr()` of a member of an enumeration of texts, which has its value for its name. -/
def memberRepr (enumeration value : String) : String :=
  "<" ++ enumeration ++ "." ++ value ++ ": '" ++ value ++ "'>"

/-- The reason of a rejection by the transition graph of a domain. -/
def notAllowed (domain event state : String) : String :=
  "Event " ++ memberRepr (domain ++ "Event") event ++ " not allowed from state " ++
    memberRepr (domain ++ "State") state

/-- A transition that did not happen. -/
def rejected {State Event : Type} (event : Option Event) (reason : String) :
    TransitionResult State Event where
  success := false
  rejectedEvent := event
  reason := some reason

/-- A transition that happened. -/
def transitioned {State Event : Type} (newState : State) : TransitionResult State Event where
  success := true
  newState := some newState

/-- `Result.scalar_one` and `Result.one`. -/
def oneRow {α : Type} : List α → Except PyError α
  | [] => .error .noResultFound
  | [row] => .ok row
  | _ => .error .multipleResultsFound

/-- `OrderRepository.get_state`. -/
def orderState (orderId : String) : Async OrderState := do
  let id ← ofExcept (uuid orderId)
  match ← orders.find id with
  | none => throw .noResultFound
  | some row => return row.state

/-- `OrderService._select_program`. -/
def selectProgram (event : OrderEvent) (currentState newState : OrderState) : OrderProgram :=
  match event with
  | .START_COOKING => programStartCooking
  | .REQUEST_PAYMENT => buildSimpleProgram currentState newState
  | .PAYMENT_CONFIRMED => buildSimpleProgram currentState newState
  | .CONFIRM => programConfirm
  | .PAYMENT_FAILED => programPaymentFailed
  | .CANCEL => programCancel
  | _ => buildSimpleProgram currentState newState

/-- The context a program is run with. -/
def transitionContext (orderId : String) (event : OrderEvent) (currentState : OrderState) :
    List (OrderName × Value) :=
  if event = .CANCEL then
    [(.order_id, .text orderId), (.from_state, .state currentState)]
  else [(.order_id, .text orderId)]

/-- The body that `transition_order` and `handle_event` share; `onSuccess` runs
before the commit. -/
def runTransition (orderId : String) (event : OrderEvent)
    (onSuccess : OrderState → Async Unit) : Async OrderResult :=
  Prog.withSession do
    let currentState ← orderState orderId
    match orderTransitions currentState event with
    | none => return rejected (some event) (notAllowed "Order" event.value currentState.value)
    | some newState => do
        let trace ← vmRun orderTools (selectProgram event currentState newState)
          (transitionContext orderId event currentState)
        match trace.error with
        | none => do
            onSuccess newState
            Prog.commitSession
            return transitioned newState
        | some error => return rejected (some event) error

/-- `UPDATE orders SET trace_id`, and a kitchen ticket for an order that reached
`COOKING` by another event than `START_COOKING`. -/
def finishTransition (orderId : String) (event : OrderEvent) (newState : OrderState) :
    Async Unit := do
  let traceId ← uuid4
  let id ← ofExcept (uuid orderId)
  orders.update id fun row => { row with traceId := some traceId.text }
  if newState = .COOKING ∧ event ≠ .START_COOKING then do
    let _ ← createKitchenTicket orderId
    pure ()
  else pure ()

/-- `OrderService.transition_order`. -/
def transitionOrder (orderId : String) (event : OrderEvent) : Async OrderResult :=
  runTransition orderId event (finishTransition orderId event)

/-- `OrderService.handle_event`. -/
def handleEvent (orderId : String) (event : OrderEvent) : Async OrderResult :=
  runTransition orderId event fun _ => pure ()

/-! ## Orders from a checkout -/

/-- `OrderItem`. -/
structure OrderItem where
  productId : Uuid
  name : String
  priceRub : Int
  qty : Int

/-- What the environment and third-party code decide: the settings and the
functions whose source is not part of the repository. -/
structure Settings where
  /-- `DELIVERY_FEE` -/
  deliveryFee : Int
  /-- `lower()` of the database -/
  lower : String → String
  /-- `int(goods_total * float(discount) / 100)` -/
  percentOf : Int → ℚ → Except PyError Int
  percentOf_error : ∀ goods discount e, percentOf goods discount = .error e →
    ∃ message, e = .overflowError message ∨ e = .valueError message
  /-- `OrderItem.model_validate` of a dictionary -/
  orderItem : List (String × Json) → Option OrderItem
  /-- `str()` of a number with a fraction, a list or a dictionary -/
  repr : Json → String
  /-- the YooKassa API -/
  provider : ProviderApi
  /-- `MAX_WEBHOOK_SECRET` -/
  maxWebhookSecret : String
  /-- `json.loads` of a text that is no object of plain texts -/
  loads : String → Except PyError Json

/-- `item.model_dump(mode="json")`. -/
def OrderItem.dump (item : OrderItem) : Json :=
  .obj [("product_id", .str item.productId.text), ("name", .str item.name),
    ("price_rub", .int item.priceRub), ("qty", .int item.qty)]

/-- `CheckoutItem`: `qty` is declared `gt=0`. -/
structure CheckoutItem where
  productId : Uuid
  qty : Int
  qty_pos : 0 < qty

/-- `CheckoutRequest`, with the client ids that the init data of the request
were verified to carry. -/
structure CheckoutRequest where
  name : String
  phone : String
  address : Option String
  comment : Option String
  deliveryMode : String
  paymentMethod : String
  zoneId : Option Uuid
  items : List CheckoutItem
  idempotencyKey : String
  clientMaxUid : Option Int
  clientZaloUid : Option String
  clientTelegramUid : Option Int
  promoCode : Option String

/-- `PromoEffect`. -/
structure PromoEffect where
  promotionId : Uuid
  appliedCode : String
  discountRub : Int
  freeDelivery : Bool

/-- The row `create_order_from_checkout` inserts. -/
def checkoutOrder (id : Uuid) (data : CheckoutRequest) (customerId : Uuid)
    (items : List OrderItem) (totalRub : Int) (promoCode : Option String) (discountRub : Int) :
    Order where
  id := id
  customerId := customerId
  state := .DRAFT
  items := .arr (items.map OrderItem.dump)
  deliveryAddress := data.address.getD ""
  deliveryMode := some data.deliveryMode
  zoneId := data.zoneId
  comment := data.comment
  clientMaxUid := data.clientMaxUid
  clientZaloUid := data.clientZaloUid
  clientTelegramUid := data.clientTelegramUid
  totalRub := some totalRub
  paymentMethod := some data.paymentMethod
  promoCode := promoCode
  discountRub := discountRub
  traceId := none

/-- `OrderService.create_order_from_checkout`: the id of the new order. -/
def createOrderFromCheckout (data : CheckoutRequest) (customerId : Uuid)
    (items : List OrderItem) (totalRub : Int) (promoCode : Option String) (discountRub : Int) :
    Async Uuid :=
  Prog.withSession do
    let id ← uuid4
    orders.insert
      (fun d => match data.zoneId with
        | none => true
        | some zone => (d.deliveryZones.find zone).isSome)
      (checkoutOrder id data customerId items totalRub promoCode discountRub)
    Prog.commitSession
    return id

/-- The end of `resolve_promo_effect`: the effect of the promotion the code resolves
to. -/
def effectOf (cfg : Settings) (code : String) (goodsTotal : Int) (promo : Promotion) :
    Except PyError PromoEffect :=
  match promo.effectType with
  | .PERCENT_DISCOUNT =>
      match promo.discount with
      | none => .error (.valueError "cannot convert float NaN to integer")
      | some discount => (cfg.percentOf goodsTotal discount).map fun discountRub =>
          ⟨promo.id, code, discountRub, false⟩
  | .FIXED_AMOUNT =>
      match promo.discount with
      | none => .error (.valueError "cannot convert NaN to integer")
      | some discount => .ok ⟨promo.id, code, min (truncated discount) goodsTotal, false⟩
  | .FREE_DELIVERY => .ok ⟨promo.id, code, 0, true⟩

/-- The active promotions under a code. -/
def activePromotions (cfg : Settings) (code : String) (d : Database) : List Promotion :=
  d.promotions.filter fun p =>
    p.triggerCode.map cfg.lower = some (cfg.lower code) && p.state = "ACTIVE"

/-- `resolve_promo_effect`. -/
def resolvePromoEffect (cfg : Settings) (promoCode : Option String) (goodsTotal : Int) :
    Async (Option PromoEffect) := do
  let code := strip (promoCode.getD "")
  if code = "" then return none
  else do
    bindParam (storable code)
    match ← Prog.select (activePromotions cfg code) with
    | [promo] => do
        let effect ← ofExcept (effectOf cfg code goodsTotal promo)
        return some effect
    | _ => return none

/-- `sum(item.price_rub * item.qty for item in items)`. -/
def goodsTotal (items : List OrderItem) : Int :=
  (items.map fun item => item.priceRub * item.qty).sum

/-- `compute_checkout_total`. -/
def computeCheckoutTotal (cfg : Settings) (items : List OrderItem) (deliveryMode : String)
    (promoEffect : Option PromoEffect) (deliveryFee : Option Int) : Int :=
  let goods := match promoEffect with
    | some promo => max 0 (goodsTotal items - promo.discountRub)
    | none => goodsTotal items
  if deliveryMode = "pickup" then goods
  else
    let fee := deliveryFee.getD cfg.deliveryFee
    let fee := match promoEffect with
      | some promo => if promo.freeDelivery then 0 else fee
      | none => fee
    goods + fee

/-- `resolve_checkout_items`. -/
def resolveCheckoutItems : List CheckoutItem → Async (List OrderItem)
  | [] => return []
  | ci :: rest => do
      let snapshot ← MenuService.getProductSnapshot ci.productId
      match snapshot.bind fun s => s.priceRub.map fun price => (s, price) with
      | none => throw (.valueError ("product " ++ ci.productId.text ++
          " not found or has no price"))
      | some (s, price) => do
          let resolved ← resolveCheckoutItems rest
          return ⟨s.productId, s.name, price, ci.qty⟩ :: resolved

/-! ## Reading orders -/

/-- `OrderCreate`. -/
structure OrderCreate where
  customerId : Uuid
  items : List (List (String × Json)) := []
  deliveryAddress : String

/-- `OrderRead`. -/
structure OrderRead where
  id : Uuid
  customerId : Uuid
  state : OrderState
  items : List OrderItem
  deliveryAddress : String
  deliveryMode : Option String := none
  paymentMethod : Option String := none
  comment : Option String := none
  customerName : Option String := none
  customerPhone : Option String := none
  traceId : Option String := none
  totalRub : Option Int := none
  discountRub : Option Int := none

/-- `str(value)`. -/
def jsonText (cfg : Settings) : Json → String
  | .str s => s
  | .int n => toString n
  | .bool true => "True"
  | .bool false => "False"
  | .null => "None"
  | value => cfg.repr value

/-- One round of `_coerce_items`: a dictionary that is no `OrderItem` is wrapped, and
so is a value that is no dictionary. -/
def coerceItem (cfg : Settings) : Json → Async OrderItem
  | .obj fields =>
      match cfg.orderItem fields with
      | some item => return item
      | none => do
          let productId ← uuid4
          let name := jsonText cfg
            (Json.get fields "sku" (Json.get fields "product_id" (.str "unknown")))
          let priceRub ← ofExcept (Json.get fields "price_rub" (.int 0)).toInt
          let qty ← ofExcept (Json.get fields "qty" (.int 1)).toInt
          return { productId, name, priceRub, qty }
  | _ => do
      let productId ← uuid4
      return { productId, name := "unknown", priceRub := 0, qty := 1 }

/-- `_coerce_items`. -/
def coerceItems (cfg : Settings) : List Json → Async (List OrderItem)
  | [] => return []
  | raw :: rest => do
      let item ← coerceItem cfg raw
      let coerced ← coerceItems cfg rest
      return item :: coerced

/-- The row `create_order` inserts. -/
def createdOrder (id : Uuid) (data : OrderCreate) : Order where
  id := id
  customerId := data.customerId
  state := .DRAFT
  items := .arr (data.items.map .obj)
  deliveryAddress := data.deliveryAddress
  deliveryMode := none
  zoneId := none
  comment := none
  clientMaxUid := none
  clientZaloUid := none
  clientTelegramUid := none
  totalRub := none
  paymentMethod := none
  promoCode := none
  discountRub := 0
  traceId := none

/-- What `create_order` builds of the row it has inserted. -/
def createdRead (row : Order) (items : List OrderItem) : OrderRead where
  id := row.id
  customerId := row.customerId
  state := row.state
  items := items
  deliveryAddress := row.deliveryAddress
  traceId := row.traceId

/-- `OrderService.create_order`. -/
def createOrder (cfg : Settings) (data : OrderCreate) : Async OrderRead :=
  Prog.withSession do
    let id ← uuid4
    let row := createdOrder id data
    orders.insert (fun _ => true) row
    Prog.commitSession
    let items ← ofExcept row.items.iter
    let items ← coerceItems cfg items
    return createdRead row items

/-- `LEFT JOIN customers c ON c.id = o.customer_id`. -/
def customerOf (d : Database) (row : Order) : Option Customer :=
  d.customers.rows.find? fun c => c.id = row.customerId

/-- What `fetch_orders` builds of a row. -/
def fetchedOrder (row : Order) (customer : Option Customer) (items : List OrderItem) :
    OrderRead where
  id := row.id
  customerId := row.customerId
  state := row.state
  items := items
  deliveryAddress := row.deliveryAddress
  deliveryMode := row.deliveryMode
  paymentMethod := row.paymentMethod
  comment := row.comment
  customerName := customer.map Customer.name
  customerPhone := customer.map Customer.phone
  traceId := row.traceId

/-- What `get_order` builds of a row: its money too. -/
def gotOrder (row : Order) (customer : Option Customer) (items : List OrderItem) : OrderRead :=
  { fetchedOrder row customer items with
    totalRub := row.totalRub, discountRub := some row.discountRub }

/-- `OrderService.get_order`. -/
def getOrder (cfg : Settings) (id : Uuid) : Async (Option OrderRead) :=
  Prog.withSession do
    let found ← Prog.select fun (d : Database) =>
      (d.orders.find id).map fun row => (row, customerOf d row)
    match found with
    | none => return none
    | some (row, customer) => do
        let items ← ofExcept row.items.iter
        let items ← coerceItems cfg items
        return some (gotOrder row customer items)

/-- The orders in a state, the latest first: a table lists its rows in the order of
their insertion. -/
def matchingOrders (stateFilter : Option OrderState) (d : Database) : List Order :=
  (d.orders.rows.filter fun row => stateFilter.all fun state => row.state = state).reverse

/-- The comprehension of `fetch_orders`. -/
def readOrders (cfg : Settings) : List (Order × Option Customer) → Async (List OrderRead)
  | [] => return []
  | (row, customer) :: rest => do
      let items ← ofExcept row.items.iter
      let items ← coerceItems cfg items
      let reads ← readOrders cfg rest
      return fetchedOrder row customer items :: reads

/-- `fetch_orders`. -/
def fetchOrders (cfg : Settings) (stateFilter : Option OrderState) : Async (List OrderRead) :=
  Prog.withSession do
    let rows ← Prog.select fun (d : Database) =>
      (matchingOrders stateFilter d).map fun row => (row, customerOf d row)
    readOrders cfg rows

/-- `OrderService.list_orders`. -/
def listOrders (cfg : Settings) (stateFilter : Option OrderState) : Async (List OrderRead) :=
  fetchOrders cfg stateFilter

end Sieshka
