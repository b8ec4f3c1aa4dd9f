import Sieshka.Services.PaymentService

/-!
# POST /api/orders

The checkout route, and the customer it finds or creates by phone.
-/

namespace Sieshka

open Transactions

/-! ## Customers -/

/-- `normalize_phone`. -/
def normalizePhone (phone : String) : Except PyError String :=
  match phone.toList.filter fun c => (decimalValue c).isSome with
  | c :: rest =>
      if (c = '7' ∨ c = '8') ∧ rest.length = 10 then .ok (String.ofList ('+' :: '7' :: rest))
      else .error (.phoneNormalizationError phone)
  | [] => .error (.phoneNormalizationError phone)

/-- `CustomerService.find_or_create_by_phone`. -/
def findOrCreateByPhone (name phone : String) : Async Customer := do
  let canonical ← ofExcept (normalizePhone phone)
  Prog.withSession do
    match ← customers.find canonical with
    | some existing => return existing
    | none => do
        let id ← uuid4
        let created := { id, name := varchar 255 name, phone := canonical }
        customers.insert (fun _ => varcharFits 255 name) created
        Prog.commitSession
        return created

/-! ## The route -/

/-- `CheckoutResponse` with `ok` set. -/
structure CheckoutResponse where
  orderId : String
  confirmationToken : Option String := none
  confirmationUrl : Option String := none
deriving DecidableEq

/-- A text, or `None` when it is empty. -/
def nonEmpty (s : String) : Option String := if s = "" then none else some s

/-- A text field of a payload, `None` when it is empty or no text. -/
def textField (fields : List (String × Json)) (key : String) : Option String :=
  match Json.get fields key .null with
  | .str s => nonEmpty s
  | _ => none

/-- `_recover_idempotent_result` on the payload of a key. -/
def recoverIdempotentResult : Option Json → Except PyError (Option CheckoutResponse)
  | none => .ok none
  | some (.obj fields) =>
      match Json.get fields "order_id" .null with
      | .str orderId => .ok (some { orderId
                                    confirmationToken := textField fields "confirmation_token"
                                    confirmationUrl := textField fields "confirmation_url" })
      | _ => .ok none
  | some .null => .ok none
  | some _ => .error (.attributeError "object has no attribute 'get'")

/-- The payload a checkout key is recorded with. -/
def checkoutPayload (body : CheckoutRequest) : List (String × Json) :=
  [("phone", .str body.phone), ("payment_method", .str body.paymentMethod),
    ("item_count", .int body.items.length)]

/-- `f"{_IDEMPOTENCY_PREFIX}{body.idempotency_key}"`. -/
def checkoutKey (body : CheckoutRequest) : String := "checkout:" ++ body.idempotencyKey

/-- The order of a checkout: customer, priced items, total, row. -/
def placeOrder (cfg : Settings) (body : CheckoutRequest) : Async (Uuid × Int) := do
  let customer ← findOrCreateByPhone body.name body.phone
  let items ← resolveCheckoutItems body.items
  let promoEffect ← Prog.withSession (resolvePromoEffect cfg body.promoCode (goodsTotal items))
  let zoneFee ← match body.zoneId with
    | none => pure none
    | some zone => do
        let row ← Prog.withSession (Prog.select fun (d : Database) => d.deliveryZones.find zone)
        pure (row.map DeliveryZone.deliveryFeeRub)
  let totalRub := computeCheckoutTotal cfg items body.deliveryMode promoEffect zoneFee
  let id ← createOrderFromCheckout body customer.id items totalRub
    (promoEffect.map PromoEffect.appliedCode) ((promoEffect.map PromoEffect.discountRub).getD 0)
  return (id, totalRub)

/-- The card branch: two transitions, then a payment at the provider. -/
def checkoutCard (cfg : Settings) (body : CheckoutRequest) (id : Uuid) (totalRub : Int) :
    Async CheckoutResponse := do
  let _ ← transitionOrder id.text .CONFIRM
  let _ ← transitionOrder id.text .REQUEST_PAYMENT
  let payment ← (createPayment cfg (some (checkoutKey body)) id.text totalRub "RUB"
      (some (methodType body.paymentMethod))).andThen .ret fun e =>
    match e with
    | .httpStatusError => .raise (.httpException 502 .providerRejected)
    | .httpError => .raise (.httpException 502 .providerUnreachable)
    | e => .raise e
  updatePayload (checkoutKey body) (.obj (checkoutPayload body ++
    [("order_id", .str id.text), ("confirmation_token", .str payment.confirmationToken),
      ("confirmation_url", .str payment.confirmationUrl)]))
  return { orderId := id.text
           confirmationToken := nonEmpty payment.confirmationToken
           confirmationUrl := nonEmpty payment.confirmationUrl }

/-- The cash branch: the order is confirmed and sent to the kitchen. -/
def checkoutCash (body : CheckoutRequest) (id : Uuid) : Async CheckoutResponse := do
  let _ ← transitionOrder id.text .CONFIRM
  let _ ← transitionOrder id.text .START_COOKING
  updatePayload (checkoutKey body)
    (.obj (checkoutPayload body ++ [("order_id", .str id.text)]))
  return { orderId := id.text }

/-- `checkout`. -/
def checkout (cfg : Settings) (body : CheckoutRequest) : Async CheckoutResponse := do
  if body.paymentMethod ≠ "yookassa_sbp" ∧ body.paymentMethod ≠ "yookassa_sberbank" ∧
      body.paymentMethod ≠ "cash" then
    throw (.httpException 400 (.unsupportedPaymentMethod body.paymentMethod))
  else if body.deliveryMode ≠ "pickup" ∧ body.zoneId = none then
    throw (.httpException 400 .zoneIdRequired)
  else if body.items.isEmpty then throw (.httpException 400 .noItems)
  else do
    let inserted ← checkAndRecord (checkoutKey body) (.obj (checkoutPayload body))
    if inserted then do
      let (id, totalRub) ← placeOrder cfg body
      if body.paymentMethod = "cash" then checkoutCash body id
      else checkoutCard cfg body id totalRub
    else do
      let payload ← getPayload (checkoutKey body)
      match ← ofExcept (recoverIdempotentResult payload) with
      | some existing => return existing
      | none => throw (.httpException 409 .stillBeingProcessed)

end Sieshka
