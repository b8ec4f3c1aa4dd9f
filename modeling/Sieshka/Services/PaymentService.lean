import Sieshka.Services.OrderService

/-!
# PaymentService and the payment routes

Idempotency keys, the payments of an order, the two webhook continuations
`confirm_payment` and `fail_payment`, the YooKassa webhook and `pay_order`.
-/

namespace Sieshka

open Transactions

/-! ## Idempotency -/

/-- `IdempotencyService.check_and_record`: whether the key is new. -/
def checkAndRecord (key : String) (payload : Json) : Async Bool :=
  Prog.withSession do
    let inserted ← idempotencyKeys.insertIfAbsent { key, payload }
    Prog.commitSession
    return inserted

/-- `IdempotencyService.get_payload`. -/
def getPayload (key : String) : Async (Option Json) :=
  Prog.withSession do
    let row ← idempotencyKeys.find key
    return row.map IdempotencyKey.payload

/-- `IdempotencyService.update_payload`. -/
def updatePayload (key : String) (payload : Json) : Async Unit :=
  Prog.withSession do
    idempotencyKeys.upsert { key, payload }
    Prog.commitSession

/-! ## Payments -/

/-- `PaymentRepository.create`: a payment in `PENDING`. -/
def createPaymentRow (orderId : String) (amount : Int) (currency providerId : String) :
    Async Uuid := do
  let order ← ofExcept (uuid orderId)
  let id ← uuid4
  payments.insert (fun d => (d.orders.find order).isSome)
    { id, orderId := order, providerId := some providerId, amount, currency, state := .PENDING }
  return id

/-- The payments with a provider id. -/
def withProviderId (d : Database) (providerId : String) : List Payment :=
  d.payments.rows.filter fun row => row.providerId = some providerId

/-- `PaymentRepository.get_by_provider_id`. -/
def getByProviderId (providerId : String) : Async Payment := do
  let rows ← Prog.select fun (d : Database) => withProviderId d providerId
  ofExcept (oneRow rows)

/-- `PaymentRepository.write_state`. -/
def writePaymentState (id : Uuid) (state : PaymentState) : Async Unit :=
  payments.update id fun row => { row with state := state }

/-- `PaymentService._run_simple_transition`. -/
def runSimpleTransition (orderId : String) (event : OrderEvent) (currentState : OrderState) :
    Async OrderResult :=
  match orderTransitions currentState event with
  | none => return rejected (some event) (notAllowed "Order" event.value currentState.value)
  | some newState => do
      let trace ← vmRun orderTools (buildSimpleProgram currentState newState)
        [(.order_id, .text orderId)]
      match trace.error with
      | none => return transitioned newState
      | some error => return rejected (some event) error

/-- `PaymentInitResult`. -/
structure PaymentInitResult where
  confirmationUrl : String
  confirmationToken : String
  paymentId : String
  traceId : String

/-- The `metadata` a payment is created with. -/
def paymentMetadata (traceId orderId : String) : List (String × String) :=
  [("trace_id", traceId), ("order_id", orderId), ("program_name", "payment_confirmation")]

/-- `PaymentService.create_payment`: the order is moved in the session that
inserts the payment. The key of the checkout it is called for is a history variable. -/
def createPayment (cfg : Settings) (sentFor : Option String) (orderId : String) (amount : Int)
    (currency : String) (paymentMethodType : Option String) : Async PaymentInitResult := do
  let traceId ← traceRecord orderId "orders" "PAYMENT_REQUESTED" "CONFIRMED" "PAYMENT_PENDING"
    [("amount", toString amount), ("currency", currency)]
  if paymentMethodType.all fun t => t = "sbp" || t = "sberbank" then do
    let data ← yookassaCreatePayment cfg.provider sentFor amount currency
      (paymentMetadata traceId orderId)
    let _ ← Prog.withSession do
      let _ ← createPaymentRow orderId amount currency data.id
      let currentState ← orderState orderId
      let result ← runSimpleTransition orderId .REQUEST_PAYMENT currentState
      Prog.commitSession
      return result
    return ⟨data.confirmationUrl, data.confirmationToken, data.id, traceId⟩
  else throw (.valueError "payment_method_data type must be one of ('sbp', 'sberbank')")

/-- The comparison of the provider's answer with the payment on record. -/
def providerAgrees (remote : RemotePayment) (recorded : Payment) (expected : RemoteStatus) :
    Bool :=
  if remote.status ≠ expected then false
  else if expected = .succeeded ∧ remote.paid ≠ true then false
  else
    match remote.amount with
    | none => false
    | some amount =>
        match amount.value with
        | none => false
        | some charged => charged = recorded.amount && amount.currency = recorded.currency

/-- `PaymentService.verify_provider_payment`. -/
def verifyProviderPayment (providerId : String) (expected : RemoteStatus) : Async Bool := do
  let remote ← yookassaGetPayment providerId
  let recorded ← Prog.withSession
    ((getByProviderId providerId).andThen (fun row => .ret (some row)) fun _ => .ret none)
  match recorded with
  | none => return false
  | some row => return providerAgrees remote row expected

/-- The payload recorded with a webhook's key. -/
def webhookPayload (providerId orderId : String) : Json :=
  .obj [("provider_id", .str providerId), ("order_id", .str orderId)]

/-- How a payment ends: `confirm_payment` and `fail_payment` run the same session
with a state, an order event and a set of payments to skip of their own. -/
inductive Settlement
  | confirm
  | fail
deriving DecidableEq

/-- The state the payment gets. -/
def Settlement.state : Settlement → PaymentState
  | confirm => .SUCCESS
  | fail => .FAILED

/-- The event the order gets. -/
def Settlement.event : Settlement → OrderEvent
  | confirm => .PAYMENT_CONFIRMED
  | fail => .PAYMENT_FAILED

/-- Why a payment in a state is skipped. -/
def Settlement.skip : Settlement → PaymentState → Option String
  | confirm, .SUCCESS => some "Payment already confirmed"
  | confirm, _ => none
  | fail, .SUCCESS => some "Payment already SUCCESS"
  | fail, .FAILED => some "Payment already FAILED"
  | fail, .PENDING => none

/-- The idempotency key of a delivery. -/
def Settlement.key : Settlement → String → String
  | confirm, traceId => traceId ++ ":payment_confirmation"
  | fail, traceId => traceId ++ ":payment_failure"

/-- The session that writes the payment and moves the order, unless there is a
reason to skip it. -/
def settlePayment (kind : Settlement) (orderId providerId : String) :
    Async (Except String OrderResult) :=
  Prog.withSession do
    let payment ← (getByProviderId providerId).andThen (fun row => .ret (some row))
      fun _ => .ret none
    match payment with
    | none => return .error "Payment not found"
    | some payment =>
        match kind.skip payment.state with
        | some reason => return .error reason
        | none => do
            writePaymentState payment.id kind.state
            let currentState ← orderState orderId
            let result ← runSimpleTransition orderId kind.event currentState
            Prog.commitSession
            return .ok result

/-- `PaymentService.confirm_payment`. -/
def confirmPayment (orderId providerId traceId : String) : Async OrderResult := do
  let inserted ← checkAndRecord (Settlement.confirm.key traceId)
    (webhookPayload providerId orderId)
  if inserted then do
    match ← settlePayment .confirm orderId providerId with
    | .error reason => return rejected none reason
    | .ok result =>
        if result.success then do
          let _ ← transitionOrder orderId .START_COOKING
          return result
        else return result
  else return rejected none "Duplicate webhook event"

/-- `PaymentService.fail_payment`. -/
def failPayment (orderId providerId traceId : String) : Async OrderResult := do
  let inserted ← checkAndRecord (Settlement.fail.key traceId)
    (webhookPayload providerId orderId)
  if inserted then do
    match ← settlePayment .fail orderId providerId with
    | .error reason => return rejected none reason
    | .ok result => return result
  else return rejected none "Duplicate webhook event"

/-! ## The YooKassa webhook -/

/-- A notification the webhook acts on. -/
structure Notification where
  kind : Settlement
  traceId : String
  paymentId : String

/-- What `yookassa_webhook` reads of a body: `none` is answered 200 at once. -/
def parseNotification (cfg : Settings) (body : Option Json) :
    Except PyError (Option Notification) :=
  match body with
  | none => .ok none
  | some (.obj fields) =>
      match Json.get fields "object" (.obj []) with
      | .obj object =>
          match Json.get object "metadata" (.obj []) with
          | .obj metadata =>
              let traceId := Json.get metadata "trace_id" (.str "")
              let paymentId := Json.get object "id" (.str "")
              if !traceId.truthy || !paymentId.truthy then .ok none
              else
                match Json.get fields "event" (.str "") with
                | .str "payment.succeeded" =>
                    .ok (some ⟨.confirm, jsonText cfg traceId, jsonText cfg paymentId⟩)
                | .str "payment.canceled" =>
                    .ok (some ⟨.fail, jsonText cfg traceId, jsonText cfg paymentId⟩)
                | _ => .ok none
          | _ => .ok none
      | _ => .ok none
  | some _ => .error (.attributeError "object has no attribute 'get'")

/-- The status the provider must report. -/
def Settlement.expected : Settlement → RemoteStatus
  | confirm => .succeeded
  | fail => .canceled

/-- The continuation of a verified notification. -/
def resumePayment (n : Notification) (orderId : String) : Async OrderResult :=
  match n.kind with
  | .confirm => confirmPayment orderId n.paymentId n.traceId
  | .fail => failPayment orderId n.paymentId n.traceId

/-- A notification from its trace event on: the HTTP status of the answer. -/
def handleNotification (n : Notification) : Async Nat := do
  match ← getByTraceId n.traceId with
  | none => return 200
  | some event => do
      let verified ← (verifyProviderPayment n.paymentId n.kind.expected).andThen
        (fun v => .ret (some v))
        (fun e => if e.isHttpError then .ret none else .raise e)
      match verified with
      | none => return 502
      | some false => return 200
      | some true => do
          let _ ← resumePayment n event.entityId
          return 200

/-- `yookassa_webhook`: the HTTP status of the answer. -/
def yookassaWebhook (cfg : Settings) (body : Option Json) : Async Nat := do
  match ← ofExcept (parseNotification cfg body) with
  | none => return 200
  | some n => handleNotification n

/-! ## POST /orders/{order_id}/pay -/

/-- `PaymentRequest`. -/
structure PaymentRequest where
  amount : ℚ
  paymentMethod : String := "yookassa_sbp"

/-- The type of payment method a request maps to. -/
def methodType (paymentMethod : String) : String :=
  if paymentMethod = "yookassa_sbp" then "sbp" else "sberbank"

/-- `pay_order`. -/
def payOrder (cfg : Settings) (orderId : Uuid) (body : PaymentRequest) :
    Async PaymentInitResult := do
  match ← getOrder cfg orderId with
  | none => throw (.httpException 404 .orderNotFound)
  | some order =>
      if order.state ≠ .CONFIRMED then
        throw (.httpException 409 (.notConfirmed order.state.value))
      else
        match order.totalRub with
        | none => throw (.httpException 409 .noTotalRub)
        | some totalRub =>
            if body.amount ≠ totalRub then
              throw (.httpException 409 (.amountMismatch totalRub body.amount))
            else if body.paymentMethod ≠ "yookassa_sbp" ∧
                body.paymentMethod ≠ "yookassa_sberbank" then
              throw (.httpException 400 (.paymentMethodNotAllowed body.paymentMethod))
            else
              createPayment cfg none orderId.text totalRub "RUB"
                (some (methodType body.paymentMethod))

end Sieshka
