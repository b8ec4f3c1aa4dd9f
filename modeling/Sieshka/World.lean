import Sieshka.Database
import Sieshka.Transactions.System

/-!
# Memory outside the database

The in-memory trace list of the process and the payments the YooKassa API
knows. A restart of the process loses the first and leaves the second.

## Implementation notes

The provider is outside the repository and a parameter here (`ProviderApi`): it
gives every payment an id of its own and a page and a token to pay with. It
answers truthfully about the payments it has, may change the status of one that
is neither succeeded nor canceled at any time, and any request to it may fail
before or after it took effect.
-/

namespace Sieshka

open Transactions

/-- `TraceEvent`. -/
structure TraceEvent where
  traceId : String
  entityId : String
  domain : String
  event : String
  fromState : String
  toState : String
  metadata : List (String × String)

/-- The `status` of a payment at the provider. -/
inductive RemoteStatus
  | pending
  | waiting_for_capture
  | succeeded
  | canceled
deriving DecidableEq, Repr

/-- The provider never changes the status of a payment once it is final. -/
def RemoteStatus.final : RemoteStatus → Bool
  | succeeded => true
  | canceled => true
  | _ => false

/-- The `amount` object: its `value` as a `Decimal`, when it is one. -/
structure RemoteAmount where
  value : Option ℚ
  currency : String
deriving DecidableEq

/-- A payment as the provider's API reports it. The key of the checkout that has requested it is
a history variable: no request carries it. -/
structure RemotePayment where
  id : String
  status : RemoteStatus
  paid : Bool
  amount : Option RemoteAmount
  confirmationUrl : String
  confirmationToken : String
  metadata : List (String × String)
  sentFor : Option String
deriving DecidableEq

/-- What the provider gives a new payment beside the ones there are. -/
structure ProviderApi where
  nextRemoteId : List RemotePayment → String
  fresh : ∀ provider, ∀ p ∈ provider, p.id ≠ nextRemoteId provider
  /-- The page and the token of the payment with an id. -/
  confirmationUrl : String → String
  confirmationToken : String → String

structure Memory where
  trace : List TraceEvent := []
  provider : List RemotePayment := []

/-- What a call does: statements on the database, requests to the provider,
reads and writes of the trace list. -/
abbrev Async := Prog Database Write Lock Memory PyError

/-- Continue with a value or raise. -/
def ofExcept {α : Type} : Except PyError α → Async α
  | .ok a => .ret a
  | .error e => .raise e

@[simp] theorem ofExcept_ok {α : Type} (a : α) : ofExcept (.ok a) = .ret a := rfl

@[simp] theorem ofExcept_error {α : Type} (e : PyError) :
    ofExcept (.error e : Except PyError α) = .raise e := rfl

/-- `uuid.uuid4()` and `uuid_generate_v4()`. -/
def uuid4 : Async Uuid := .choose fun n => .ret (BitVec.ofNat 128 n)

/-! ## The trace list -/

/-- `LightweightTrace.record`. -/
def traceRecord (entityId domain event fromState toState : String)
    (metadata : List (String × String)) : Async String := do
  let id ← uuid4
  let traceId := id.text
  Prog.modifyMemory fun m => { m with
    trace := m.trace ++ [⟨traceId, entityId, domain, event, fromState, toState, metadata⟩] }
  return traceId

/-- `LightweightTrace.get_by_trace_id` on the list of events. -/
def findTrace (events : List TraceEvent) (traceId : String) : Option TraceEvent :=
  events.find? fun e => e.traceId = traceId

/-- `LightweightTrace.get_by_trace_id`. -/
def getByTraceId (traceId : String) : Async (Option TraceEvent) :=
  Prog.readMemory fun m => findTrace m.trace traceId

/-! ## The provider -/

/-- The payment the provider has under an id. -/
def findRemote (provider : List RemotePayment) (paymentId : String) : Option RemotePayment :=
  provider.find? fun p => p.id = paymentId

/-- A payment the provider has just created. -/
def newRemote (api : ProviderApi) (sentFor : Option String) (amount : Int) (currency : String)
    (metadata : List (String × String)) (provider : List RemotePayment) : RemotePayment where
  id := api.nextRemoteId provider
  status := .pending
  paid := false
  amount := some ⟨some amount, currency⟩
  confirmationUrl := api.confirmationUrl (api.nextRemoteId provider)
  confirmationToken := api.confirmationToken (api.nextRemoteId provider)
  metadata := metadata
  sentFor := sentFor

/-- `YooKassaClient.create_payment`: `POST /payments`, which can fail before or
after the provider has created the payment. -/
def yookassaCreatePayment (api : ProviderApi) (sentFor : Option String) (amount : Int)
    (currency : String) (metadata : List (String × String)) : Async RemotePayment :=
  .choose fun n =>
    match n with
    | 0 => .raise .httpError
    | 1 => .raise .httpStatusError
    | n + 2 =>
        .memory
          (fun m => { m with
            provider := m.provider ++
              [newRemote api sentFor amount currency metadata m.provider] })
          fun m =>
            if n = 0 then .raise .httpError
            else .ret (newRemote api sentFor amount currency metadata m.provider)

/-- `YooKassaClient.get_payment`: `GET /payments/{payment_id}`. -/
def yookassaGetPayment (paymentId : String) : Async RemotePayment :=
  .choose fun n =>
    match n with
    | 0 => .raise .httpError
    | _ + 1 =>
        .memory id fun m =>
          match findRemote m.provider paymentId with
          | none => .raise .httpStatusError
          | some remote => .ret remote

/-- What happens at the provider: the customer or the shop's account acts on a
payment, or a payment appears that no call has created. -/
inductive ProviderMove
  | update (paymentId : String) (status : RemoteStatus) (paid : Bool)
      (amount : Option RemoteAmount)
  | create (payment : RemotePayment)

/-- The payment after the provider has changed it. -/
def RemotePayment.changed (p : RemotePayment) (status : RemoteStatus) (paid : Bool)
    (amount : Option RemoteAmount) : RemotePayment :=
  { p with status := status, paid := paid, amount := amount }

/-- The memory after a move of the provider, when it can make it. -/
def providerMove (api : ProviderApi) (v : ProviderMove) (m : Memory) : Option Memory :=
  match v with
  | .update paymentId status paid amount =>
      match findRemote m.provider paymentId with
      | none => none
      | some p =>
          if p.status.final then none
          else some { m with
            provider := m.provider.map fun q =>
              if q.id = paymentId then q.changed status paid amount else q }
  | .create payment =>
      some { m with
        provider := m.provider ++
          [{ payment with id := api.nextRemoteId m.provider, sentFor := none }] }

/-- A restart loses the trace list. -/
def restart (m : Memory) : Memory := { m with trace := [] }

end Sieshka
