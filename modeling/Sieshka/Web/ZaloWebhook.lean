import Sieshka.Services.MessengerIds
import Sieshka.Web.ZaloEvents

/-!
# `POST /webhooks/zalo`

The handler of the events that Zalo sends. The one event there is revokes a user's consent:
the id of the user is taken off the staff and off the orders.

## Implementation notes

A body is the value that it is read as, or none where it is no JSON text. A parameter of a
statement is encoded before it is sent. The log is left out.
-/

namespace Sieshka

open MaxWebappAuth MessengerIds

namespace ZaloEvents

/-- `payload.get(key)`. -/
def Payload.get (payload : Payload) (key : String) : Option Value :=
  (payload.find? fun field => field.1 = Text.ofString key).map Prod.snd

/-- `type(value).__name__`. -/
def Value.typeName : Value → String
  | null => "NoneType"
  | bool _ => "bool"
  | int _ => "int"
  | float _ _ _ => "float"
  | str _ => "str"
  | arr _ => "list"
  | obj _ => "dict"

/-- `JSONResponse({"ok": ok}, status_code)`. -/
structure JsonResponse where
  ok : Bool
  statusCode : ℕ := 200
deriving DecidableEq

/-- `_REVOKE_CONSENT_EVENT`. -/
def revokeConsentEvent : Text := Text.ofString "user.revoke.consent"

/-- `event == _REVOKE_CONSENT_EVENT`. -/
def isRevocation (payload : Payload) : Bool :=
  match payload.get "event" with
  | some (.str event) => event = revokeConsentEvent
  | _ => false

/-- `userId`, where it is a string and not empty. -/
def zaloUserId (payload : Payload) : Option Text :=
  match payload.get "userId" with
  | some (.str userId) => if userId = [] then none else some userId
  | _ => none

def ofPython {α : Type} : Except PyError α → Service α
  | .ok a => return a
  | .error e => throw (.other e)

section

variable (printable : CodePoint → Bool) (sha256 : String → BitVec 256) (apiKey : String)
  (S : Server)

/-- The payload, where `settings.ZALO_API_KEY and signature and verify_zalo_signature(...)`. -/
def authenticated (signature : Option Text) (body : Value) : Except PyError (Option Payload) :=
  if apiKey = "" ∨ signature.getD [] = [] then .ok none
  else
    match body with
    | .obj payload => do
        if ← verifyZaloSignature printable sha256 payload (signature.getD []) apiKey then
          return some payload
        else return none
    | body => .error (.attributeError
        ("'" ++ body.typeName ++ "' object has no attribute 'keys'"))

/-- The id is taken off the staff and off the orders. -/
def revokeConsent (userId : Text) : Service Unit := do
  let zaloUserId ← ofPython (encode userId)
  match ← findByZaloUserId S zaloUserId with
  | none => pure ()
  | some staffMember =>
      let _ ← update S staffMember.id { zaloUserId := some none }
  let _ ← clearClientZaloUid S zaloUserId

/-- `zalo_events_webhook`. -/
def zaloEventsWebhook (signature : Option Text) (body : Option Value) : Service JsonResponse := do
  match body with
  | none => return { ok := true }
  | some body =>
      match ← ofPython (authenticated printable sha256 apiKey signature body) with
      | none => return { ok := false, statusCode := 403 }
      | some payload =>
          if isRevocation payload then
            match zaloUserId payload with
            | none => return { ok := true }
            | some userId => do
                revokeConsent S userId
                return { ok := true }
          else return { ok := true }

end

end ZaloEvents

end Sieshka
