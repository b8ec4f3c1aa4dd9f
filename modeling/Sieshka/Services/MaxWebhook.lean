import Sieshka.Python.Json
import Sieshka.Services.PaymentService
import Sieshka.Services.Staff

/-!
# POST /webhooks/max

The MAX bot's webhook: a button press of a staff member, checked against the
secret of the webhook, the active staff and the role tables.

## Implementation notes

Two things that follow the transition are left out. The callback is answered, which
raises only where MAX answers with JSON that is no object. Then the cards of the staff
are sent or edited, with every error caught: that writes the references to the messages
and no table that is modelled here.
-/

namespace Sieshka

open Transactions

/-- `hmac.compare_digest` on texts: only ASCII is accepted. -/
def compareDigest (a b : String) : Except PyError Bool :=
  if a.toList.all (fun c => c.toNat < 128) && b.toList.all (fun c => c.toNat < 128) then
    .ok (a = b)
  else .error (.typeError "comparing strings with non-ASCII characters is not supported")

/-- The callback of an update and the integer in its `user.user_id`; `none` is
answered 200 at once. -/
def callbackOf : Json → Except PyError (Option (List (String × Json) × Int))
  | .obj fields =>
      match Json.get fields "update_type" .null, Json.get fields "callback" .null with
      | .str "message_callback", .obj callback =>
          let user := Json.get callback "user" .null
          match if user.truthy then user else .obj [] with
          | .obj sender =>
              -- a `TypeError` or `ValueError` of `int` leaves no sender
              match (Json.get sender "user_id" .null).toInt with
              | .ok id => .ok (some (callback, id))
              | .error (.typeError _) => .ok none
              | .error (.valueError _) => .ok none
              | .error e => .error e
          | _ => .error (.attributeError "object has no attribute 'get'")
      | _, _ => .ok none
  | _ => .error (.attributeError "object has no attribute 'get'")

/-- What a button is for. -/
inductive PressKind
  | kitchen
  | order
deriving DecidableEq

/-- What a button says. -/
structure Press where
  kind : PressKind
  entityId : String
  event : String

/-- The `kind` of a payload. -/
def PressKind.ofJson : Json → Option PressKind
  | .str "kitchen" => some .kitchen
  | .str "order" => some .order
  | _ => none

/-- The payload of a callback; `none` is answered 200 at once. -/
def pressOf (cfg : Settings) (callback : List (String × Json)) : Except PyError (Option Press) :=
  let payload := Json.get callback "payload" .null
  let raw := if payload.truthy then payload else Json.get callback "data" .null
  match if raw.truthy then raw else .str "" with
  | .str text =>
      match jsonLoads cfg.loads text with
      | .ok (.obj fields) =>
          let entityId := Json.get fields "id" .null
          let event := Json.get fields "event" .null
          match PressKind.ofJson (Json.get fields "kind" .null) with
          | none => .ok none
          | some kind =>
              if !entityId.truthy || !event.truthy then .ok none
              else .ok (some ⟨kind, jsonText cfg entityId, jsonText cfg event⟩)
      | .ok _ => .error (.attributeError "object has no attribute 'get'")
      | .error (.typeError _) => .ok none
      | .error (.valueError _) => .ok none
      | .error e => .error e
  | _ => .ok none

/-- The active staff member with a MAX user id. -/
def staffByMaxId (d : Database) (maxUserId : Int) : Option StaffMember :=
  d.staff.rows.find? fun row => row.maxUserId = some maxUserId && row.active

/-- `StaffService.find_by_max_user_id`: the column is a `BIGINT`. -/
def findByMaxUserId (maxUserId : Int) : Async (Option StaffMember) :=
  Prog.withSession do
    if -2 ^ 63 ≤ maxUserId ∧ maxUserId < 2 ^ 63 then
      Prog.select fun (d : Database) => staffByMaxId d maxUserId
    else throw .dbapiError

/-- The dispatch of a press to the service it is for. -/
def dispatchPress (role : StaffRole) (press : Press) : Async Unit :=
  match press.kind with
  | .kitchen => do
      let _ ← dispatchKitchen role press.entityId press.event
      return ()
  | .order => do
      let _ ← dispatchOrder role press.entityId press.event
      return ()

/-- An update from its sender on. -/
def handleCallback (cfg : Settings) (callback : List (String × Json)) (sender : Int) :
    Async Nat := do
  match ← findByMaxUserId sender with
  | none => return 200
  | some member => do
      match ← ofExcept (pressOf cfg callback) with
      | none => return 200
      | some press => do
          dispatchPress member.role press
          return 200

/-- `max_webhook`: the HTTP status of the answer to a request with the given
secret header and body; `none` is a body that is not JSON. -/
def maxWebhook (cfg : Settings) (secret : Option String) (body : Option Json) : Async Nat :=
  if cfg.maxWebhookSecret = "" then return 403
  else do
    let valid ← ofExcept (compareDigest (secret.getD "") cfg.maxWebhookSecret)
    if valid then do
      match body with
      | none => return 200
      | some update => do
          match ← ofExcept (callbackOf update) with
          | none => return 200
          | some (callback, sender) => handleCallback cfg callback sender
    else return 403

end Sieshka
