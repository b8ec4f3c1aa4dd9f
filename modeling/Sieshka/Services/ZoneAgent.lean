import Sieshka.Tools.ZoneAgentTools
import Sieshka.Transactions.System

/-!
# The zone agent and its route

`ZoneAgent.apply_zone`, `ZoneService` and `PATCH /zones/{zone_id}/apply`, and any
number of these requests on one table.

## Implementation notes

The trace and its receipt are left out, and so is the reason of a rejection.
-/

namespace Sieshka

open Transactions ZoneAgentTools

/-- `ZoneApplyResult`. -/
inductive ZoneApplyResult
  /-- the command landed -/
  | applied (result : ZoneOutput)
  /-- the validator rejected the command -/
  | rejected
  /-- a tool raised, with the text of the exception -/
  | failed (error : String)
deriving DecidableEq

/-- `apply.applied`. -/
def ZoneApplyResult.isApplied : ZoneApplyResult → Bool
  | .applied _ => true
  | _ => false

variable (B : Backend)

/-- `vm.run(PROGRAM_APPLY_ZONE)`: a tool that raises makes the trace `FAILED`. -/
def runApplyZone (command : Json) : ZoneTool ZoneApplyResult :=
  tryCatch
    (do
      let valid ← validateApplyZoneCommand B command
      if valid < 1 then return .rejected
      else do
        let out ← applyZoneCommand B command
        return .applied out)
    fun e => return .failed e.message

/-- `ZoneAgent.apply_zone`. -/
def applyZone (command : Json) : ZoneTool ZoneApplyResult :=
  Prog.withSession do
    let result ← runApplyZone B command
    if result.isApplied then do
      Prog.commitSession
      return result
    else return result

/-- `ZoneService.get_by_id`. -/
def getZoneById (id : Uuid) : ZoneTool (Option Zone) :=
  Prog.withSession (deliveryZones.find id)

/-- Active zones first, the quickest first, then by name. -/
def zoneOrder (z w : Zone) : Bool :=
  if z.isActive ≠ w.isActive then z.isActive
  else if z.deliveryTimeMinutes ≠ w.deliveryTimeMinutes then
    z.deliveryTimeMinutes ≤ w.deliveryTimeMinutes
  else decide (B.lower z.name ≤ B.lower w.name)

/-- `ZoneService.list_all`. -/
def listAllZones : ZoneTool (List Zone) :=
  Prog.withSession (Prog.select fun d => d.zones.rows.mergeSort (zoneOrder B))

/-- The command that an edit of the zone called `target` becomes. -/
def editCommand (target : String) (payload : List (String × Json)) : Json :=
  .obj [("action", .str "update"), ("target_zone_name", .str target),
    ("name", Json.get payload "name" .null),
    ("delivery_time_minutes", Json.get payload "delivery_time_minutes" .null),
    ("delivery_fee_rub", Json.get payload "delivery_fee_rub" .null)]

/-- What `zone_update` does with the zone it has looked up. -/
def updateFound (payload : List (String × Json)) :
    Option Zone → ZoneTool (ZoneApplyResult × List Zone)
  | none => throw (.httpException 404 .zoneNotFound)
  | some zone => do
      let result ← applyZone B (editCommand zone.name payload)
      let zones ← listAllZones B
      return (result, zones)

/-- `PATCH /zones/{zone_id}/apply`. -/
def zoneUpdate (zoneId : Uuid) (payload : List (String × Json)) :
    ZoneTool (ZoneApplyResult × List Zone) := do
  let zone ← getZoneById zoneId
  updateFound B payload zone

/-! ## Calls -/

/-- A call of the writer in a session that commits when it returns, a call of the
agent, or a request to the route. -/
inductive ZoneCall
  | applyZoneCommand (command : Json)
  | applyZone (command : Json)
  | zoneUpdate (zoneId : Uuid) (payload : List (String × Json))

/-- What a call returns. -/
inductive ZoneAnswer
  | output (out : ZoneOutput)
  | result (result : ZoneApplyResult)
  | response (result : ZoneApplyResult) (zones : List Zone)

/-- The program of a call. -/
def zoneBody : ZoneCall → ZoneTool ZoneAnswer
  | .applyZoneCommand command => do
      let out ← Prog.transact (applyZoneCommand B command)
      return .output out
  | .applyZone command => do
      let result ← applyZone B command
      return .result result
  | .zoneUpdate zoneId payload => do
      let response ← zoneUpdate B zoneId payload
      return .response response.1 response.2

/-- Any number of calls on one `delivery_zones` table. -/
def zoneCalls : System ZoneCall ZoneDatabase ZoneWrite ZoneLock Unit PyError ZoneAnswer where
  body := zoneBody B
  restart := id
  Move := Empty
  move v _ := nomatch v

end Sieshka
