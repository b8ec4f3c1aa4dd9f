import Sieshka.Zones

/-!
# Tools of the zone agent

The apply phase for delivery zones: a validator and a writer for the four
actions. Both read the command with one function.

## Implementation notes

The reason a validator gives through `diagnostics` is left out, as are the log
lines. A tool never commits: that is up to the session it is given.
-/

namespace Sieshka.ZoneAgentTools

open Transactions ZoneDatabase

/-! ## Commands -/

/-- What `_required_command_shape` lets through: an action and the fields it has
been checked to have. -/
inductive ZoneCommand
  | create (name : String) (deliveryTimeMinutes : Int) (deliveryFeeRub : Option Int)
  | update (target : String) (name : Option String)
      (deliveryTimeMinutes deliveryFeeRub : Option Int)
  | deactivate (target : String)
  | activate (target : String)
deriving DecidableEq

/-- A positive `int`. -/
def minutes (v : Json) : Option Int := v.int?.filter fun n => 0 < n

/-- An `int` that is not negative. -/
def fee (v : Json) : Option Int := v.int?.filter fun n => 0 ≤ n

/-- `_required_command_shape`. -/
def requiredCommandShape : Json → Option ZoneCommand
  | .obj fields => do
      let name := (Json.get fields "name" .null).text?
      let target := (Json.get fields "target_zone_name" .null).text?
      let deliveryFeeRub ← (Json.get fields "delivery_fee_rub" .null).optional fee
      match Json.get fields "action" .null with
      | .str "create" => do
          let name ← name
          let deliveryTimeMinutes ← minutes (Json.get fields "delivery_time_minutes" .null)
          return .create name deliveryTimeMinutes deliveryFeeRub
      | .str "update" => do
          let target ← target
          let deliveryTimeMinutes ←
            (Json.get fields "delivery_time_minutes" .null).optional minutes
          if name = none ∧ deliveryTimeMinutes = none ∧ deliveryFeeRub = none then none
          else some (.update target name deliveryTimeMinutes deliveryFeeRub)
      | .str "deactivate" => target.map .deactivate
      | .str "activate" => target.map .activate
      | _ => none
  | _ => none

/-- The result of a writer. -/
inductive ZoneOutput
  | row (action : String) (zone : Zone)
  | deactivated (id : Uuid)
deriving DecidableEq

variable (B : Backend)

/-! ## Zones by name -/

/-- The locked zone that a writer resolves a name to. -/
def lockZone (active : Bool) (target : String) : ZoneTool Zone := do
  bindParam (storable target)
  let found ← deliveryZones.filterForUpdate fun z =>
    B.lower z.name = B.lower target ∧ z.isActive = active
  match found with
  | [zone] => return zone
  | rows => throw (.valueError ((if active then "target zone" else "retired zone") ++
      " not uniquely resolvable at write time: " ++ B.repr target ++
      " (" ++ toString rows.length ++ " matches)"))

/-- `zone name already in use by an active zone`, with the `repr` of the name. -/
def nameInUse (name : String) : PyError :=
  .valueError ("zone name already in use by an active zone: " ++ name)

/-- No active zone but `self` carries the name. -/
def requireNameFree (name : String) (self : Option Uuid) : ZoneTool Unit := do
  bindParam (storable name)
  let dup ← Prog.select fun d =>
    (named B.lower true name d).filter fun z => some z.id ≠ self
  if dup.isEmpty then return () else throw (nameInUse (B.repr name))

/-- The name a zone is given, if any, is carried by no other active zone. -/
def requireRename (self : Uuid) : Option String → ZoneTool Unit
  | none => return ()
  | some name => requireNameFree B name (some self)

/-- `except IntegrityError`: a violated index is reported like a name in use. -/
def orNameInUse {α : Type} (name : String) (statement : ZoneTool α) : ZoneTool α :=
  tryCatch statement fun err => throw (if err = .integrityError then nameInUse name else err)

/-- `UPDATE ... WHERE id = :id RETURNING *` with `result.one()`. -/
def updateZone (id : Uuid) (f : Zone → Zone) : ZoneTool Zone := do
  let row ← (zoneNames B.lower).rewrite .integrityError id f
  match row with
  | none => throw .noResultFound
  | some row => return row

/-! ## The pair -/

/-- `validate_apply_zone_command`. -/
def validateApplyZoneCommand (command : Json) : ZoneTool Int :=
  match requiredCommandShape command with
  | none => return 0
  | some (.create name _ _) => do
      bindParam (storable name)
      let dup ← Prog.select (named B.lower true name)
      return if dup.isEmpty then 1 else 0
  | some (.update target _ _ _) => do
      bindParam (storable target)
      let rows ← Prog.select (named B.lower true target)
      return if rows.length = 1 then 1 else 0
  | some (.deactivate target) => do
      bindParam (storable target)
      let rows ← Prog.select (named B.lower true target)
      return if rows.length = 1 then 1 else 0
  | some (.activate target) => do
      bindParam (storable target)
      let rows ← Prog.select (named B.lower false target)
      if rows.length ≠ 1 then return 0
      else do
        let dup ← Prog.select (named B.lower true target)
        return if dup.isEmpty then 1 else 0

/-- The row of a new zone. -/
def newZone (id : Uuid) (name : String) (deliveryTimeMinutes : Int)
    (deliveryFeeRub : Option Int) : Zone :=
  { id, name, deliveryTimeMinutes, isActive := true, deliveryFeeRub := deliveryFeeRub.getD 99 }

/-- The row of a zone after an update. -/
def editedZone (name : Option String)
    (deliveryTimeMinutes deliveryFeeRub : Option Int) (zone : Zone) : Zone :=
  { zone with
    name := name.getD zone.name
    deliveryTimeMinutes := deliveryTimeMinutes.getD zone.deliveryTimeMinutes
    deliveryFeeRub := deliveryFeeRub.getD zone.deliveryFeeRub }

/-- `apply_zone_command`. -/
def applyZoneCommand (command : Json) : ZoneTool ZoneOutput :=
  match requiredCommandShape command with
  | none => throw (.valueError "apply_zone_command: malformed command")
  | some (.create name deliveryTimeMinutes deliveryFeeRub) => do
      requireNameFree B name none
      bindParam (int4 deliveryTimeMinutes && deliveryFeeRub.all int4)
      let id ← zoneUuid
      let row := newZone id name deliveryTimeMinutes deliveryFeeRub
      orNameInUse (B.repr name) ((zoneNames B.lower).insert .integrityError row)
      return .row "create" row
  | some (.activate target) => do
      let zone ← lockZone B false target
      requireNameFree B target (some zone.id)
      let row ← orNameInUse (B.repr target)
        (updateZone B zone.id fun z => { z with isActive := true })
      return .row "activate" row
  | some (.update target name deliveryTimeMinutes deliveryFeeRub) => do
      let zone ← lockZone B true target
      requireRename B zone.id name
      bindParam (deliveryTimeMinutes.all int4 && deliveryFeeRub.all int4)
      let row ← orNameInUse ((name.map B.repr).getD "None")
        (updateZone B zone.id (editedZone name deliveryTimeMinutes deliveryFeeRub))
      return .row "update" row
  | some (.deactivate target) => do
      let zone ← lockZone B true target
      let _ ← (zoneNames B.lower).rewrite PyError.integrityError zone.id fun z =>
        { z with isActive := false }
      return .deactivated zone.id

end Sieshka.ZoneAgentTools
