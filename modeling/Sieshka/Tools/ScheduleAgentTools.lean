import Sieshka.Schedule

/-!
# Tools of the schedule agent

The apply phase for schedule windows: a validator and a writer. Both read the
command with one function and parse its times with another.

## Implementation notes

The log lines are left out. A tool never commits: that is up to the session it is
given.
-/

namespace Sieshka.ScheduleAgentTools

open Transactions

variable (B : Backend)

/-! ## Commands -/

/-- `_parse_time`. -/
def parseTime : Json → Option PyTime
  | .str s => if strip s = "" then none else B.timeFromIsoformat (strip s)
  | _ => none

inductive ScheduleAction
  | set_hours
  | reset_to_default
deriving DecidableEq

inductive ScheduleScope
  | today
  | permanent
deriving DecidableEq

/-- The text of an `action`. -/
def ScheduleAction.ofText : String → Option ScheduleAction
  | "set_hours" => some set_hours
  | "reset_to_default" => some reset_to_default
  | _ => none

/-- The text of a `scope`. -/
def ScheduleScope.ofText : String → Option ScheduleScope
  | "today" => some today
  | "permanent" => some permanent
  | _ => none

/-- What `_required_command_shape` returns. -/
structure ScheduleCommand where
  period : SchedulePeriod
  action : ScheduleAction
  scope : ScheduleScope
  startTime : Json
  endTime : Json

/-- A text among the known ones. -/
def known {α : Type} (ofText : String → Option α) : Json → Option α
  | .str s => ofText s
  | _ => none

/-- `_required_command_shape`. -/
def requiredCommandShape : Json → Option ScheduleCommand
  | .obj fields => do
      let period ← known SchedulePeriod.ofText (Json.get fields "period" .null)
      let action ← known ScheduleAction.ofText (Json.get fields "action" .null)
      let scope ← known ScheduleScope.ofText (Json.get fields "scope" .null)
      return { period, action, scope, startTime := Json.get fields "start_time" .null,
               endTime := Json.get fields "end_time" .null }
  | _ => none

/-! ## The pair -/

/-- `validate_apply_schedule_command`. -/
def validateApplyScheduleCommand (command : Json) : ScheduleTool Int :=
  match requiredCommandShape command with
  | none => return 0
  | some parsed =>
      match parsed.action with
      | .set_hours =>
          match parseTime B parsed.startTime, parseTime B parsed.endTime with
          | some start, some end_ => do
              let late ← liftExcept (start.ge end_)
              return if late then 0 else 1
          | _, _ => return 0
      | .reset_to_default => return if parsed.scope = .today then 1 else 0

/-- The result of the writer; `deleted` is the number of rows a reset has deleted. -/
structure ScheduleOutput where
  period : SchedulePeriod
  action : ScheduleAction
  scope : ScheduleScope
  deleted : Option Nat
deriving DecidableEq

/-- The window a period is given, as the columns keep it. -/
def newWindow (slice : WindowSlice) (start end_ : PyTime) : ScheduleWindow :=
  { slice, startTime := start.wall, endTime := end_.wall, isActive := true }

/-- `INSERT ... ON CONFLICT ... DO UPDATE` of a window for good or for one day. -/
def setHours (period : SchedulePeriod) (scope : ScheduleScope) (start end_ : PyTime) :
    ScheduleTool Unit := do
  let today ← menuToday
  let effective := match scope with
    | .permanent => none
    | .today => some today
  scheduleWindows.upsert (newWindow ⟨period, effective⟩ start end_)

/-- `apply_schedule_command`. -/
def applyScheduleCommand (command : Json) : ScheduleTool ScheduleOutput :=
  match requiredCommandShape command with
  | none => throw (.valueError "apply_schedule_command: malformed command")
  | some parsed =>
      match parsed.action with
      | .set_hours =>
          match parseTime B parsed.startTime, parseTime B parsed.endTime with
          | some start, some end_ => do
              let late ← liftExcept (start.ge end_)
              if late then
                throw (.valueError "apply_schedule_command: start_time >= end_time at write time")
              else do
                setHours parsed.period parsed.scope start end_
                return { period := parsed.period, action := parsed.action, scope := parsed.scope,
                         deleted := none }
          | _, _ => throw (.valueError "apply_schedule_command: invalid times at write time")
      | .reset_to_default =>
          if parsed.scope = .permanent then throw .assertionError
          else do
            let today ← menuToday
            let before ← scheduleWindows.find ⟨parsed.period, some today⟩
            deleteWindow ⟨parsed.period, some today⟩
            return { period := parsed.period, action := parsed.action, scope := parsed.scope,
                     deleted := some before.toList.length }

end Sieshka.ScheduleAgentTools
