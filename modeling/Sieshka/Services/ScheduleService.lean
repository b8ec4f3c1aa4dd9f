import Sieshka.Schedule

/-!
# The schedule service

The windows in effect on a day, and when a window is open.
-/

namespace Sieshka.ScheduleService

open Transactions

/-! ## Windows in effect -/

/-- `ORDER BY period, effective_date NULLS LAST`. -/
def orderedBefore (a b : ScheduleWindow) : Bool :=
  match a.slice.period, b.slice.period with
  | .evening, .morning => true
  | .morning, .evening => false
  | _, _ =>
      match a.slice.effectiveDate, b.slice.effectiveDate with
      | some x, some y => decide (x ≤ y)
      | none, some _ => false
      | _, none => true

/-- The rows `_load_windows` selects. -/
def windowRows (today : Nat) (d : ScheduleDatabase) : List ScheduleWindow :=
  (d.windows.filter fun w =>
    w.slice.effectiveDate = some today ∨ w.slice.effectiveDate = none).mergeSort orderedBefore

/-- The dictionary of `_load_windows`. -/
abbrev Windows := SchedulePeriod → Option ScheduleWindow

/-- One row of the loop of `_load_windows`: the first row of a period stays. -/
def addWindow (windows : Windows) (row : ScheduleWindow) : Windows := fun period =>
  if period = row.slice.period ∧ windows period = none then some row else windows period

/-- The loop of `_load_windows`. -/
def firstOfPeriod (rows : List ScheduleWindow) : Windows := rows.foldl addWindow fun _ => none

/-- `_load_windows`. -/
def loadWindows : ScheduleTool Windows := do
  let today ← menuToday
  let rows ← Prog.select (windowRows today)
  return firstOfPeriod rows

/-! ## Open windows -/

/-- `_EOD_SENTINEL`. -/
def eodSentinel : PyTime :=
  { hour := 23, minute := 59, second := 59, microsecond := 0, offset := none, valid := by decide }

end Sieshka.ScheduleService
