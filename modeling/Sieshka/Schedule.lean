import Sieshka.Python.Parameters

/-!
# Schedule windows

The table `schedule_windows` as a database of its own.

## Implementation notes

The two partial unique indexes let a period have one permanent window and one for
each date, so the period and the date are the key of the table. The `id` is left
out: the tools never read it.
-/

namespace Sieshka

open Transactions

inductive SchedulePeriod
  | morning
  | evening
deriving DecidableEq, Repr

/-- The text of a `period`. -/
def SchedulePeriod.ofText : String → Option SchedulePeriod
  | "morning" => some morning
  | "evening" => some evening
  | _ => none

/-- What `uq_schedule_windows_permanent` and `uq_schedule_windows_today_override` keep
apart; a date is the number of its day. -/
structure WindowSlice where
  period : SchedulePeriod
  effectiveDate : Option Nat
deriving DecidableEq

structure ScheduleWindow where
  slice : WindowSlice
  startTime : PyTime
  endTime : PyTime
  isActive : Bool
deriving DecidableEq

structure ScheduleDatabase where
  windows : Table ScheduleWindow.slice

inductive ScheduleWrite
  | window (row : ScheduleWindow)
  | delete (slice : WindowSlice)

namespace ScheduleDatabase

/-- The database after a write. -/
def put (d : ScheduleDatabase) : ScheduleWrite → ScheduleDatabase
  | .window row => { d with windows := d.windows.put row }
  | .delete slice => { d with windows := d.windows.remove slice }

/-- The row a write goes to. -/
def row : ScheduleWrite → WindowSlice
  | .window row => row.slice
  | .delete slice => slice

instance : RowStore ScheduleDatabase ScheduleWrite WindowSlice where
  Cell _ := Option ScheduleWindow
  get slice d := d.windows.find slice
  put := put
  row := row
  get_put_self d d' w := by
    cases w with
    | window row => exact (Table.find_put_self _ _).trans (Table.find_put_self _ _).symm
    | delete slice => exact (Table.find_remove_self _ _).trans (Table.find_remove_self _ _).symm
  get_put_of_ne d w l h := by
    cases w with
    | window row => exact Table.find_put_of_ne _ (Ne.symm h)
    | delete slice => exact Table.find_remove_of_ne _ h

end ScheduleDatabase

def scheduleWindows : Schema ScheduleDatabase ScheduleWindow.slice where
  table := ScheduleDatabase.windows
  lock := id
  write := .window
  row_write _ := rfl
  table_put _ _ := rfl
  find_congr _ _ _ h := h

/-- What a schedule tool does in the session it is given. -/
abbrev ScheduleTool := Prog ScheduleDatabase ScheduleWrite WindowSlice Unit PyError

/-- `datetime.datetime.now(_menu_timezone()).date()`. -/
def menuToday : ScheduleTool Nat := .choose fun n => .ret n

/-- `DELETE FROM schedule_windows WHERE period = :period AND effective_date = :today`. -/
def deleteWindow (slice : WindowSlice) : ScheduleTool Unit :=
  .stmt (fun _ => [])
    (fun d => ((d.windows.find slice).map fun _ => ScheduleWrite.delete slice).toList)
    (fun _ => true) (fun _ => .ret ()) (.raise .dbapiError)

end Sieshka
