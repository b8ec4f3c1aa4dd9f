import Sieshka.Python.Values

/-!
# Times of the day

`datetime.time`, naive or with an offset from UTC, and the comparison that raises
on one of each kind.
-/

namespace Sieshka

/-- `datetime.time`; a time that is aware has an offset, in microseconds. -/
structure PyTime where
  hour : Nat
  minute : Nat
  second : Nat
  microsecond : Nat
  offset : Option Int
  valid : hour < 24 ∧ minute < 60 ∧ second < 60 ∧ microsecond < 1000000 ∧
    offset.all fun x => x.natAbs < 86400000000
deriving DecidableEq

namespace PyTime

/-- The microseconds since midnight; of an offset only whole seconds count. -/
def instant (t : PyTime) (offset : Int) : Int :=
  (t.hour * 3600 + t.minute * 60 + t.second - offset / 1000000) * 1000000 + t.microsecond

/-- `t >= u`. -/
def ge (t u : PyTime) : Except PyError Bool :=
  match t.offset, u.offset with
  | none, none => .ok (u.instant 0 ≤ t.instant 0)
  | some x, some y => .ok (u.instant y ≤ t.instant x)
  | _, _ => .error (.typeError "can't compare offset-naive and offset-aware times")

/-- Two times are compared if both are naive or both are aware. -/
theorem ge_isOk {t u : PyTime} : (∃ b, t.ge u = .ok b) ↔ t.offset.isSome = u.offset.isSome := by
  cases ht : t.offset <;> cases hu : u.offset <;> simp [ge, ht, hu]

/-- What a column without time zone keeps: the driver drops the offset. -/
def wall (t : PyTime) : PyTime :=
  { t with offset := none, valid := by simp [t.valid] }

/-- A number of two digits. -/
def twoDigits (a b : Char) : Option Nat :=
  if a.isDigit ∧ b.isDigit then some ((a.toNat - 48) * 10 + (b.toNat - 48)) else none

/-- A time of whole minutes. -/
def ofMinutes (hour minute : Nat) (offset : Option Int) : Option PyTime :=
  if h : hour < 24 ∧ minute < 60 ∧ offset.all fun x => x.natAbs < 86400000000 then
    some { hour, minute, second := 0, microsecond := 0, offset, valid := by simp [h] }
  else none

/-- `HH:MM` and `HH:MM+HH:MM`. -/
def ofText (s : String) : Option PyTime :=
  match s.toList with
  | [a, b, ':', c, d] => do
      let hour ← twoDigits a b
      let minute ← twoDigits c d
      ofMinutes hour minute none
  | [a, b, ':', c, d, '+', e, f, ':', g, h] => do
      let hour ← twoDigits a b
      let minute ← twoDigits c d
      let offsetHour ← twoDigits e f
      let offsetMinute ← twoDigits g h
      ofMinutes hour minute (some ((offsetHour * 60 + offsetMinute) * 60000000))
  | _ => none

end PyTime

end Sieshka
