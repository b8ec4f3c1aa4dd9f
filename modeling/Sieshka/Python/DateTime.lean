import Mathlib.Data.Nat.Notation
import Mathlib.Order.Basic

/-!
# Points in time

`datetime.datetime` in UTC, as the driver reads a column with time zone.
-/

namespace Sieshka

/-- The days of a month. -/
def daysInMonth (year month : ℕ) : ℕ :=
  if month = 2 then
    if year % 4 = 0 ∧ (year % 100 ≠ 0 ∨ year % 400 = 0) then 29 else 28
  else if month ∈ [4, 6, 9, 11] then 30
  else 31

/-- `datetime.datetime` in UTC. -/
structure DateTime where
  year : ℕ
  month : ℕ
  day : ℕ
  hour : ℕ
  minute : ℕ
  second : ℕ
  microsecond : ℕ
  valid : (1 ≤ year ∧ year ≤ 9999) ∧ (1 ≤ month ∧ month ≤ 12) ∧
    (1 ≤ day ∧ day ≤ daysInMonth year month) ∧ hour < 24 ∧ minute < 60 ∧ second < 60 ∧
      microsecond < 1000000
deriving DecidableEq

/-- The last `width` decimal digits of a number. -/
def padded : ℕ → ℕ → List Char
  | 0, _ => []
  | width + 1, n => padded width (n / 10) ++ [Char.ofNat (48 + n % 10)]

namespace DateTime

/-- A number that grows with the time. -/
def instant (t : DateTime) : ℕ :=
  (((((t.year * 12 + t.month) * 31 + t.day) * 24 + t.hour) * 60 + t.minute) * 60 + t.second) *
    1000000 + t.microsecond

/-- The characters of `t.date().isoformat()`. -/
def dateChars (t : DateTime) : List Char :=
  padded 4 t.year ++ '-' :: (padded 2 t.month ++ '-' :: padded 2 t.day)

/-- `t.date().isoformat()`. -/
def date (t : DateTime) : String := String.ofList t.dateChars

/-- `t.isoformat()`. -/
def isoformat (t : DateTime) : String :=
  String.ofList (t.dateChars ++ 'T' :: (padded 2 t.hour ++ ':' :: (padded 2 t.minute ++
    ':' :: (padded 2 t.second ++ ((if t.microsecond = 0 then [] else '.' :: padded 6 t.microsecond) ++
      "+00:00".toList)))))

end DateTime

/-- A padded number begins with a digit. -/
theorem head_padded (width n : ℕ) :
    ∃ d < 10, (padded (width + 1) n).head? = some (Char.ofNat (48 + d)) := by
  induction width generalizing n with
  | zero => exact ⟨n % 10, Nat.mod_lt _ (by decide), rfl⟩
  | succ width ih =>
      obtain ⟨d, hd, hhead⟩ := ih (n / 10)
      apply Exists.intro d
      constructor
      · exact hd
      · rw [padded, List.head?_append, hhead, Option.some_or]

end Sieshka
