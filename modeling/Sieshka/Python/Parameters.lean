import Sieshka.Python.Time
import Sieshka.Transactions.Queries

/-!
# Parameters of statements

What the driver and the server refuse to take as a parameter of a statement:
a text with `U+0000`, an integer outside its column's range, a value of a type
the column does not have. Column lengths are left out, but for `customers.name`.

## Implementation notes

A text is a sequence of scalar values: one with a lone surrogate, which the driver
cannot encode either, is left out.
-/

namespace Sieshka

open Transactions

/-- What the tools leave to Python, the driver and the server. -/
structure Backend where
  /-- `lower()` of the server -/
  lower : String → String
  /-- `repr()` of a text -/
  repr : String → String
  /-- `repr()` of a finite float -/
  reprFloat : ℚ → String
  /-- the text form of a `UUID` parameter, as the driver reads it -/
  readUuid : String → Option Uuid
  /-- `datetime.time.fromisoformat`, whose forms depend on the version of Python -/
  timeFromIsoformat : String → Option PyTime

/-- A text the server can store. -/
def storable (s : String) : Bool := s.toList.all fun c => c.toNat ≠ 0

/-- A text that a `VARCHAR(n)` column takes: past its length there are only spaces. -/
def varcharFits (n : Nat) (s : String) : Bool :=
  storable s && (s.toList.drop n).all (· = ' ')

/-- What a `VARCHAR(n)` column stores of a text it takes. -/
def varchar (n : Nat) (s : String) : String := String.ofList (s.toList.take n)

/-- A number in the range of `INTEGER`. -/
def int4 (n : Int) : Bool := decide (-2147483648 ≤ n ∧ n ≤ 2147483647)

section Binding

variable {D W L M α : Type} [RowStore D W L]

/-- A statement is sent with a parameter that is taken or refused. -/
def bindParam (taken : Bool) : Prog D W L M PyError Unit :=
  if taken then return () else throw .dbapiError

/-- `UUID(text)` where it raises. -/
def liftExcept : Except PyError α → Prog D W L M PyError α
  | .ok a => return a
  | .error e => throw e

@[simp] theorem returns_bindParam {E₀ : Engine D W} {s s' : Quiet D M} {taken : Bool} {u : Unit} :
    (bindParam taken : Prog D W L M PyError Unit).Returns E₀ s u s' ↔ taken = true ∧ s' = s := by
  simp [bindParam]

@[simp] theorem returns_liftExcept {E₀ : Engine D W} {s s' : Quiet D M} {x : Except PyError α}
    {a : α} : (liftExcept x : Prog D W L M PyError α).Returns E₀ s a s' ↔ x = .ok a ∧ s' = s := by
  cases x with
  | ok b => simp [liftExcept, eq_comm]
  | error e => simp [liftExcept]

section Rules

variable {C R : Type} {K : Contract C D W L M PyError R} {c : C} {x : CallState D W L M}

/-- A parameter is taken, or the driver raises. -/
theorem wp_bindParam {taken : Bool} {Q : Except PyError Unit → CallState D W L M → Prop}
    (hok : taken = true → Q (.ok ()) x) (hno : Q (.error .dbapiError) x) :
    K.wp c (bindParam taken) Q x := by
  cases taken with
  | true => exact hok rfl
  | false => exact hno

theorem wp_liftExcept {r : Except PyError α} {Q : Except PyError α → CallState D W L M → Prop}
    (hok : ∀ a, r = .ok a → Q (.ok a) x) (hno : ∀ e, r = .error e → Q (.error e) x) :
    K.wp c (liftExcept r) Q x := by
  cases r with
  | ok a => exact hok a rfl
  | error e => exact hno e rfl

end Rules

end Binding

/-- `str.lower()` of a text that is looked up among the words `true`, `yes`, `on`,
`false`, `no`, `off`: the two letters outside ASCII with a lower case in it become
`i` and `k`, which none of the words has. -/
def asciiLower (s : String) : String := String.ofList (s.toList.map Char.toLower)

/-- A server and a driver on ASCII texts, with floats that are whole and times of
whole minutes. -/
def asciiBackend : Backend where
  lower := asciiLower
  repr s := "'" ++ s ++ "'"
  reprFloat q := toString q.floor ++ ".0"
  readUuid := readUuid
  timeFromIsoformat := PyTime.ofText

namespace Json

/-- A text that is not blank. -/
def text? : Json → Option String
  | str s => if strip s = "" then none else some s
  | _ => none

/-- An `int` that is no `bool`. -/
def int? : Json → Option Int
  | int n => some n
  | _ => none

/-- An optional field: `null` leaves it out, and any other value has to be read. -/
def optional {α : Type} (read : Json → Option α) : Json → Option (Option α)
  | null => some none
  | v => (read v).map some

end Json

end Sieshka
