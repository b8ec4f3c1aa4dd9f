import Sieshka.Python.Parameters

/-!
# Floats

A `float` as far as the services compare it, print it and store it.
-/

namespace Sieshka

/-- A `float`. -/
inductive PyFloat
  | value (q : ℚ)
  | nan
  | inf (negative : Bool)
deriving DecidableEq

namespace PyFloat

/-- `x < q`. -/
def lt (x : PyFloat) (q : ℚ) : Bool :=
  match x with
  | value p => p < q
  | nan => false
  | inf negative => negative

/-- `x > q`. -/
def gt (x : PyFloat) (q : ℚ) : Bool :=
  match x with
  | value p => q < p
  | nan => false
  | inf negative => !negative

/-- `x <= q`. -/
def le (x : PyFloat) (q : ℚ) : Bool :=
  match x with
  | value p => p ≤ q
  | nan => false
  | inf negative => negative

/-- `repr(x)`. -/
def repr (B : Backend) : PyFloat → String
  | value q => B.reprFloat q
  | nan => "nan"
  | inf negative => if negative then "-inf" else "inf"

/-- The half cent away from zero, in cents. -/
def cents (q : ℚ) : Int :=
  if 0 ≤ q then (q * 100 + 1 / 2).floor else -((-q * 100 + 1 / 2).floor)

/-- The value of a `NUMERIC(10, 2)` column, `none` for `NaN`. -/
def numeric : PyFloat → Option ℚ
  | value q => some (cents q / 100)
  | _ => none

/-- Whether a `NUMERIC(10, 2)` column holds the value. -/
def fitsNumeric : PyFloat → Bool
  | value q => decide ((cents q).natAbs < 10 ^ 10)
  | nan => true
  | inf _ => false

end PyFloat

end Sieshka
