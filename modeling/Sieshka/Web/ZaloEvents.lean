import Sieshka.Doubles
import Sieshka.Services.MaxWebappAuth

/-!
# `zalo_events`

The signature of a webhook event: the text that the server hashes, and the text that the
sender hashes by the rule in the documentation of the signature, which is JavaScript.

## Implementation notes

A number literal with neither a fraction nor an exponent is an `int`, every other one a
`float`. A string is a sequence of code points; a pair of surrogates in a literal is one code
point. The log is left out.
-/

namespace Sieshka

open MaxWebappAuth

namespace ZaloEvents

/-- A value that `request.json()` can return. A `float` is given by its literal: the digits
without the point, and their power of ten. -/
inductive Value
  | null
  | bool (b : Bool)
  | int (n : ℤ)
  | float (negative : Bool) (coefficient : ℕ) (exponent : ℤ)
  | str (s : Text)
  | arr (items : List Value)
  | obj (fields : List (Text × Value))

/-- The size of the double that a `float` is. -/
def floatSize (coefficient : ℕ) (exponent : ℤ) : Doubles.Magnitude :=
  Doubles.magnitude (coefficient * 10 ^ exponent)

/-- The size of the double that JavaScript has for an `int`. -/
def intSize (n : ℤ) : Doubles.Magnitude := Doubles.magnitude n.natAbs

/-! ## Numbers -/

def signed (negative : Bool) (size : List Char) : List Char :=
  if negative then '-' :: size else size

def zeros (n : ℤ) : List Char := List.replicate n.toNat '0'

/-- The digits with a point behind the first, where there are more. -/
def mantissa : List Char → List Char
  | [] => []
  | [c] => [c]
  | c :: rest => c :: '.' :: rest

/-- `[mantissa]e[+-][digits]`, with at least so many digits. -/
def exponential (digits : List Char) (power : ℤ) (width : ℕ) : List Char :=
  let size := Nat.toDigits 10 power.natAbs
  mantissa digits ++ 'e' :: (if power < 0 then '-' else '+') ::
    (List.replicate (width - size.length) '0' ++ size)

/-- The digits around the point at place `n`. -/
def fixed (digits : List Char) (n : ℤ) : List Char :=
  if n ≤ 0 then '0' :: '.' :: (zeros (-n) ++ digits)
  else digits.take n.toNat ++ '.' :: digits.drop n.toNat

/-- `repr` of a positive `float`. -/
def reprDecimal (d : Doubles.Decimal) : List Char :=
  if d.point ≤ -4 ∨ 16 < d.point then exponential d.digits (d.point - 1) 2
  else if d.digits.length ≤ d.point then
    d.digits ++ zeros (d.point - d.digits.length) ++ ['.', '0']
  else fixed d.digits d.point

/-- `Number::toString` of a positive number. -/
def jsDecimal (d : Doubles.Decimal) : List Char :=
  if d.digits.length ≤ d.point ∧ d.point ≤ 21 then
    d.digits ++ zeros (d.point - d.digits.length)
  else if -6 < d.point ∧ d.point ≤ 21 then fixed d.digits d.point
  else exponential d.digits (d.point - 1) 1

/-- `repr` of a `float`. -/
def reprFloat (negative : Bool) : Doubles.Magnitude → List Char
  | .zero => signed negative ['0', '.', '0']
  | .finite d => signed negative (reprDecimal d)
  | .infinite => signed negative "inf".toList

/-- A `float` in a JSON text. -/
def dumpsFloat (negative : Bool) : Doubles.Magnitude → List Char
  | .infinite => signed negative "Infinity".toList
  | size => reprFloat negative size

/-- `String(number)`. -/
def jsNumber (negative : Bool) : Doubles.Magnitude → List Char
  | .zero => ['0']
  | .finite d => signed negative (jsDecimal d)
  | .infinite => signed negative "Infinity".toList

/-- `JSON.stringify(number)`. -/
def stringifyNumber (negative : Bool) : Doubles.Magnitude → List Char
  | .infinite => "null".toList
  | size => jsNumber negative size

/-- `str` of an `int`. -/
def intText (n : ℤ) : List Char := signed (n < 0) (Nat.toDigits 10 n.natAbs)

/-! ## Strings -/

def chars (t : List Char) : Text := t.map codePoint

/-- An escape with hexadecimal digits. -/
def hexEscape (letter : Char) (width n : ℕ) : Text :=
  chars ('\\' :: letter :: hexDigits width n)

/-- The letter of a short escape in a JSON text. -/
def shortEscape (c : CodePoint) : Option Char :=
  if c = codePoint '"' then some '"'
  else if c = codePoint '\\' then some '\\'
  else if c.val = 0x08 then some 'b'
  else if c.val = 0x09 then some 't'
  else if c.val = 0x0a then some 'n'
  else if c.val = 0x0c then some 'f'
  else if c.val = 0x0d then some 'r'
  else none

/-- A code point in a string of `json.dumps`: what is not ASCII is escaped, in two halves
where four digits do not hold it. -/
def dumpsChar (c : CodePoint) : Text :=
  match shortEscape c with
  | some letter => chars ['\\', letter]
  | none =>
      if 0x20 ≤ c.val ∧ c.val ≤ 0x7e then [c]
      else if c.val < 0x10000 then hexEscape 'u' 4 c.val
      else hexEscape 'u' 4 (0xd800 + (c.val - 0x10000) / 0x400) ++
        hexEscape 'u' 4 (0xdc00 + (c.val - 0x10000) % 0x400)

/-- A code point in a string of `JSON.stringify`. -/
def stringifyChar (c : CodePoint) : Text :=
  match shortEscape c with
  | some letter => chars ['\\', letter]
  | none => if c.val < 0x20 ∨ surrogate c then hexEscape 'u' 4 c.val else [c]

/-- A code point in the `repr` of a string, given the quotes and the characters outside ASCII
that `str.isprintable` holds of. -/
def reprChar (printable : CodePoint → Bool) (quote c : CodePoint) : Text :=
  if c = quote ∨ c = codePoint '\\' then [codePoint '\\', c]
  else if c.val = 0x09 then chars ['\\', 't']
  else if c.val = 0x0a then chars ['\\', 'n']
  else if c.val = 0x0d then chars ['\\', 'r']
  else if c.val < 0x20 ∨ c.val = 0x7f then hexEscape 'x' 2 c.val
  else if c.val < 0x7f then [c]
  else if printable c && !surrogate c then [c]
  else if c.val < 0x100 then hexEscape 'x' 2 c.val
  else if c.val < 0x10000 then hexEscape 'u' 4 c.val
  else hexEscape 'U' 8 c.val

def quoted (quote : CodePoint) (body : Text) : Text := quote :: (body ++ [quote])

def dumpsStr (s : Text) : Text := quoted (codePoint '"') (s.flatMap dumpsChar)

def stringifyStr (s : Text) : Text := quoted (codePoint '"') (s.flatMap stringifyChar)

/-- The quotes of a `repr`: double ones where they save an escape. -/
def reprQuote (s : Text) : CodePoint :=
  if codePoint '\'' ∈ s ∧ codePoint '"' ∉ s then codePoint '"' else codePoint '\''

def reprStr (printable : CodePoint → Bool) (s : Text) : Text :=
  quoted (reprQuote s) (s.flatMap (reprChar printable (reprQuote s)))

/-! ## Values -/

def bracketed (opening closing : Char) (separator : List Char) (texts : List Text) : Text :=
  codePoint opening :: ((chars separator).intercalate texts ++ [codePoint closing])

/-- A key, and the text of its value behind the colon. -/
def member (keyText : Text → Text) (colon : List Char) (field : Text × Text) : Text :=
  keyText field.1 ++ (chars colon ++ field.2)

/-- The number that a key spells, where it is the index of an array. -/
def arrayIndex (key : Text) : Option ℕ :=
  let n := key.foldl (fun value c => 10 * value + (c.val - 0x30)) 0
  if n < 2 ^ 32 - 1 ∧ key = chars (Nat.toDigits 10 n) then some n else none

/-- Indices come before the other keys. -/
def rank (key : Text) : ℕ := (arrayIndex key).getD (2 ^ 32 - 1)

/-- The order that an object has its keys in: indices by size, the others as they were put. -/
def jsOrder (fields : List (Text × Text)) : List (Text × Text) :=
  fields.insertionSort fun a b => rank a.1 ≤ rank b.1

/-- How the values of one kind are written. -/
structure Style where
  null : List Char
  bool : Bool → List Char
  int : ℤ → List Char
  float : Bool → Doubles.Magnitude → List Char
  str : Text → Text
  comma : List Char
  colon : List Char
  /-- the order of the fields of an object -/
  order : List (Text × Text) → List (Text × Text)

namespace Value

variable (S : Style)

mutual

def write : Value → Text
  | null => chars S.null
  | bool b => chars (S.bool b)
  | int n => chars (S.int n)
  | float negative coefficient exponent =>
      chars (S.float negative (floatSize coefficient exponent))
  | str s => S.str s
  | arr items => bracketed '[' ']' S.comma (writeItems items)
  | obj fields =>
      bracketed '{' '}' S.comma ((S.order (writeFields fields)).map (member S.str S.colon))

def writeItems : List Value → List Text
  | [] => []
  | item :: items => item.write :: writeItems items

def writeFields : List (Text × Value) → List (Text × Text)
  | [] => []
  | (key, value) :: fields => (key, value.write) :: writeFields fields

end

end Value

/-- `json.dumps(value, separators=(",", ":"))`. -/
def dumpsStyle : Style where
  null := "null".toList
  bool b := if b then "true".toList else "false".toList
  int := intText
  float := dumpsFloat
  str := dumpsStr
  comma := [',']
  colon := [':']
  order fields := fields

/-- `repr(value)`. -/
def reprStyle (printable : CodePoint → Bool) : Style where
  null := "None".toList
  bool b := if b then "True".toList else "False".toList
  int := intText
  float := reprFloat
  str := reprStr printable
  comma := [',', ' ']
  colon := [':', ' ']
  order fields := fields

/-- `JSON.stringify(value)`. -/
def stringifyStyle : Style where
  null := "null".toList
  bool b := if b then "true".toList else "false".toList
  int n := stringifyNumber (n < 0) (intSize n)
  float := stringifyNumber
  str := stringifyStr
  comma := [',']
  colon := [':']
  order := jsOrder

namespace Value

/-- `str(value)`. -/
def pyStr (printable : CodePoint → Bool) : Value → Text
  | str s => s
  | value => value.write (reprStyle printable)

/-- What the server hashes of a value. -/
def hashed (printable : CodePoint → Bool) : Value → Text
  | obj fields => (obj fields).write dumpsStyle
  | value => value.pyStr printable

/-- What the sender hashes of a value: `String(value)` of a scalar, which is
`JSON.stringify(value)` of `null` and of a `bool`, and `JSON.stringify(value)` of an object or
an array. -/
def sent : Value → Text
  | int n => chars (jsNumber (n < 0) (intSize n))
  | float negative coefficient exponent =>
      chars (jsNumber negative (floatSize coefficient exponent))
  | str s => s
  | value => value.write stringifyStyle

end Value

/-! ## The signature -/

/-- A JSON object. -/
abbrev Payload := List (Text × Value)

/-- `sorted(payload.keys())`, each key with its value. -/
def sortedFields (payload : Payload) : List (Text × Value) :=
  payload.insertionSort fun a b => a.1 ≤ b.1

/-- `content`. -/
def content (printable : CodePoint → Bool) (payload : Payload) : Text :=
  (sortedFields payload).flatMap fun field => field.2.hashed printable

/-- `f"{content}{api_key}".encode()`, as the text that the bytes spell. -/
def hashedText (printable : CodePoint → Bool) (payload : Payload) (apiKey : String) :
    Except PyError String :=
  encode (content printable payload ++ Text.ofString apiKey)

/-- `verify_zalo_signature`. -/
def verifyZaloSignature (printable : CodePoint → Bool) (sha256 : String → BitVec 256)
    (payload : Payload) (signature : Text) (apiKey : String) : Except PyError Bool := do
  let expected := hexdigest (sha256 (← hashedText printable payload apiKey))
  compareDigest expected signature

/-- The text in UTF-16, read by character: a surrogate without its other half is replaced. -/
def wellFormed : Text → List Char
  | [] => []
  | [c] => [if surrogate c then Char.ofNat 0xfffd else Char.ofNat c.val]
  | hi :: lo :: rest =>
      if (0xd800 ≤ hi.val ∧ hi.val < 0xdc00) ∧ 0xdc00 ≤ lo.val ∧ lo.val < 0xe000 then
        Char.ofNat (0x10000 + (hi.val - 0xd800) * 0x400 + (lo.val - 0xdc00)) :: wellFormed rest
      else
        (if surrogate hi then Char.ofNat 0xfffd else Char.ofNat hi.val) :: wellFormed (lo :: rest)

/-- The text that the sender hashes. -/
def sentText (payload : Payload) (apiKey : String) : String :=
  String.ofList (wellFormed
    (((sortedFields payload).flatMap fun field => field.2.sent) ++ Text.ofString apiKey))

/-- `X-ZEvent-Signature`. -/
def signature (sha256 : String → BitVec 256) (payload : Payload) (apiKey : String) : Text :=
  hexdigest (sha256 (sentText payload apiKey))

end ZaloEvents

end Sieshka
