import Sieshka.Python.Values
import Mathlib.Data.List.Lex
import Mathlib.Data.List.Sort
import Mathlib.Order.Fin.Basic

/-!
# `validate_init_data`

The check of the signed data that a mini app is launched with.

## Implementation notes

A text is a sequence of code points, surrogates included: what the client sends is not
decoded before it is looked at. The log is left out.
-/

namespace Sieshka

namespace MaxWebappAuth

abbrev CodePoint := Fin 0x110000

instance : LawfulBEq CodePoint := inferInstance

/-- A `str`. -/
abbrev Text := List CodePoint

def codePoint (c : Char) : CodePoint := Fin.ofNat _ c.toNat

def Text.ofString (s : String) : Text := s.toList.map codePoint

def surrogate (c : CodePoint) : Bool := 0xd800 ≤ c.val && c.val < 0xe000

def Text.isAscii (t : Text) : Bool := t.all fun c => c.val < 0x80

/-- `text.encode("utf-8")`, as the text that the bytes spell. -/
def encode (t : Text) : Except PyError String :=
  if t.any surrogate then
    .error (.valueError "'utf-8' codec can't encode character: surrogates not allowed")
  else .ok (String.ofList (t.map fun c => Char.ofNat c.val))

/-- `int(text)`: no literal has a surrogate. -/
def toInt (t : Text) : Except PyError Int := do
  let s ← encode t
  Json.toInt (.str s)

/-- `hmac.compare_digest` of two texts. -/
def compareDigest (a b : Text) : Except PyError Bool :=
  if a.isAscii && b.isAscii then .ok (a = b)
  else .error (.typeError "comparing strings with non-ASCII characters is not supported")

/-- What the check leaves to Python. -/
structure WebAppFunctions where
  /-- `urllib.parse.unquote` -/
  unquote : Text → Text
  /-- the digest of the launch parameters under the key made of the bot token -/
  digest : String → String → BitVec 256
  /-- `json.loads` -/
  loads : Text → Except PyError Json
  /-- `time.time() - auth_date > max_age_seconds`, of an `auth_date` that is a `float` -/
  expired : Int → Bool

/-- `hexdigest()`. -/
def hexdigest (digest : BitVec 256) : Text := (hexDigits 64 digest.toNat).map codePoint

/-- The first number that no `float` is as large as, after rounding. -/
def floatLimit : Nat := 2 ^ 1024 - 2 ^ 970

/-- `[p.split("=", 1) for p in web_app_data.split("&") if "=" in p]`. -/
def pairs (webAppData : Text) : List (Text × Text) :=
  (webAppData.splitOn (codePoint '&')).filterMap fun p =>
    if codePoint '=' ∈ p then
      some (p.takeWhile (· ≠ codePoint '='), (p.dropWhile (· ≠ codePoint '=')).tail)
    else none

/-- The values of the pairs with the key `hash`. -/
def hashes (webAppData : Text) : List Text :=
  ((pairs webAppData).filter fun kv => kv.1 = Text.ofString "hash").map Prod.snd

section

variable (F : WebAppFunctions)

/-- The other pairs, with their values decoded, by key. -/
def decoded (webAppData : Text) : List (Text × Text) :=
  (((pairs webAppData).filter fun kv => kv.1 ≠ Text.ofString "hash").map fun kv =>
    (kv.1, F.unquote kv.2)).insertionSort fun a b => a.1 ≤ b.1

/-- `f"{k}={v}"`. -/
def pairText (kv : Text × Text) : Text := kv.1 ++ codePoint '=' :: kv.2

/-- `launch_params`. -/
def launchParams (webAppData : Text) : Text :=
  List.intercalate [codePoint '\n'] ((decoded F webAppData).map pairText)

/-- `time.time() - auth_date > max_age_seconds`. -/
def checkAge (authDate : Int) : Except PyError Bool :=
  if floatLimit ≤ authDate.natAbs then .error (.overflowError "int too large to convert to float")
  else .ok (F.expired authDate)

/-- `int(json.loads(user_raw)["id"])`. -/
def userId (userRaw : Text) : Except PyError Int := do
  match ← F.loads userRaw with
  | .obj fields =>
      match fields.find? fun f => f.1 = "id" with
      | some (_, value) => value.toInt
      | none => throw (.keyError "id")
  | .arr _ => throw (.typeError "list indices must be integers or slices, not str")
  | .str _ => throw (.typeError "string indices must be integers, not 'str'")
  | _ => throw (.typeError "object is not subscriptable")

/-- `except (ValueError, KeyError, TypeError)`. -/
def caught : PyError → Bool
  | .valueError _ => true
  | .phoneNormalizationError _ => true
  | .keyError _ => true
  | .typeError _ => true
  | _ => false

/-- The end of `validate_init_data`: the user. -/
def checkUser (userRaw : Text) : Except PyError (Option Int) :=
  match userId F userRaw with
  | .ok id => .ok (some id)
  | .error e => if caught e then .ok none else .error e

/-- `validate_init_data` from the age of the data on. -/
def checkDated (values : List (Text × Text)) (authDate : Int) : Except PyError (Option Int) := do
  if ← checkAge F authDate then return none
  match dictGet values (Text.ofString "user") with
  | none => return none
  | some userRaw => if userRaw = [] then return none else checkUser F userRaw

/-- `validate_init_data` on values with the right signature. -/
def checkValues (values : List (Text × Text)) : Except PyError (Option Int) :=
  match dictGet values (Text.ofString "auth_date") with
  | none => .ok none
  | some authDateRaw =>
      match toInt authDateRaw with
      | .error _ => .ok none
      | .ok authDate => checkDated F values authDate

/-- `validate_init_data`. -/
def validateInitData (webAppData botToken : Text) : Except PyError (Option Int) :=
  if botToken = [] then .ok none
  else if webAppData = [] then .ok none
  else
    match hashes webAppData with
    | [originalHash] => do
        let token ← encode botToken
        let signed ← encode (launchParams F webAppData)
        if ← compareDigest (hexdigest (F.digest token signed)) originalHash then
          checkValues F (decoded F webAppData)
        else return none
    | _ => .ok none

end

end MaxWebappAuth

end Sieshka
