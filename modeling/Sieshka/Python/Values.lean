import Sieshka.Python.Text
import Sieshka.Transactions.Program
import Mathlib.Data.Rat.Defs

/-!
# JSON values and exceptions

The part of Python's values that the services read from a JSON column, and the
exceptions a call can raise.
-/

namespace Sieshka

/-- The `detail` of an `HTTPException`. -/
inductive HttpDetail
  /-- `unsupported payment_method: ...` -/
  | unsupportedPaymentMethod (paymentMethod : String)
  /-- `zone_id is required for non-pickup delivery` -/
  | zoneIdRequired
  /-- `order must contain at least one item` -/
  | noItems
  /-- `duplicate idempotency_key still being processed` -/
  | stillBeingProcessed
  /-- `Payment provider rejected the request. ...` -/
  | providerRejected
  /-- `Payment provider is unreachable. ...` -/
  | providerUnreachable
  /-- `Order not found` -/
  | orderNotFound
  /-- `Order must be CONFIRMED to pay; current state: ...` -/
  | notConfirmed (state : String)
  /-- `Order has no recorded total_rub; refuse to price a payment` -/
  | noTotalRub
  /-- `amount must equal the order total (...); got ...` -/
  | amountMismatch (totalRub : Int) (amount : ℚ)
  /-- `payment_method must be one of ..., got ...` -/
  | paymentMethodNotAllowed (paymentMethod : String)
  /-- `zone not found` -/
  | zoneNotFound
deriving DecidableEq

/-- The exceptions that cross a function boundary. -/
inductive PyError
  | valueError (message : String)
  | typeError (message : String)
  | attributeError (message : String)
  | keyError (message : String)
  | runtimeError (message : String)
  /-- `PhoneNormalizationError`, raised with the phone it rejects -/
  | phoneNormalizationError (phone : String)
  /-- `Result.one` or `Result.scalar_one` on no row -/
  | noResultFound
  /-- `Result.one` on several rows -/
  | multipleResultsFound
  | overflowError (message : String)
  /-- `csv.Error` -/
  | csvError (message : String)
  | assertionError
  /-- a statement or commit the database or its driver refused -/
  | dbapiError
  /-- a row that a unique index refused -/
  | integrityError
  /-- `httpx.HTTPStatusError`: the provider answered 4xx or 5xx -/
  | httpStatusError
  /-- any other `httpx.HTTPError`: no answer -/
  | httpError
  | httpException (status : Nat) (detail : HttpDetail)
deriving DecidableEq

instance : Transactions.DatabaseError PyError := ⟨.dbapiError⟩

/-- `isinstance(exc, httpx.HTTPError)`. -/
def PyError.isHttpError : PyError → Bool
  | .httpStatusError => true
  | .httpError => true
  | _ => false

/-- `str(exc)` of the exceptions a tool raises. -/
def PyError.message : PyError → String
  | .valueError message => message
  | .typeError message => message
  | .attributeError message => message
  | .keyError message => message
  | .runtimeError message => message
  | .phoneNormalizationError phone => phone
  | .noResultFound => "No row was found when one was required"
  | .multipleResultsFound => "Multiple rows were found when exactly one was required"
  | .overflowError message => message
  | .csvError message => message
  | .assertionError => ""
  | .dbapiError => "DBAPIError"
  | .integrityError => "IntegrityError"
  | .httpStatusError => "HTTPStatusError"
  | .httpError => "HTTPError"
  | .httpException _ _ => "HTTPException"

/-- `UUID(text)`. -/
def uuid (text : String) : Except PyError Uuid :=
  match readUuid text with
  | some u => .ok u
  | none => .error (.valueError "badly formed hexadecimal UUID string")

@[simp] theorem uuid_text (u : Uuid) : uuid u.text = .ok u := by
  simp [uuid]

/-- `dict.get` of the dictionary that was filled with the entries in order. -/
def dictGet {α β : Type} [DecidableEq α] (entries : List (α × β)) (key : α) : Option β :=
  (entries.reverse.find? fun entry => entry.1 = key).map Prod.snd

theorem mem_of_dictGet {α β : Type} [DecidableEq α] {entries : List (α × β)} {key : α} {b : β}
    (h : dictGet entries key = some b) : (key, b) ∈ entries := by
  obtain ⟨entry, hentry, rfl⟩ := Option.map_eq_some_iff.mp h
  have hkey : entry.1 = key := by simpa using List.find?_some hentry
  rw [← hkey]
  exact List.mem_reverse.mp (List.mem_of_find?_eq_some hentry)

/-- Where no key was set twice, the dictionary holds every entry. -/
theorem dictGet_of_mem {α β : Type} [DecidableEq α] {entries : List (α × β)} {key : α} {b : β}
    (hnodup : (entries.map Prod.fst).Nodup) (h : (key, b) ∈ entries) :
    dictGet entries key = some b := by
  have hmem : (key, b) ∈ entries.reverse := List.mem_reverse.mpr h
  have hrev : (entries.reverse.map Prod.fst).Nodup := by
    rw [List.map_reverse]
    exact List.nodup_reverse.mpr hnodup
  unfold dictGet
  generalize entries.reverse = entries at hmem hrev ⊢
  induction entries with
  | nil => cases hmem
  | cons entry rest ih =>
      obtain ⟨hfresh, hrest⟩ := List.nodup_cons.mp hrev
      rcases List.mem_cons.mp hmem with rfl | hmem
      · simp
      · have hne : entry.1 ≠ key := by
          intro heq
          apply hfresh
          rw [heq]
          exact List.mem_map.mpr ⟨(key, b), hmem, rfl⟩
        rw [List.find?_cons_of_neg (by simpa using hne)]
        exact ih hmem hrest

/-- A value that `json.loads` builds, `NaN` and the infinities included. -/
inductive Json
  | null
  | bool (b : Bool)
  | int (n : Int)
  | float (q : ℚ)
  | nan
  | inf (negative : Bool)
  | str (s : String)
  | arr (elements : List Json)
  | obj (fields : List (String × Json))

/-- `int(x)` of a number with a fraction: towards zero. -/
def truncated (q : ℚ) : Int := q.num.tdiv q.den

namespace Json

/-- `dict.get(key, default)`. -/
def get (fields : List (String × Json)) (key : String) (default : Json) : Json :=
  ((fields.find? fun f => f.1 = key).map Prod.snd).getD default

/-- `bool(value)`. -/
def truthy : Json → Bool
  | null => false
  | bool b => b
  | int n => n ≠ 0
  | float q => q ≠ 0
  | nan => true
  | inf _ => true
  | str s => s ≠ ""
  | arr elements => !elements.isEmpty
  | obj fields => !fields.isEmpty

/-- The values `for item in value` visits. -/
def iter : Json → Except PyError (List Json)
  | arr elements => .ok elements
  | obj fields => .ok (fields.map fun f => str f.1)
  | str s => .ok (s.toList.map fun c => str (String.ofList [c]))
  | null => .error (.typeError "'NoneType' object is not iterable")
  | bool _ => .error (.typeError "'bool' object is not iterable")
  | int _ => .error (.typeError "'int' object is not iterable")
  | float _ => .error (.typeError "'float' object is not iterable")
  | nan => .error (.typeError "'float' object is not iterable")
  | inf _ => .error (.typeError "'float' object is not iterable")

/-- `int(value)`. -/
def toInt : Json → Except PyError Int
  | int n => .ok n
  | bool b => .ok (if b then 1 else 0)
  | float q => .ok (truncated q)
  | nan => .error (.valueError "cannot convert float NaN to integer")
  | inf _ => .error (.overflowError "cannot convert float infinity to integer")
  | str s =>
      match readInt 10 s.toList with
      | some n =>
          if (s.toList.filter fun c => (decimalValue c).isSome).length ≤ 4300 then .ok n
          else .error (.valueError "Exceeds the limit (4300 digits) for integer string conversion")
      | none => .error (.valueError "invalid literal for int() with base 10")
  | _ => .error (.typeError
      "int() argument must be a string, a bytes-like object or a real number")

/-- `UUID(str(value))`: only a string or an integer of 32 digits can spell one. -/
def toUuid : Json → Except PyError Uuid
  | str s => uuid s
  | int n => uuid (toString n)
  | _ => .error (.valueError "badly formed hexadecimal UUID string")

end Json

end Sieshka
