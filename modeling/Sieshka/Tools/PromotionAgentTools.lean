import Sieshka.Promotions
import Sieshka.Python.Floats
import Sieshka.Transactions.System

/-!
# Tools of the promotion agent

The apply phase for promotions: a validator and a writer for the four actions. Both
read the command with one function.

## Implementation notes

The reason a validator gives through `diagnostics` is left out, as are the log
lines. A tool never commits: that is up to the session it is given. An `int` that
becomes a `float` keeps its value here: it loses digits only beyond 2 ^ 53, where the
range checks and the column refuse it whichever digits are left.
-/

namespace Sieshka.PromotionAgentTools

open Transactions PromoDatabase

/-! ## Commands -/

/-- The numbers of a command: `int` and `float`, but not `bool`. -/
inductive Number
  | int (n : Int)
  | float (x : PyFloat)

/-- The number a value is. -/
def number? : Json → Option Number
  | .int n => some (.int n)
  | .float q => some (.float (.value q))
  | .nan => some (.float .nan)
  | .inf negative => some (.float (.inf negative))
  | _ => none

/-- `float(x)`: an `int` that rounds to no `float` raises. -/
def Number.toFloat : Number → Except PyError PyFloat
  | .int n =>
      if n.natAbs < 2 ^ 1024 - 2 ^ 970 then .ok (.value n)
      else .error (.overflowError "int too large to convert to float")
  | .float x => .ok x

/-- `float(x)` of an optional number. -/
def optionalFloat : Option Number → Except PyError (Option PyFloat)
  | none => .ok none
  | some x => x.toFloat.map some

/-- What `_required_apply_fields` returns: the action with the fields it uses. -/
inductive PromotionCommand
  | create (name : String) (discount : Option PyFloat) (effectType : EffectType)
      (triggerCode : Option String)
  | transition (event : PromotionEvent) (target : String)
deriving DecidableEq

/-- The event of an action, `none` for `create`. -/
def actionEvent : Json → Option (Option PromotionEvent)
  | .str "create" => some none
  | .str "activate" => some (some .ACTIVATE)
  | .str "expire" => some (some .EXPIRE)
  | .str "archive" => some (some .ARCHIVE)
  | _ => none

/-- An `effect_type`. -/
def effectType? : Json → Option EffectType
  | .str s => EffectType.ofText s
  | _ => none

/-- The value of a key of a command that is an object. -/
structure PromotionFields where
  event : Option PromotionEvent
  name : Option String
  discount : Option Number
  target : Option String
  effectType : Option EffectType
  triggerCode : Option String

/-- The checks of `_required_apply_fields` on each field. -/
def readFields : Json → Option PromotionFields
  | .obj fields => do
      let event ← actionEvent (Json.get fields "action" .null)
      let name ← (Json.get fields "name" .null).optional Json.text?
      let discount ← (Json.get fields "discount" .null).optional number?
      let target ← (Json.get fields "target_promotion_name" .null).optional Json.text?
      let effectType ← (Json.get fields "effect_type" .null).optional effectType?
      let triggerCode ← (Json.get fields "trigger_code" .null).optional Json.text?
      return { event, name, discount, target, effectType, triggerCode }
  | _ => none

/-- `_required_apply_fields`: the checks across fields, then `float(discount)`. -/
def requiredApplyFields (command : Json) : Except PyError (Option PromotionCommand) :=
  match readFields command with
  | none => .ok none
  | some fields =>
      match fields.event with
      | none =>
          let effectType := fields.effectType.getD .PERCENT_DISCOUNT
          match fields.name with
          | none => .ok none
          | some name =>
              if effectType = .FREE_DELIVERY then
                .ok (some (.create (strip name) none effectType (fields.triggerCode.map strip)))
              else if fields.discount.isNone then .ok none
              else (optionalFloat fields.discount).map fun discount =>
                some (.create (strip name) discount effectType (fields.triggerCode.map strip))
      | some event =>
          match fields.target with
          | none => .ok none
          | some target =>
              (optionalFloat fields.discount).map fun _ => some (.transition event (strip target))

/-! ## The pair -/

variable (B : Backend)

/-- `PromotionState(text)`. -/
def promotionState (text : String) : Except PyError PromotionState :=
  match PromotionState.ofText text with
  | some state => .ok state
  | none => .error (.valueError (B.repr text ++ " is not a valid PromotionState"))

/-- What the validator makes of a discount. -/
def discountRejected : EffectType → Option PyFloat → Bool
  | .PERCENT_DISCOUNT, some x => x.lt 0 || x.gt 100
  | .FIXED_AMOUNT, some x => x.le 0
  | .FIXED_AMOUNT, none => true
  | _, _ => false

/-- `validate_apply_promotion_command`. -/
def validateApplyPromotionCommand (command : Json) : PromoTool Int := do
  let parsed ← liftExcept (requiredApplyFields command)
  match parsed with
  | none => return 0
  | some (.create name discount effectType triggerCode) =>
      if discountRejected effectType discount then return 0
      else do
        bindParam (storable name)
        let existing ← Prog.select (named B.lower name)
        if !existing.isEmpty then return 0
        else
          match triggerCode with
          | none => return 1
          | some code => do
              bindParam (storable code)
              let dupeCode ← Prog.select (coded B.lower code)
              return if dupeCode.isEmpty then 1 else 0
  | some (.transition event target) => do
      bindParam (storable target)
      let rows ← Prog.select (named B.lower target)
      match rows with
      | [row] => do
          let currentState ← liftExcept (promotionState B row.state)
          return if (promotionTransitions currentState event).isSome then 1 else 0
      | _ => return 0

/-- What the writer raises for a discount. -/
def discountError : EffectType → Option PyFloat → Option PyError
  | .PERCENT_DISCOUNT, none => some (.valueError "discount out of range at write time: None")
  | .PERCENT_DISCOUNT, some x =>
      if x.lt 0 || x.gt 100 then
        some (.valueError ("discount out of range at write time: " ++ x.repr B))
      else none
  | .FIXED_AMOUNT, none => some (.valueError "fixed-amount discount invalid at write time: None")
  | .FIXED_AMOUNT, some x =>
      if x.le 0 then
        some (.valueError ("fixed-amount discount invalid at write time: " ++ x.repr B))
      else none
  | .FREE_DELIVERY, _ => none

/-- A row of a new promotion. -/
def newPromotion (id : Uuid) (name : String) (discount : Option PyFloat)
    (effectType : EffectType) (triggerCode : Option String) : Promo :=
  { id, name, discount := (discount.getD (.value 0)).numeric, state := "CREATED", effectType,
    triggerCode }

/-- The result of a writer. -/
inductive PromotionOutput
  | created (name : String) (promotionId : Uuid)
  | transitioned (event : PromotionEvent) (promotionId : Uuid) (fromState toState : PromotionState)
deriving DecidableEq

/-- The look at a trigger code under row locks. -/
def requireCodeFree : Option String → PromoTool Unit
  | none => return ()
  | some code => do
      bindParam (storable code)
      let dupeCode ← promoTable.filterForUpdate fun p =>
        p.triggerCode.map B.lower = some (B.lower code)
      if dupeCode.isEmpty then return ()
      else throw (.valueError ("trigger_code already in use at write time: " ++ B.repr code))

/-- `apply_promotion_command`. -/
def applyPromotionCommand (command : Json) : PromoTool PromotionOutput := do
  let parsed ← liftExcept (requiredApplyFields command)
  match parsed with
  | none => throw (.valueError "apply_promotion_command: malformed command")
  | some (.create name discount effectType triggerCode) =>
      match discountError B effectType discount with
      | some e => throw e
      | none => do
          bindParam (storable name)
          let existing ← promoTable.filterForUpdate fun p => B.lower p.name = B.lower name
          if !existing.isEmpty then
            throw (.valueError ("promotion name already in use at write time: " ++ B.repr name))
          else do
            requireCodeFree B triggerCode
            bindParam (discount.getD (.value 0)).fitsNumeric
            let id ← promoUuid
            let row := newPromotion id name discount effectType triggerCode
            (promoCodes B.lower).insert .integrityError row
            return .created name id
  | some (.transition event target) => do
      bindParam (storable target)
      let found ← promoTable.filterForUpdate fun p => B.lower p.name = B.lower target
      match found with
      | [row] => do
          let currentState ← liftExcept (promotionState B row.state)
          match promotionTransitions currentState event with
          | none =>
              throw (.valueError ("invalid transition at write time: " ++ event.value ++ " from " ++
                currentState.value))
          | some newState => do
              let _ ← (promoCodes B.lower).rewrite PyError.integrityError row.id fun p =>
                { p with state := newState.value }
              return .transitioned event row.id currentState newState
      | rows =>
          throw (.valueError ("promotion not uniquely resolvable at write time: " ++
            B.repr target ++ " (" ++ toString rows.length ++ " matches)"))

/-! ## Calls -/

/-- Any number of calls of the writer on one `promotions` table, each in a session
that commits when it returns. -/
def promotionCalls :
    System Json PromoDatabase PromoWrite PromoLock Unit PyError PromotionOutput where
  body command := Prog.transact (applyPromotionCommand B command)
  restart := id
  Move := Empty
  move v _ := nomatch v

end Sieshka.PromotionAgentTools
