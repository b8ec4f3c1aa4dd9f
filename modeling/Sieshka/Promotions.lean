import Sieshka.Domains
import Sieshka.Python.Parameters
import Sieshka.Transactions.Index

/-!
# Promotions

The table `promotions` as a database of its own, with the index
`idx_promotions_trigger_code` on `lower(trigger_code)`, and the graph of its states.

## Implementation notes

`state` is a text column that carries no constraint, so reading it as a
`PromotionState` can fail. `created_at` is left out, as no tool reads it.
-/

namespace Sieshka

open Transactions

inductive PromotionState
  | CREATED
  | ACTIVE
  | EXPIRED
  | ARCHIVED
deriving DecidableEq, Repr

inductive PromotionEvent
  | ACTIVATE
  | EXPIRE
  | ARCHIVE
deriving DecidableEq, Repr

/-- `state.value`. -/
def PromotionState.value : PromotionState → String
  | CREATED => "CREATED"
  | ACTIVE => "ACTIVE"
  | EXPIRED => "EXPIRED"
  | ARCHIVED => "ARCHIVED"

/-- `event.value`. -/
def PromotionEvent.value : PromotionEvent → String
  | ACTIVATE => "ACTIVATE"
  | EXPIRE => "EXPIRE"
  | ARCHIVE => "ARCHIVE"

/-- The state a text spells. -/
def PromotionState.ofText : String → Option PromotionState
  | "CREATED" => some CREATED
  | "ACTIVE" => some ACTIVE
  | "EXPIRED" => some EXPIRED
  | "ARCHIVED" => some ARCHIVED
  | _ => none

@[simp] theorem PromotionState.ofText_value (s : PromotionState) : ofText s.value = some s := by
  cases s <;> rfl

/-- `PROMOTION_TRANSITIONS`. -/
def promotionTransitions : PromotionState → PromotionEvent → Option PromotionState
  | .CREATED, .ACTIVATE => some .ACTIVE
  | .ACTIVE, .EXPIRE => some .EXPIRED
  | .EXPIRED, .ARCHIVE => some .ARCHIVED
  | _, _ => none

/-- The text of an `effect_type`. -/
def EffectType.ofText : String → Option EffectType
  | "PERCENT_DISCOUNT" => some PERCENT_DISCOUNT
  | "FIXED_AMOUNT" => some FIXED_AMOUNT
  | "FREE_DELIVERY" => some FREE_DELIVERY
  | _ => none

/-- A row of `promotions`; a discount that is `NaN` is `none`. -/
structure Promo where
  id : Uuid
  name : String
  discount : Option ℚ
  state : String
  effectType : EffectType
  triggerCode : Option String
deriving DecidableEq

/-- An entry of `idx_promotions_trigger_code`. -/
abbrev PromoCode := Entry String Uuid

structure PromoDatabase where
  promotions : Table Promo.id
  codes : Table (Entry.value : PromoCode → String)

inductive PromoLock
  | promotion (id : Uuid)
  | code (code : String)
deriving DecidableEq

inductive PromoWrite
  | promotion (row : Promo)
  | code (entry : PromoCode)

namespace PromoDatabase

/-- The type of what a lockable row holds. -/
def Cell : PromoLock → Type
  | .promotion _ => Option Promo
  | .code _ => Option PromoCode

/-- The content of a row. -/
def get : (l : PromoLock) → PromoDatabase → Cell l
  | .promotion id, d => d.promotions.find id
  | .code code, d => d.codes.find code

/-- The database after a write. -/
def put (d : PromoDatabase) : PromoWrite → PromoDatabase
  | .promotion row => { d with promotions := d.promotions.put row }
  | .code entry => { d with codes := d.codes.put entry }

/-- The row a write goes to. -/
def row : PromoWrite → PromoLock
  | .promotion row => .promotion row.id
  | .code entry => .code entry.value

instance : RowStore PromoDatabase PromoWrite PromoLock where
  Cell := Cell
  get := get
  put := put
  row := row
  get_put_self d d' w := by
    cases w <;> exact (Table.find_put_self _ _).trans (Table.find_put_self _ _).symm
  get_put_of_ne d w l h := by
    cases w <;> cases l <;>
      first
      | rfl
      | exact Table.find_put_of_ne _ fun he => h (congrArg _ he.symm)

/-- The promotions that carry a name, for a lookup without regard to case. -/
def named (lower : String → String) (name : String) (d : PromoDatabase) : List Promo :=
  d.promotions.filter fun p => lower p.name = lower name

/-- The promotions that carry a code, for a lookup without regard to case. -/
def coded (lower : String → String) (code : String) (d : PromoDatabase) : List Promo :=
  d.promotions.filter fun p => p.triggerCode.map lower = some (lower code)

end PromoDatabase

def promoTable : Schema PromoDatabase Promo.id where
  table := PromoDatabase.promotions
  lock := .promotion
  write := .promotion
  row_write _ := rfl
  table_put _ _ := rfl
  find_congr _ _ _ h := h

@[simp] theorem promoTable_table : promoTable.table = PromoDatabase.promotions := rfl

/-- `idx_promotions_trigger_code`: the lowercase code of a promotion that has one. -/
def promoCodes (lower : String → String) : UniqueIndex promoTable String where
  entries :=
    { table := PromoDatabase.codes
      lock := .code
      write := .code
      row_write := fun _ => rfl
      table_put := fun _ _ => rfl
      find_congr := fun _ _ _ h => h }
  value p := p.triggerCode.map lower
  entries_put _ _ := rfl
  table_put _ _ := rfl

/-- The index is that of the promotions. -/
abbrev PromoDatabase.Indexed (lower : String → String) (d : PromoDatabase) : Prop :=
  (promoCodes lower).Faithful d

/-- What a promotion tool does in the session it is given. -/
abbrev PromoTool := Prog PromoDatabase PromoWrite PromoLock Unit PyError

/-- `uuid_generate_v4()`. -/
def promoUuid : PromoTool Uuid := .choose fun n => .ret (BitVec.ofNat 128 n)

end Sieshka
