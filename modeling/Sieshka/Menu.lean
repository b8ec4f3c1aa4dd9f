import Sieshka.Python.Parameters

/-!
# Categories and products

The tables `categories` and `products` with the columns the menu tools and the
storefront read, as a database of their own.

## Implementation notes

`categories.name` and `products.name` carry no constraint; `products.sku` is
unique, and both references to a category are foreign keys.
-/

namespace Sieshka

open Transactions

inductive TimePeriod
  | both
  | morning
  | evening
deriving DecidableEq, Repr

inductive FulfillmentScope
  | both
  | delivery
  | pickup
deriving DecidableEq, Repr

/-- The text of a `time_period`. -/
def TimePeriod.ofText : String → Option TimePeriod
  | "both" => some both
  | "morning" => some morning
  | "evening" => some evening
  | _ => none

/-- The text of a `fulfillment_scope`. -/
def FulfillmentScope.ofText : String → Option FulfillmentScope
  | "both" => some both
  | "delivery" => some delivery
  | "pickup" => some pickup
  | _ => none

structure Category where
  id : Uuid
  name : String
  parentCategoryId : Option Uuid
  timePeriod : TimePeriod
  fulfillmentScope : FulfillmentScope
  sort : Int
  isActive : Bool
  externalId : Option String := none
deriving DecidableEq

structure MenuProduct where
  id : Uuid
  name : String
  categoryId : Option Uuid
  timePeriodOverride : Option TimePeriod
  priceRub : Option Int
  description : Option String
  imageUrl : Option String
  isActive : Bool
  sku : Option String
  sort : Int
deriving DecidableEq

structure MenuDatabase where
  categories : Table Category.id
  products : Table MenuProduct.id

inductive MenuLock
  | category (id : Uuid)
  | product (id : Uuid)
deriving DecidableEq

inductive MenuWrite
  | category (row : Category)
  | product (row : MenuProduct)

namespace MenuDatabase

/-- The type of what a lockable row holds. -/
def Cell : MenuLock → Type
  | .category _ => Option Category
  | .product _ => Option MenuProduct

/-- The content of a row. -/
def get : (l : MenuLock) → MenuDatabase → Cell l
  | .category id, d => d.categories.find id
  | .product id, d => d.products.find id

/-- The database after a write. -/
def put (d : MenuDatabase) : MenuWrite → MenuDatabase
  | .category row => { d with categories := d.categories.put row }
  | .product row => { d with products := d.products.put row }

/-- The row a write goes to. -/
def row : MenuWrite → MenuLock
  | .category row => .category row.id
  | .product row => .product row.id

instance : RowStore MenuDatabase MenuWrite MenuLock where
  Cell := Cell
  get := get
  put := put
  row := row
  get_put_self d d' w := by
    cases w <;> exact (Table.find_put_self _ _).trans (Table.find_put_self _ _).symm
  get_put_of_ne d w l h := by
    cases w <;> cases l <;>
      first
      | rfl
      | exact Table.find_put_of_ne _ fun he => h (congrArg _ he.symm)

@[simp] theorem put_category (d : MenuDatabase) (row : Category) :
    RowStore.put d (MenuWrite.category row) = { d with categories := d.categories.put row } := rfl

@[simp] theorem put_product (d : MenuDatabase) (row : MenuProduct) :
    RowStore.put d (MenuWrite.product row) = { d with products := d.products.put row } := rfl

/-- The products that carry a name, for a lookup without regard to case. -/
def productsNamed (lower : String → String) (name : String) (d : MenuDatabase) :
    List MenuProduct :=
  d.products.filter fun p => lower p.name = lower name

/-- The categories that carry a name, for a lookup without regard to case. -/
def categoriesNamed (lower : String → String) (name : String) (d : MenuDatabase) :
    List Category :=
  d.categories.filter fun c => lower c.name = lower name

/-- The foreign key of a product's category. -/
def hasCategory (id : Option Uuid) (d : MenuDatabase) : Bool :=
  id.all fun c => (d.categories.find c).isSome

/-- The unique `sku`. -/
def skuFree (row : MenuProduct) (d : MenuDatabase) : Bool :=
  d.products.rows.all fun p => p.id = row.id ∨ row.sku = none ∨ p.sku ≠ row.sku

end MenuDatabase

def menuCategories : Schema MenuDatabase Category.id where
  table := MenuDatabase.categories
  lock := .category
  write := .category
  row_write _ := rfl
  table_put _ _ := rfl
  find_congr _ _ _ h := h

def menuProducts : Schema MenuDatabase MenuProduct.id where
  table := MenuDatabase.products
  lock := .product
  write := .product
  row_write _ := rfl
  table_put _ _ := rfl
  find_congr _ _ _ h := h

@[simp] theorem menuCategories_table : menuCategories.table = MenuDatabase.categories := rfl

@[simp] theorem menuProducts_table : menuProducts.table = MenuDatabase.products := rfl

@[simp] theorem menuCategories_write : menuCategories.write = MenuWrite.category := rfl

@[simp] theorem menuProducts_write : menuProducts.write = MenuWrite.product := rfl

/-- What a menu tool does in the session it is given. -/
abbrev MenuTool := Prog MenuDatabase MenuWrite MenuLock Unit PyError

/-- `uuid_generate_v4()`. -/
def menuUuid : MenuTool Uuid := .choose fun n => .ret (BitVec.ofNat 128 n)

end Sieshka
