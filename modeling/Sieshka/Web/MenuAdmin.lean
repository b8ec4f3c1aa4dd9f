import Sieshka.Menu
import Sieshka.Renumbering

/-!
# The order of the menu

The arrows of the menu page (`menu_admin.html`) that move a category or a product, and the
routes of `admin.py` they call.

## Implementation notes

The buttons are disabled while a press is handled, so presses follow one another. A `PATCH`
that is refused, whatever the answer, has written nothing. The order of names on the server
and `localeCompare` are parameters. The edit forms and the counts are left out.
-/

namespace Sieshka

open Transactions Renumbering

namespace MenuAdmin

/-- A row of `_fetch_categories_full`. -/
structure CategoryView where
  id : Uuid
  name : String
  parentName : Option String
  timePeriod : TimePeriod
  fulfillmentScope : FulfillmentScope
  sort : Int
  isActive : Bool
deriving DecidableEq

/-- A row of `_product_view`. -/
structure ProductView where
  id : Uuid
  name : String
  categoryName : Option String
  priceRub : Option Int
  description : Option String
  imageUrl : Option String
  isActive : Bool
  sku : Option String
  sort : Int
deriving DecidableEq

/-- How names are ordered. -/
structure Collations where
  /-- `ORDER BY name` -/
  server : String → String → Bool
  /-- `a.localeCompare(b) <= 0` -/
  client : String → String → Bool

/-! ## The routes -/

/-- A category beside the name of its parent. -/
def categoryView (d : MenuDatabase) (row : Category) : CategoryView where
  id := row.id
  name := row.name
  parentName := row.parentCategoryId.bind fun parent => (d.categories.find parent).map Category.name
  timePeriod := row.timePeriod
  fulfillmentScope := row.fulfillmentScope
  sort := row.sort
  isActive := row.isActive

def categoryViews (d : MenuDatabase) : List CategoryView :=
  d.categories.rows.map (categoryView d)

/-- A product beside the name of its category. -/
def productView (d : MenuDatabase) (row : MenuProduct) : ProductView where
  id := row.id
  name := row.name
  categoryName := row.categoryId.bind fun category => (d.categories.find category).map Category.name
  priceRub := row.priceRub
  description := row.description
  imageUrl := row.imageUrl
  isActive := row.isActive
  sku := row.sku
  sort := row.sort

section

variable (C : Collations)

/-- `ORDER BY c.sort, c.name`. -/
def sortCategories (rows : List CategoryView) : List CategoryView :=
  (rows.insertionSort fun a b => C.server a.name b.name = true).insertionSort fun a b =>
    a.sort ≤ b.sort

/-- `_fetch_categories_full`. -/
def fetchCategoriesFull (d : MenuDatabase) : List CategoryView := sortCategories C (categoryViews d)

/-- `_fetch_categories_ref`. -/
def fetchCategoriesRef (d : MenuDatabase) : List (Uuid × String) :=
  ((d.categories.rows.filter Category.isActive).insertionSort fun a b =>
    C.server a.name b.name = true).map fun row => (row.id, row.name)

/-- `_load_product_admin_rows`, `ORDER BY p.name`. -/
def loadProductAdminRows (d : MenuDatabase) : List ProductView :=
  (d.products.rows.map (productView d)).insertionSort fun a b => C.server a.name b.name = true

/-- The lists in the answer of `menu_category_update`. -/
structure CategoryAnswer where
  categories : List (Uuid × String)
  categoriesFull : List CategoryView

def answerCategory (d : MenuDatabase) : CategoryAnswer where
  categories := fetchCategoriesRef C d
  categoriesFull := fetchCategoriesFull C d

end

/-- An accepted `PATCH` of a category's `sort`. -/
def patchCategorySort (d : MenuDatabase) (id : Uuid) (sort : Int) : MenuDatabase :=
  match d.categories.find id with
  | none => d
  | some row => { d with categories := d.categories.put { row with sort := sort } }

/-- An accepted `PATCH` of a product's `sort`. -/
def patchProductSort (d : MenuDatabase) (id : Uuid) (sort : Int) : MenuDatabase :=
  match d.products.find id with
  | none => d
  | some row => { d with products := d.products.put { row with sort := sort } }

/-! ## The page -/

/-- What comes of a `PATCH`. -/
inductive PatchOutcome
  | accepted
  | serverError (status : ℕ) (text : String)
  | rejected (error : Option String)
  | thrown (error : String)
deriving DecidableEq

/-- The error a refused `PATCH` of a row ends the loop with. -/
def PatchOutcome.refusal (name : String) : PatchOutcome → Option String
  | accepted => none
  | serverError status text =>
      some ("Server error " ++ toString status ++ " reordering '" ++ name ++ "': " ++
        String.ofList (text.toList.take 200))
  | rejected error =>
      let reason := error.getD ""
      some ("Rejected reordering '" ++ name ++ "': " ++
        if reason = "" then "validation failed" else reason)
  | thrown error => some error

inductive Direction
  | up
  | down
deriving DecidableEq

/-- The order with the row at an index and its neighbour exchanged. -/
def exchanged {Row : Type} (order : List Row) (idx : ℕ) (direction : Direction) :
    Option (List Row) :=
  let targetIdx := match direction with
    | .up => if idx = 0 then none else some (idx - 1)
    | .down => some (idx + 1)
  targetIdx.bind fun targetIdx => do
    let a ← order[idx]?
    let b ← order[targetIdx]?
    some ((order.set idx b).set targetIdx a)

def categoryRanking : Ranking CategoryView Uuid where
  key := CategoryView.id
  rank := CategoryView.sort
  setRank n c := { c with sort := n }
  key_setRank _ _ := rfl
  rank_setRank _ _ := rfl

def productRanking : Ranking ProductView Uuid where
  key := ProductView.id
  rank := ProductView.sort
  setRank n p := { p with sort := n }
  key_setRank _ _ := rfl
  rank_setRank _ _ := rfl

/-- The page and the database behind it. -/
structure Admin where
  db : MenuDatabase
  categories : List (Uuid × String)
  categoriesFull : List CategoryView
  products : List ProductView
  categoryReorderError : Option String
  productReorderError : Option String

section

variable (C : Collations)

/-- The page as `menu_admin_ui` renders it. -/
def opened (d : MenuDatabase) : Admin where
  db := d
  categories := fetchCategoriesRef C d
  categoriesFull := fetchCategoriesFull C d
  products := loadProductAdminRows C d
  categoryReorderError := none
  productReorderError := none

/-- The products of a category, the others left out; without one, all of them. -/
def inCategory (productCategoryFilter : String) (products : List ProductView) :
    List ProductView :=
  products.filter fun p =>
    productCategoryFilter = "" || p.categoryName.getD "" = productCategoryFilter

/-- Sorted by `(a.sort - b.sort) || a.name.localeCompare(b.name)`. -/
def sortProducts (rows : List ProductView) : List ProductView :=
  (rows.insertionSort fun a b => C.client a.name b.name = true).insertionSort fun a b =>
    a.sort ≤ b.sort

/-- `filteredProducts`. -/
def filteredProducts (productCategoryFilter : String) (products : List ProductView) :
    List ProductView :=
  sortProducts C (inCategory productCategoryFilter products)

/-- `moveCategory` of the category at an index of the displayed list. -/
def moveCategory (st : Admin) (idx : ℕ) (direction : Direction) (outcome : Uuid → PatchOutcome) :
    Admin :=
  match exchanged st.categoriesFull idx direction with
  | none => st
  | some newOrder =>
      match categoryRanking.renumber patchCategorySort (answerCategory C)
          (fun c => (outcome c.id).refusal c.name) 0 newOrder st.db none with
      | (some error, db, _) => { st with db, categoryReorderError := some error }
      | (none, db, none) => { st with db, categoryReorderError := none }
      | (none, db, some latest) =>
          { st with
            db
            categories := latest.categories
            categoriesFull := latest.categoriesFull
            categoryReorderError := none }

/-- `moveProduct` of the product at an index of the displayed list. -/
def moveProduct (st : Admin) (productCategoryFilter : String) (idx : ℕ) (direction : Direction)
    (outcome : Uuid → PatchOutcome) : Admin :=
  if productCategoryFilter = "" then st
  else
    match exchanged (filteredProducts C productCategoryFilter st.products) idx direction with
    | none => st
    | some newOrder =>
        match productRanking.renumber patchProductSort (loadProductAdminRows C)
            (fun p => (outcome p.id).refusal p.name) 0 newOrder st.db none with
        | (some error, db, _) => { st with db, productReorderError := some error }
        | (none, db, none) => { st with db, productReorderError := none }
        | (none, db, some products) => { st with db, products, productReorderError := none }

end

end MenuAdmin

end Sieshka
