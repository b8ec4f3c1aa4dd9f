import Sieshka.Menu

/-!
# Tools of the menu agent

The apply phase for products and categories: a validator and a writer for each
command. A command is any JSON value; both sides of a pair read it with one
function.

## Implementation notes

The reason a validator gives through `diagnostics` is left out, as are the log
lines. A tool never commits: that is up to the session it is given.
-/

namespace Sieshka.MenuAgentTools

open Transactions MenuDatabase

variable (B : Backend)

/-! ## Categories by name -/

/-- The locked category a writer resolves a name to; `what` names its part in the
message. -/
def lockCategory (what name : String) : MenuTool Category := do
  bindParam (storable name)
  let catMatches ← menuCategories.filterForUpdate fun c => B.lower c.name = B.lower name
  match catMatches with
  | [category] => return category
  | rows => throw (.valueError (what ++ " not uniquely resolvable at write time: " ++
      B.repr name ++ " (" ++ toString rows.length ++ " matches)"))

/-- The id of the category a writer resolves an optional name to. -/
def lockOptional (what : String) : Option String → MenuTool (Option Uuid)
  | none => return none
  | some name => do
      let row ← lockCategory B what name
      return some row.id

/-- Whether an optional name resolves to one category, as a validator sees it. -/
def resolves : Option String → MenuTool Bool
  | none => return true
  | some name => do
      bindParam (storable name)
      let catMatches ← Prog.select (categoriesNamed B.lower name)
      return catMatches.length = 1

/-! ## Product creation -/

/-- What `_required_apply_fields` reads. -/
structure ApplyFields where
  name : String
  category : String
  priceRub : Int
deriving DecidableEq

/-- `_required_apply_fields`. -/
def requiredApplyFields : Json → Option ApplyFields
  | .obj fields => do
      let name ← (Json.get fields "name" .null).text?
      let category ← (Json.get fields "category" .null).text?
      let priceRub ← (Json.get fields "price_rub" .null).int?
      if priceRub < 0 then none
      else some { name := strip name, category := strip category, priceRub }
  | _ => none

/-- `validate_apply_command`. -/
def validateApplyCommand (command : Json) : MenuTool Int :=
  match requiredApplyFields command with
  | none => return 0
  | some fields => do
      let resolved ← resolves B (some fields.category)
      if !resolved then return 0
      else do
        bindParam (storable fields.name)
        let existing ← Prog.select (productsNamed B.lower fields.name)
        return if existing.isEmpty then 1 else 0

/-- The product that is inserted; the other columns have their defaults. -/
def ApplyFields.product (fields : ApplyFields) (id categoryId : Uuid)
    (description imageUrl : Option String) : MenuProduct :=
  { id, name := fields.name, categoryId := some categoryId, timePeriodOverride := none,
    priceRub := some fields.priceRub, description, imageUrl, isActive := true, sku := none,
    sort := 0 }

/-- A parameter of a `TEXT` column. -/
def bindText : Json → MenuTool (Option String)
  | .null => return none
  | .str s => do
      bindParam (storable s)
      return some s
  | _ => throw .dbapiError

/-- The value of a key of a command. -/
def field (command : Json) (key : String) : Json :=
  match command with
  | .obj fields => Json.get fields key .null
  | _ => .null

/-- The result of a tool that created a row. -/
structure Created where
  name : String
  categoryId : Uuid
deriving DecidableEq

/-- `apply_menu_command`. -/
def applyMenuCommand (command : Json) : MenuTool Created :=
  match requiredApplyFields command with
  | none => throw (.valueError "apply_menu_command: malformed command")
  | some fields => do
      let category ← lockCategory B "category" fields.category
      bindParam (storable fields.name)
      let existing ← Prog.select (productsNamed B.lower fields.name)
      if !existing.isEmpty then
        throw (.valueError ("product name already in use at write time: " ++ B.repr fields.name))
      else do
        bindParam (int4 fields.priceRub)
        let description ← bindText (field command "description")
        let imageUrl ← bindText (field command "image_url")
        let id ← menuUuid
        menuProducts.insert (hasCategory (some category.id))
          (fields.product id category.id description imageUrl)
        return { name := fields.name, categoryId := category.id }

/-! ## Category creation -/

/-- What `_required_apply_category_fields` reads. -/
structure CategoryFields where
  name : String
  parentCategory : Option String
  timePeriod : TimePeriod
  fulfillmentScope : FulfillmentScope
  sort : Int
deriving DecidableEq

/-- The category that is inserted. -/
def CategoryFields.category (fields : CategoryFields) (id : Uuid) (parentId : Option Uuid) :
    Category :=
  { id, name := fields.name, parentCategoryId := parentId, timePeriod := fields.timePeriod,
    fulfillmentScope := fields.fulfillmentScope, sort := fields.sort, isActive := true }

/-- A word of a fixed vocabulary. -/
def word {α : Type} (ofText : String → Option α) : Json → Option α
  | .str s => ofText s
  | _ => none

/-- `_required_apply_category_fields`. -/
def requiredApplyCategoryFields : Json → Option CategoryFields
  | .obj fields => do
      let name ← (Json.get fields "name" .null).text?
      let parentCategory ← (Json.get fields "parent_category" .null).optional Json.text?
      let timePeriod ← word TimePeriod.ofText (Json.get fields "time_period" (.str "both"))
      let fulfillmentScope ← word FulfillmentScope.ofText
        (Json.get fields "fulfillment_scope" (.str "both"))
      let sort ← (Json.get fields "sort" (.int 0)).int?
      some { name := strip name, parentCategory := parentCategory.map strip, timePeriod,
             fulfillmentScope, sort }
  | _ => none

/-- `validate_apply_category_command`. -/
def validateApplyCategoryCommand (command : Json) : MenuTool Int :=
  match requiredApplyCategoryFields command with
  | none => return 0
  | some fields => do
      bindParam (storable fields.name)
      let existing ← Prog.select (categoriesNamed B.lower fields.name)
      if !existing.isEmpty then return 0
      else do
        let resolved ← resolves B fields.parentCategory
        return if resolved then 1 else 0

/-- `apply_category_command`. -/
def applyCategoryCommand (command : Json) : MenuTool Created :=
  match requiredApplyCategoryFields command with
  | none => throw (.valueError "apply_category_command: malformed command")
  | some fields => do
      let parentId ← lockOptional B "parent category" fields.parentCategory
      bindParam (storable fields.name)
      let existing ← Prog.select (categoriesNamed B.lower fields.name)
      if !existing.isEmpty then
        throw (.valueError ("category name already in use at write time: " ++ B.repr fields.name))
      else do
        bindParam (int4 fields.sort)
        let id ← menuUuid
        menuCategories.insert (hasCategory parentId) (fields.category id parentId)
        return { name := fields.name, categoryId := id }

/-! ## Product update -/

/-- What `_required_update_product_fields` reads. -/
structure ProductUpdate where
  productId : String
  name : Option String
  category : Option String
  priceRub : Option Int
  description : Option String
  imageUrl : Option String
  isActive : Option Bool
  sku : Option String
  sort : Option Int
deriving DecidableEq

/-- The spellings of `is_active`. -/
def isActiveField : Json → Option (Option Bool)
  | .null => some none
  | .bool b => some (some b)
  | .str s =>
      let lowered := asciiLower (strip s)
      if lowered = "true" ∨ lowered = "1" ∨ lowered = "yes" ∨ lowered = "on" then some (some true)
      else if lowered = "false" ∨ lowered = "0" ∨ lowered = "no" ∨ lowered = "off" ∨
          lowered = "" then some (some false)
      else none
  | .int n => if n = 1 then some (some true) else if n = 0 then some (some false) else none
  | _ => none

/-- A text, blank or not. -/
def anyText : Json → Option String
  | .str s => some s
  | _ => none

/-- A price that is not negative. -/
def price (v : Json) : Option Int := v.int?.bind fun n => if n < 0 then none else some n

/-- `_required_update_product_fields`. -/
def requiredUpdateProductFields : Json → Option ProductUpdate
  | .obj fields => do
      let productId ← (Json.get fields "product_id" .null).text?
      let name ← (Json.get fields "name" .null).optional Json.text?
      let category ← (Json.get fields "category" .null).optional Json.text?
      let priceRub ← (Json.get fields "price_rub" .null).optional price
      let description ← (Json.get fields "description" .null).optional anyText
      let imageUrl ← (Json.get fields "image_url" .null).optional anyText
      let isActive ← isActiveField (Json.get fields "is_active" .null)
      let sku ← (Json.get fields "sku" .null).optional Json.text?
      let sort ← (Json.get fields "sort" .null).optional Json.int?
      some { productId := strip productId, name := name.map strip, category := category.map strip,
             priceRub, description, imageUrl, isActive, sku := sku.map strip, sort }
  | _ => none

/-- A text that the driver reads as a `UUID` parameter. -/
def bindUuid (text : String) : MenuTool Uuid :=
  match B.readUuid text with
  | none => throw .dbapiError
  | some id => return id

/-- `validate_update_product_command`. -/
def validateUpdateProductCommand (command : Json) : MenuTool Int :=
  match requiredUpdateProductFields command with
  | none => return 0
  | some fields => do
      let id ← bindUuid B fields.productId
      let existing ← menuProducts.find id
      if existing.isNone then return 0
      else do
        let resolved ← resolves B fields.category
        return if resolved then 1 else 0

/-- The row after an update; a field that is left out keeps its value. -/
def ProductUpdate.apply (fields : ProductUpdate) (categoryId : Option Uuid) (row : MenuProduct) :
    MenuProduct :=
  { row with
    name := fields.name.getD row.name
    categoryId := categoryId <|> row.categoryId
    priceRub := fields.priceRub <|> row.priceRub
    description := fields.description <|> row.description
    imageUrl := fields.imageUrl <|> row.imageUrl
    isActive := fields.isActive.getD row.isActive
    sku := fields.sku <|> row.sku
    sort := fields.sort.getD row.sort }

/-- Every parameter of the update is one its column takes. -/
def ProductUpdate.fits (fields : ProductUpdate) : Bool :=
  fields.name.all storable && fields.priceRub.all int4 && fields.description.all storable &&
    fields.imageUrl.all storable && fields.sort.all int4

/-- The re-check of a new `sku` against the other products. -/
def requireSkuFree (id : Uuid) : Option String → MenuTool Unit
  | none => return ()
  | some sku => do
      bindParam (storable sku)
      let skuConflict ← menuProducts.filterForUpdate fun p => p.sku = some sku ∧ p.id ≠ id
      if !skuConflict.isEmpty then
        throw (.valueError ("sku not uniquely available at write time: " ++ B.repr sku))
      else return ()

/-- `apply_update_product_command`; it returns the id of the product. -/
def applyUpdateProductCommand (command : Json) : MenuTool String :=
  match requiredUpdateProductFields command with
  | none => throw (.valueError "apply_update_product_command: malformed command")
  | some fields => do
      let id ← bindUuid B fields.productId
      let existing ← menuProducts.findForUpdate id
      if existing.isNone then
        throw (.valueError ("product not found at write time: " ++ B.repr fields.productId))
      else do
        let categoryId ← lockOptional B "category" fields.category
        requireSkuFree B id fields.sku
        bindParam fields.fits
        -- only the constraints on columns that get a new value are checked
        menuProducts.rewrite
          (fun d row => hasCategory categoryId d && (fields.sku.isNone || skuFree row d)) id
          (fields.apply categoryId)
        return fields.productId

/-! ## Category update -/

/-- What `_required_update_category_fields` reads. -/
structure CategoryUpdate where
  categoryId : Uuid
  name : Option String
  parentCategory : Option String
  timePeriod : Option TimePeriod
  fulfillmentScope : Option FulfillmentScope
  sort : Option Int
  isActive : Option Bool
deriving DecidableEq

/-- A `bool`. -/
def anyBool : Json → Option Bool
  | .bool b => some b
  | _ => none

/-- `_required_update_category_fields`. -/
def requiredUpdateCategoryFields : Json → Option CategoryUpdate
  | .obj fields => do
      let rawId ← anyText (Json.get fields "category_id" .null)
      let categoryId ← readUuid rawId
      let name ← (Json.get fields "name" .null).optional Json.text?
      let parentCategory ← (Json.get fields "parent_category" .null).optional Json.text?
      let timePeriod ← (Json.get fields "time_period" .null).optional (word TimePeriod.ofText)
      let fulfillmentScope ←
        (Json.get fields "fulfillment_scope" .null).optional (word FulfillmentScope.ofText)
      let sort ← (Json.get fields "sort" .null).optional Json.int?
      let isActive ← (Json.get fields "is_active" .null).optional anyBool
      some { categoryId, name := name.map strip, parentCategory := parentCategory.map strip,
             timePeriod, fulfillmentScope, sort, isActive }
  | _ => none

/-- The other categories that carry a name. -/
def otherCategoriesNamed (name : String) (id : Uuid) (d : MenuDatabase) : List Category :=
  d.categories.filter fun c => B.lower c.name = B.lower name ∧ c.id ≠ id

/-- The other categories that carry an optional new name. -/
def nameConflicts (id : Uuid) : Option String → MenuTool (List Category)
  | none => return []
  | some name => do
      bindParam (storable name)
      Prog.select (otherCategoriesNamed B name id)

/-- Whether an optional parent name resolves to one category other than `id`. -/
def parentResolves (id : Uuid) : Option String → MenuTool Bool
  | none => return true
  | some parent => do
      bindParam (storable parent)
      let parentMatches ← Prog.select (categoriesNamed B.lower parent)
      return match parentMatches with
        | [row] => decide (row.id ≠ id)
        | _ => false

/-- `validate_update_category_command`. -/
def validateUpdateCategoryCommand (command : Json) : MenuTool Int :=
  match requiredUpdateCategoryFields command with
  | none => return 0
  | some fields => do
      let existing ← menuCategories.find fields.categoryId
      if existing.isNone then return 0
      else do
        let dup ← nameConflicts B fields.categoryId fields.name
        if !dup.isEmpty then return 0
        else do
          let resolved ← parentResolves B fields.categoryId fields.parentCategory
          return if resolved then 1 else 0

/-- The row after an update; a field that is left out keeps its value. -/
def CategoryUpdate.apply (fields : CategoryUpdate) (parentId : Option Uuid) (row : Category) :
    Category :=
  { row with
    name := fields.name.getD row.name
    parentCategoryId := parentId <|> row.parentCategoryId
    timePeriod := fields.timePeriod.getD row.timePeriod
    fulfillmentScope := fields.fulfillmentScope.getD row.fulfillmentScope
    sort := fields.sort.getD row.sort
    isActive := fields.isActive.getD row.isActive }

/-- The id of the parent an optional name resolves to, which may not be `id`. -/
def lockParent (id : Uuid) (parent : Option String) : MenuTool (Option Uuid) := do
  let parentId ← lockOptional B "parent category" parent
  if parentId = some id then throw (.valueError "category cannot be its own parent")
  else return parentId

/-- `apply_update_category_command`; it returns the id of the category. -/
def applyUpdateCategoryCommand (command : Json) : MenuTool Uuid :=
  match requiredUpdateCategoryFields command with
  | none => throw (.valueError "apply_update_category_command: malformed command")
  | some fields => do
      let existing ← menuCategories.findForUpdate fields.categoryId
      if existing.isNone then
        throw (.valueError ("category not found at write time: UUID('" ++ fields.categoryId.text ++
          "')"))
      else do
        let dup ← nameConflicts B fields.categoryId fields.name
        if !dup.isEmpty then
          throw (.valueError ("category name already in use at write time: " ++
            B.repr (fields.name.getD "")))
        else do
          let parentId ← lockParent B fields.categoryId fields.parentCategory
          bindParam (fields.sort.all int4)
          menuCategories.rewrite (fun d _ => hasCategory parentId d) fields.categoryId
            (fields.apply parentId)
          return fields.categoryId

end Sieshka.MenuAgentTools
