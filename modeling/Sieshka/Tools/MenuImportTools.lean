import Sieshka.Tools.MenuAgentTools

/-!
# The tool of the menu import

The batch upsert of validated rows, by name without regard to case.
-/

namespace Sieshka.MenuImportTools

open Transactions MenuDatabase

variable (B : Backend)

/-- A dumped `ProductRow`. -/
structure ProductRow where
  name : String
  categoryId : Option String
  priceRub : Option Int
  description : Option String
  imageUrl : Option String
  isActive : Bool

/-- `UUID(category_id_raw)` of a text that is there. -/
def ProductRow.category (row : ProductRow) : Except PyError (Option Uuid) :=
  match row.categoryId with
  | none => .ok none
  | some text => if text = "" then .ok none else (uuid text).map some

/-- Every parameter of the write is one its column takes. -/
def ProductRow.fits (row : ProductRow) : Bool :=
  row.priceRub.all int4 && row.description.all storable && row.imageUrl.all storable

/-- One row of the import: whether it was written. -/
def importRow (row : ProductRow) : MenuTool Bool := do
  let categoryId ← liftExcept row.category
  bindParam (storable row.name)
  let found ← Prog.select (productsNamed B.lower row.name)
  match found with
  | [] => do
      bindParam row.fits
      let id ← menuUuid
      menuProducts.insert (hasCategory categoryId)
        { id, name := row.name, categoryId, timePeriodOverride := none, priceRub := row.priceRub,
          description := row.description, imageUrl := row.imageUrl, isActive := row.isActive,
          sku := none, sort := 0 }
      return true
  | [product] => do
      bindParam row.fits
      menuProducts.rewrite (fun d _ => hasCategory categoryId d) product.id fun p =>
        { p with categoryId, priceRub := row.priceRub, description := row.description
                 imageUrl := row.imageUrl, isActive := row.isActive }
      return true
  | _ => return false

/-- `apply_menu_import`: the number of rows written and the names of those skipped
as ambiguous. -/
def applyMenuImport : List ProductRow → MenuTool (Nat × List String)
  | [] => return (0, [])
  | row :: rest => do
      let written ← importRow B row
      let (imported, skipped) ← applyMenuImport rest
      return if written then (imported + 1, skipped) else (imported, row.name :: skipped)

end Sieshka.MenuImportTools

namespace Sieshka

open MenuAgentTools MenuImportTools

/-- A call of one of the tools that write categories or products. -/
inductive MenuCommand
  | applyMenu (command : Json)
  | applyCategory (command : Json)
  | applyUpdateProduct (command : Json)
  | applyUpdateCategory (command : Json)
  | applyMenuImport (rows : List ProductRow)

/-- The tool of a call. -/
def MenuCommand.tool (B : Backend) : MenuCommand → MenuTool Unit
  | applyMenu command => do
      let _ ← applyMenuCommand B command
      return ()
  | applyCategory command => do
      let _ ← applyCategoryCommand B command
      return ()
  | applyUpdateProduct command => do
      let _ ← applyUpdateProductCommand B command
      return ()
  | applyUpdateCategory command => do
      let _ ← applyUpdateCategoryCommand B command
      return ()
  | applyMenuImport rows => do
      let _ ← MenuImportTools.applyMenuImport B rows
      return ()

end Sieshka
