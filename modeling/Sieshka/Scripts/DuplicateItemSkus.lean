import Sieshka.Services.SkuGeneration

/-!
# The cleanup of duplicate item skus

`scripts/cleanup_duplicate_item_skus.py`: products whose `ITEM-` sku was generated beside an
inventory row of their name take the sku of that row, and the row that was generated with
the sku is deleted.

## Implementation notes

The query has no `ORDER BY`: the candidates come in any order. The updates and deletes are
one transaction. The report that is printed is left out.
-/

namespace Sieshka

open Transactions

namespace SkuCleanup

/-- A row that `_find_candidates` returns. -/
structure Candidate where
  productId : Uuid
  productName : String
  itemSku : String
  legacySku : String
  legacyQuantity : Int
  legacyState : InventoryState
deriving DecidableEq

/-- `sku LIKE 'ITEM-%'`. -/
def isItemSku (sku : String) : Bool := "ITEM-".toList.isPrefixOf sku.toList

section

variable (lower : String → String)

/-- `lower(trim(name))`: the server trims spaces only. -/
def trimmedName (name : String) : String :=
  lower (String.ofList (stripChars (· = ' ') name.toList))

/-- What the join and the filter ask of an inventory row, for a product with a sku. -/
def isLegacyOf (products : List MenuProduct) (product : MenuProduct) (sku : String)
    (row : Inventory) : Bool :=
  trimmedName lower row.name = trimmedName lower product.name && row.sku ≠ sku &&
    products.all fun other => other.sku ≠ some row.sku

/-- `_find_candidates`, in the order of the tables. -/
def findCandidates (products : List MenuProduct) (inventory : List Inventory) :
    List Candidate :=
  products.flatMap fun product =>
    match product.sku with
    | none => []
    | some sku =>
        if isItemSku sku then
          (inventory.filter (isLegacyOf lower products product sku)).map fun row =>
            { productId := product.id
              productName := product.name
              itemSku := sku
              legacySku := row.sku
              legacyQuantity := row.quantity
              legacyState := row.state }
        else []

/-- One round of `_apply`. -/
def applyCandidate (tables : Table MenuProduct.id × Table Inventory.sku) (c : Candidate) :
    Except PyError (Table MenuProduct.id × Table Inventory.sku) := do
  let products ← SkuGeneration.updateSku tables.1 c.productId c.legacySku
  return (products, tables.2.remove c.itemSku)

/-- `_apply`. -/
def applyCandidates (tables : Table MenuProduct.id × Table Inventory.sku)
    (candidates : List Candidate) :
    Except PyError (Table MenuProduct.id × Table Inventory.sku) :=
  candidates.foldlM applyCandidate tables

end

/-- What a candidate stands for. -/
theorem mem_findCandidates_iff {lower : String → String} {products : List MenuProduct}
    {inventory : List Inventory} {c : Candidate} :
    c ∈ findCandidates lower products inventory ↔
      ∃ product ∈ products, ∃ sku, product.sku = some sku ∧ isItemSku sku = true ∧
        ∃ row ∈ inventory, isLegacyOf lower products product sku row = true ∧
          c = ⟨product.id, product.name, sku, row.sku, row.quantity, row.state⟩ := by
  rw [findCandidates, List.mem_flatMap]
  constructor
  · rintro ⟨product, hproduct, hc⟩
    cases hsku : product.sku with
    | none => simp [hsku] at hc
    | some sku =>
        rw [hsku] at hc
        dsimp only at hc
        split_ifs at hc with hitem
        · obtain ⟨row, hrow, rfl⟩ := List.mem_map.mp hc
          obtain ⟨hmem, hlegacy⟩ := List.mem_filter.mp hrow
          exact ⟨product, hproduct, sku, hsku, hitem, row, hmem, hlegacy, rfl⟩
        · cases hc
  · rintro ⟨product, hproduct, sku, hsku, hitem, row, hmem, hlegacy, rfl⟩
    refine ⟨product, hproduct, ?_⟩
    rw [hsku]
    dsimp only
    rw [if_pos hitem]
    exact List.mem_map.mpr ⟨row, List.mem_filter.mpr ⟨hmem, hlegacy⟩, rfl⟩

theorem isLegacyOf_iff {lower : String → String} {products : List MenuProduct}
    {product : MenuProduct} {sku : String} {row : Inventory} :
    isLegacyOf lower products product sku row = true ↔
      trimmedName lower row.name = trimmedName lower product.name ∧ row.sku ≠ sku ∧
        ∀ other ∈ products, other.sku ≠ some row.sku := by
  simp [isLegacyOf, and_assoc]

end SkuCleanup

end Sieshka
