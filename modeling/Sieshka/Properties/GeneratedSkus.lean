import Sieshka.Specs.SkuGeneration

/-!
# A sku for every product

A name has up to 255 characters and a sku 128. The batch gives every product a sku of its
own exactly when each product has room at its turn; a single product that has none fails
the whole batch.
-/

namespace Sieshka

open Transactions

namespace SkuGeneration

section

variable (lower : String → String) (collate : String → String → Bool) (tables : SkuTables)

/-- The batch succeeds and leaves every product with a sku of its own that fits, and what
was set as it was. -/
def SkusGenerated : Prop :=
  ∃ products result,
    generateMissingSkus lower collate tables.products tables.inventory = .ok (products, result) ∧
      products.rows.map MenuProduct.id = tables.products.rows.map MenuProduct.id ∧
      (∀ product ∈ products.rows, ∃ sku, product.sku = some sku ∧ sku.length ≤ 128) ∧
      (∀ product ∈ products.rows, ∀ other ∈ products.rows, product.sku = other.sku →
        product = other) ∧
      ∀ product ∈ tables.products.rows, product.sku ≠ none → product ∈ products.rows

/-- The state the batch begins in. -/
def firstState : BatchState where
  products := tables.products
  taken := takenSkus tables.products
  assigned := []
  adoptedLegacy := 0

theorem inBatch_firstState :
    InBatch (firstState tables) (targets collate tables.products) := by
  constructor
  · intro sku
    exact List.mem_filterMap
  · exact tables.sku_fits
  · exact tables.sku_unique
  · intro product
    rw [targets, List.mem_insertionSort, List.mem_filter, Option.isNone_iff_eq_none]
    rfl
  · rw [targets, (List.perm_insertionSort _ _).nodup_iff]
    exact (List.Nodup.of_map _ tables.products.nodup).filter _

variable {lower collate tables} {products : Table MenuProduct.id} {result : SkuGenerationResult}

theorem generateMissingSkus_eq_ok :
    generateMissingSkus lower collate tables.products tables.inventory = .ok (products, result) ↔
      ∃ st, assignSkus lower tables.inventory.rows (firstState tables)
          (targets collate tables.products) = .ok st ∧
        products = st.products ∧
        result = { generated := st.assigned.length
                   adoptedLegacy := st.adoptedLegacy
                   assigned := st.assigned } := by
  change (assignSkus lower tables.inventory.rows (firstState tables)
    (targets collate tables.products) >>= _) = _ ↔ _
  cases hst : assignSkus lower tables.inventory.rows (firstState tables)
      (targets collate tables.products) with
  | error e =>
      constructor
      · intro h
        cases h
      · rintro ⟨st, h, -⟩
        cases h
  | ok st =>
      constructor
      · intro h
        obtain ⟨rfl, rfl⟩ := Prod.mk.inj (Except.ok.inj h)
        exact ⟨st, rfl, rfl, rfl⟩
      · rintro ⟨st', h, rfl, rfl⟩
        obtain rfl := Except.ok.inj h
        rfl

/-- A batch that returns had room for all and is finished. -/
theorem finished_of_generate
    (h : generateMissingSkus lower collate tables.products tables.inventory =
      .ok (products, result)) :
    RoomForAll lower tables.inventory.rows (takenSkus tables.products)
        (targets collate tables.products) ∧
      ∃ st, products = st.products ∧ Finished lower tables.inventory.rows (firstState tables)
        (targets collate tables.products) st := by
  obtain ⟨st, hst, rfl, -⟩ := generateMissingSkus_eq_ok.mp h
  obtain ⟨hroom, hfinished⟩ := finished_of_assignSkus (inBatch_firstState collate tables)
    tables.legacy_fits hst
  exact ⟨hroom, st, rfl, hfinished⟩

end

/-- The batch gives every product a sku exactly when each has room at its turn. -/
theorem skusGenerated_iff (lower : String → String) (collate : String → String → Bool)
    (tables : SkuTables) :
    SkusGenerated lower collate tables ↔
      RoomForAll lower tables.inventory.rows (takenSkus tables.products)
        (targets collate tables.products) := by
  constructor
  · rintro ⟨products, result, h, -⟩
    exact (finished_of_generate h).1
  · intro hroom
    obtain ⟨st, hst⟩ := assignSkus_returns (inBatch_firstState collate tables)
      tables.legacy_fits hroom
    have hok := generateMissingSkus_eq_ok.mpr ⟨st, hst, rfl, rfl⟩
    obtain ⟨-, hfinished⟩ := finished_of_assignSkus (inBatch_firstState collate tables)
      tables.legacy_fits hst
    have hsome : ∀ product ∈ st.products.rows, ∃ sku, product.sku = some sku := by
      intro product hproduct
      apply Option.ne_none_iff_exists'.mp
      intro hnone
      have hleft := (hfinished.ended.left_iff product).mpr ⟨hproduct, hnone⟩
      cases hleft
    refine ⟨st.products, _, hok, hfinished.ids, ?_, ?_, hfinished.kept⟩
    · intro product hproduct
      obtain ⟨sku, hsku⟩ := hsome product hproduct
      exact ⟨sku, hsku, hfinished.ended.fits product hproduct sku hsku⟩
    · intro product hproduct other hother heq
      obtain ⟨sku, hsku⟩ := hsome product hproduct
      exact hfinished.ended.unique product hproduct other hother sku hsku (heq ▸ hsku)

/-- A product of a name, without a sku. -/
def unlinked (id : Uuid) (name : String) : MenuProduct where
  id := id
  name := name
  categoryId := none
  timePeriodOverride := none
  priceRub := none
  description := none
  imageUrl := none
  isActive := true
  sku := none
  sort := 0

/-- One product with a name of 129 letters. -/
def longNameTables : SkuTables where
  products := Table.empty.put (unlinked 1 (String.ofList (List.replicate 129 'a')))
  inventory := .empty
  name_fits := by decide +kernel
  sku_fits := by
    intro product hproduct sku hsku
    obtain rfl := List.mem_singleton.mp hproduct
    cases hsku
  sku_unique := by
    intro product hproduct other hother sku _ _
    rw [List.mem_singleton.mp hproduct, List.mem_singleton.mp hother]
  legacy_fits := by
    intro row hrow
    cases hrow

/-- The slug of a long name does not fit in the column. -/
theorem long_name_not_generated :
    ¬ SkusGenerated asciiLower (fun a b => a ≤ b) longNameTables := by
  rintro ⟨products, result, h, -⟩
  have herror : (generateMissingSkus asciiLower (fun a b => a ≤ b) longNameTables.products
      longNameTables.inventory).toOption.isNone = true := by
    decide +kernel
  rw [h] at herror
  cases herror

end SkuGeneration

end Sieshka
