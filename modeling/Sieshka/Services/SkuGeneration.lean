import Sieshka.Database
import Sieshka.FreeNames
import Sieshka.Menu
import Sieshka.Services.MenuImportService
import Mathlib.Data.List.Sort

/-!
# Generated skus

`MenuImportService.generate_missing_skus`: every product without a sku adopts the sku of
the first inventory row with its name, or is given a slug of its name.

## Implementation notes

The batch runs in one session and commits at its end, so it either returns the table it
has written or leaves the stored one as it is. `ORDER BY name` sorts by the collation of
the database, a parameter here. The loop over suffixes is the one of `FreeNames`, which
ends because only so many skus are taken.
-/

namespace Sieshka

open Transactions

namespace SkuGeneration

/-! ## Slugs -/

/-- `[A-Za-z0-9]`. -/
def isAlnum (c : Char) : Bool :=
  ('A' ≤ c && c ≤ 'Z') || ('a' ≤ c && c ≤ 'z') || ('0' ≤ c && c ≤ '9')

/-- `re.sub(r"[^A-Za-z0-9]+", "-", text)`: within a run or not. -/
def dashed : Bool → List Char → List Char
  | _, [] => []
  | within, c :: rest =>
      if isAlnum c then c :: dashed false rest
      else if within then dashed true rest
      else '-' :: dashed true rest

/-- `_slugify_sku`. -/
def slugifySku (name : String) : String :=
  let asciiOnly := name.toList.filter fun c => c.toNat < 128
  String.ofList ((stripChars (fun c => c = '-') (dashed false asciiOnly)).map Char.toUpper)

/-- The slug a product is given: of its name, or of its id where the name has none. -/
def baseSku (product : MenuProduct) : String :=
  if slugifySku product.name = "" then
    String.ofList ("ITEM-".toList ++ (product.id.text.toList.take 8).map Char.toUpper)
  else slugifySku product.name

/-- The slug, and then the slug with a suffix from 2 on. -/
def candidate (base : String) : ℕ → String
  | 0 => base
  | n + 1 => base ++ ("-" ++ toString (n + 2))

theorem length_candidate_zero (base : String) : (candidate base 0).length = base.length := rfl

theorem length_candidate_succ (base : String) (n : ℕ) :
    (candidate base (n + 1)).length = base.length + (1 + (toString (n + 2)).length) := by
  rw [candidate, String.length_append, String.length_append]
  rfl

theorem candidate_injective (base : String) : Function.Injective (candidate base) := by
  have hne : ∀ n, candidate base (n + 1) ≠ candidate base 0 := by
    intro n h
    have hlength := congrArg String.length h
    rw [length_candidate_succ, length_candidate_zero] at hlength
    omega
  intro n m h
  cases n with
  | zero =>
      cases m with
      | zero => rfl
      | succ m => exact absurd h.symm (hne m)
  | succ n =>
      cases m with
      | zero => exact absurd h (hne n)
      | succ m =>
          have hlists := congrArg String.toList h
          simp only [candidate, String.toList_append, List.append_cancel_left_eq,
            Nat.toString_eq_repr, Nat.toList_repr] at hlists
          have hread := congrArg (fun digits => Nat.ofDigitChars 10 digits 0) hlists
          simpa using hread

/-! ## The batch -/

section Batch

variable (lower : String → String)

/-- `name.strip().lower()`. -/
def nameKey (name : String) : String := lower (strip name)

/-- `legacy_by_name.get(name.strip().lower())`: `setdefault` keeps the first row of a name. -/
def legacySku (inventory : List Inventory) (name : String) : Option String :=
  (inventory.find? fun row => nameKey lower row.name = nameKey lower name).map Inventory.sku

/-- The sku a product is given, and whether it is adopted. -/
def pickSku (inventory : List Inventory) (taken : List String) (product : MenuProduct) :
    String × Bool :=
  let generated := nextFree taken (candidate_injective (baseSku product))
  match legacySku lower inventory product.name with
  | some sku => if sku ∉ taken then (sku, true) else (generated, false)
  | none => (generated, false)

/-- `UPDATE products SET sku = :sku WHERE id = :id`: the column holds 128 characters and is
unique. -/
def updateSku (products : Table MenuProduct.id) (id : Uuid) (sku : String) :
    Except PyError (Table MenuProduct.id) :=
  match products.find id with
  | none => .ok products
  | some product =>
      if 128 < sku.length then .error .dbapiError
      else if products.rows.any fun other => other.id ≠ id ∧ other.sku = some sku then
        .error .integrityError
      else .ok (products.put { product with sku := some sku })

/-- An entry of `assigned`. -/
structure Assigned where
  productId : String
  name : String
  sku : String
deriving DecidableEq

/-- `SkuGenerationResult`. -/
structure SkuGenerationResult where
  generated : ℕ
  adoptedLegacy : ℕ
  assigned : List Assigned
deriving DecidableEq

/-- What the loop over the products has done. -/
structure BatchState where
  products : Table MenuProduct.id
  taken : List String
  assigned : List Assigned
  adoptedLegacy : ℕ

/-- One round of the loop. -/
def assignSku (inventory : List Inventory) (st : BatchState) (product : MenuProduct) :
    Except PyError BatchState := do
  let (sku, adopted) := pickSku lower inventory st.taken product
  let products ← updateSku st.products product.id sku
  return {
    products
    taken := sku :: st.taken
    assigned := st.assigned ++ [{ productId := product.id.text, name := product.name, sku }]
    adoptedLegacy := if adopted then st.adoptedLegacy + 1 else st.adoptedLegacy }

/-- The loop over the products. -/
def assignSkus (inventory : List Inventory) : BatchState → List MenuProduct →
    Except PyError BatchState
  | st, [] => .ok st
  | st, product :: rest => do
      let st ← assignSku lower inventory st product
      assignSkus inventory st rest

/-- The skus that are set. -/
def takenSkus (products : Table MenuProduct.id) : List String :=
  products.rows.filterMap MenuProduct.sku

/-- `SELECT id, name FROM products WHERE sku IS NULL ORDER BY name`. -/
def targets (collate : String → String → Bool) (products : Table MenuProduct.id) :
    List MenuProduct :=
  (products.rows.filter fun product => product.sku.isNone).insertionSort fun p q =>
    collate p.name q.name = true

/-- `MenuImportService.generate_missing_skus`: the products as they are committed, and the
result. -/
def generateMissingSkus (collate : String → String → Bool) (products : Table MenuProduct.id)
    (inventory : Table Inventory.sku) :
    Except PyError (Table MenuProduct.id × SkuGenerationResult) := do
  let st ← assignSkus lower inventory.rows
    { products, taken := takenSkus products, assigned := [], adoptedLegacy := 0 }
    (targets collate products)
  return (st.products, {
    generated := st.assigned.length
    adoptedLegacy := st.adoptedLegacy
    assigned := st.assigned })

end Batch

end SkuGeneration

end Sieshka
