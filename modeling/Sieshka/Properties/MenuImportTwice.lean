import Sieshka.Properties.MenuImport
import Sieshka.Specs.MenuImport

/-!
# Importing a file twice

The parser takes two names for one when they differ in case and white space, the tool
when they differ in case only. An import that goes through can be repeated, and writes
every row over the product the parser takes it for, exactly when the two agree on the
rows it writes.
-/

namespace Sieshka

open Transactions Prog MenuDatabase

namespace MenuImportService

/-! ## The specification -/

/-- The products a name is that of, for the parser. -/
def sameNorm (P : TextFunctions) (d : MenuDatabase) (name : String) : List MenuProduct :=
  d.products.rows.filter fun p => normalize P p.name = normalize P name

/-- The rows of the file that are sound and the first of their name, as they are to be
written. -/
inductive Picks (P : TextFunctions) (categories : List Category) (existing : List MenuProduct)
    (columns : List (Column × Nat)) :
    List (List String) → List (List String) → List ProductRow → Prop
  | nil {before} : Picks P categories existing columns before [] []
  | taken {before raw rest row rows} (hsound : Sound P categories existing columns raw)
      (hfirst : ∀ earlier ∈ before, Sound P categories existing columns earlier →
        normOf P columns earlier ≠ normOf P columns raw)
      (hreads : Reads P categories columns raw row)
      (h : Picks P categories existing columns (before ++ [raw]) rest rows) :
      Picks P categories existing columns before (raw :: rest) (row :: rows)
  | left {before raw rest rows}
      (hnot : ¬ (Sound P categories existing columns raw ∧
        ∀ earlier ∈ before, Sound P categories existing columns earlier →
          normOf P columns earlier ≠ normOf P columns raw))
      (h : Picks P categories existing columns (before ++ [raw]) rest rows) :
      Picks P categories existing columns before (raw :: rest) rows

/-- A product that alone has the name of a row for the parser is the only one that has it
for the tool. -/
def Agree (P : TextFunctions) (B : Backend) (d : MenuDatabase) (rows : List ProductRow) : Prop :=
  ∀ row ∈ rows, ∀ p, sameNorm P d row.name = [p] → productsNamed B.lower row.name d = [p]

variable {P : TextFunctions} {categories : List Category} {existing existing' : List MenuProduct}
  {columns : List (Column × Nat)}

/-! ## Parsing -/

theorem Reads.unique {raw : List String} {row row' : ProductRow}
    (h : Reads P categories columns raw row) (h' : Reads P categories columns raw row') :
    row = row' := by
  have hcategory := Option.some.inj (h.category.symm.trans h'.category)
  have hprice := Option.some.inj (Except.ok.inj (h.price.symm.trans h'.price))
  cases row
  cases row'
  simp only [ProductRow.mk.injEq]
  refine ⟨h.name.trans h'.name.symm, hcategory, hprice, h.description.trans h'.description.symm,
    h.imageUrl.trans h'.imageUrl.symm, ?_⟩
  exact h.active.trans ((congrArg Option.isSome hprice).trans h'.active.symm)

theorem Picks.unique {before raws : List (List String)} {rows rows' : List ProductRow}
    (h : Picks P categories existing columns before raws rows)
    (h' : Picks P categories existing columns before raws rows') : rows = rows' := by
  induction h generalizing rows' with
  | nil =>
      cases h'
      rfl
  | taken hsound hfirst hreads _ ih =>
      cases h' with
      | taken _ _ hreads' hrest => rw [hreads.unique hreads', ih hrest]
      | left hnot _ => exact absurd ⟨hsound, hfirst⟩ hnot
  | left hnot _ ih =>
      cases h' with
      | taken hsound hfirst _ _ => exact absurd ⟨hsound, hfirst⟩ hnot
      | left _ hrest => exact ih hrest

theorem Picks.mem {before raws : List (List String)} {rows : List ProductRow}
    (h : Picks P categories existing columns before raws rows) :
    ∀ row ∈ rows, ∃ raw, Sound P categories existing columns raw ∧
      Reads P categories columns raw row := by
  induction h with
  | nil => simp
  | taken hsound _ hreads _ ih =>
      rw [List.forall_mem_cons]
      exact ⟨⟨_, hsound, hreads⟩, ih⟩
  | left _ _ ih => exact ih

theorem Picks.length_le {before raws : List (List String)} {rows : List ProductRow}
    (h : Picks P categories existing columns before raws rows) : rows.length ≤ raws.length := by
  induction h with
  | nil => exact Nat.le_refl _
  | taken _ _ _ _ ih => exact Nat.succ_le_succ ih
  | left _ _ ih => exact Nat.le_succ_of_le ih

/-- A category that a text names is one of the categories. -/
theorem mem_of_resolveCategory {categoryRaw : String} {id : Uuid}
    (h : resolveCategory P categories categoryRaw = some id) : ∃ cat ∈ categories, cat.id = id := by
  have hname (h : dictGet (categories.map fun cat => (normalize P cat.name, cat.id))
      (normalize P categoryRaw) = some id) : ∃ cat ∈ categories, cat.id = id := by
    have hmem := mem_of_dictGet h
    obtain ⟨cat, hcat, heq⟩ := List.mem_map.mp hmem
    exact ⟨cat, hcat, congrArg Prod.snd heq⟩
  unfold resolveCategory at h
  dsimp only at h
  split at h
  · rename_i id' hid
    obtain rfl := Option.some.inj h
    split at hid
    · have hmem := mem_of_dictGet hid
      obtain ⟨cat, hcat, heq⟩ := List.mem_filterMap.mp hmem
      obtain ⟨_, -, heq⟩ := Option.map_eq_some_iff.mp heq
      exact ⟨cat, hcat, congrArg Prod.snd heq⟩
    · cases hid
  · exact hname h

theorem Reads.hasCategory {d : MenuDatabase} {raw : List String} {row : ProductRow}
    (h : Reads P d.categories.rows columns raw row) : hasCategory row.categoryId d = true := by
  have hcategory := h.category
  unfold categoryOf at hcategory
  split_ifs at hcategory with hblank
  · rw [← Option.some.inj hcategory]
    rfl
  · obtain ⟨id, hid, heq⟩ := Option.map_eq_some_iff.mp hcategory
    obtain ⟨cat, hmem, rfl⟩ := mem_of_resolveCategory hid
    rw [← heq]
    simp [MenuDatabase.hasCategory, Table.find_of_mem hmem]

/-! ## One import -/

section Import

variable {E₀ : Engine MenuDatabase MenuWrite} {B : Backend} {fileBytes : ByteArray}
  {d : MenuDatabase} {rows : List ProductRow} {skipped : List SkippedRow}

theorem Picks.hasCategory {before raws : List (List String)}
    (h : Picks P d.categories.rows existing columns before raws rows) :
    ∀ row ∈ rows, hasCategory row.categoryId d = true := by
  intro row hrow
  obtain ⟨raw, -, hreads⟩ := h.mem row hrow
  exact hreads.hasCategory

theorem Writable.of_append {before after : List ProductRow} (h : Writable B d [] (before ++ after)) :
    Writable B d [] before := by
  intro mid row rest heq
  refine h mid row (rest ++ after) ?_
  rw [heq, List.append_assoc, List.cons_append]

end Import

end MenuImportService

end Sieshka
