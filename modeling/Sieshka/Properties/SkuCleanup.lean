import Sieshka.Properties.GeneratedSkus
import Sieshka.Scripts.DuplicateItemSkus
import Mathlib.Data.List.Induction

/-!
# What the cleanup of item skus keeps

The cleanup deletes rows without looking at their stock, gives one row to every product
that has its name, and leaves to the order of the candidates which of several rows a
product takes.
-/

namespace Sieshka

open Transactions SkuGeneration

namespace SkuCleanup

/-! ## The specification -/

section

variable (lower : String → String) (tables : SkuTables)

/-- The candidates of the tables. -/
def candidatesOf : List Candidate :=
  findCandidates lower tables.products.rows tables.inventory.rows

/-- Tables that a cleanup may leave: the rows it deletes are without stock, every product
with a sku still has one that is its own, and there is nothing left to clean up. -/
structure Kept (products : Table MenuProduct.id) (inventory : Table Inventory.sku) : Prop where
  deleted : ∀ row ∈ tables.inventory.rows, row ∉ inventory.rows → row.quantity = 0
  total : (inventory.rows.map Inventory.quantity).sum =
    (tables.inventory.rows.map Inventory.quantity).sum
  own_sku : ∀ product ∈ tables.products.rows, product.sku ≠ none →
    ∃ product' ∈ products.rows, product'.id = product.id ∧ ∃ sku, product'.sku = some sku ∧
      ∀ other ∈ products.rows, other.sku = some sku → other = product'
  nothing_left : findCandidates lower products.rows inventory.rows = []

/-- The cleanup completes and keeps the stock, in whatever order the candidates come. -/
def CleansUp : Prop :=
  ∀ candidates : List Candidate, candidates.Perm (candidatesOf lower tables) →
    ∃ products inventory, applyCandidates (tables.products, tables.inventory) candidates =
      .ok (products, inventory) ∧ Kept lower tables products inventory

/-- The rows of the item skus are without stock, no two products share a legacy row, and a
product with several legacy rows has none with an item sku. -/
structure Unambiguous : Prop where
  empty : ∀ c ∈ candidatesOf lower tables, ∀ row ∈ tables.inventory.rows,
    row.sku = c.itemSku → row.quantity = 0
  one_product : ∀ c ∈ candidatesOf lower tables, ∀ c' ∈ candidatesOf lower tables,
    c.legacySku = c'.legacySku → c.productId = c'.productId
  no_item_sku : ∀ c ∈ candidatesOf lower tables, ∀ c' ∈ candidatesOf lower tables,
    c.productId = c'.productId → c.legacySku ≠ c'.legacySku → isItemSku c.legacySku = false

end

/-! ## Products that are relinked -/

/-- A product after the updates of some candidates. -/
def relinked (done : List Candidate) (product : MenuProduct) : MenuProduct :=
  done.foldl (fun product c =>
    if c.productId = product.id then { product with sku := some c.legacySku } else product) product

theorem relinked_append (done : List Candidate) (c : Candidate) (product : MenuProduct) :
    relinked (done ++ [c]) product =
      if c.productId = (relinked done product).id then
        { relinked done product with sku := some c.legacySku }
      else relinked done product := by
  rw [relinked, List.foldl_append]
  rfl

/-- An update changes the sku of a product only. -/
theorem relinked_eq (done : List Candidate) (product : MenuProduct) :
    relinked done product = { product with sku := (relinked done product).sku } := by
  induction done using List.reverseRecOn with
  | nil => rfl
  | append_singleton done c ih =>
      rw [relinked_append]
      split_ifs
      · rw [ih]
      · exact ih

@[simp] theorem relinked_id (done : List Candidate) (product : MenuProduct) :
    (relinked done product).id = product.id := by
  rw [relinked_eq]

@[simp] theorem relinked_name (done : List Candidate) (product : MenuProduct) :
    (relinked done product).name = product.name := by
  rw [relinked_eq]

/-- A product has the sku of one of its candidates, or its old one if it has none. -/
theorem relinked_sku_cases (done : List Candidate) (product : MenuProduct) :
    ((relinked done product).sku = product.sku ∧ ∀ c ∈ done, c.productId ≠ product.id) ∨
      ∃ c ∈ done, c.productId = product.id ∧
        (relinked done product).sku = some c.legacySku := by
  induction done using List.reverseRecOn with
  | nil => exact Or.inl ⟨rfl, by simp⟩
  | append_singleton done c ih =>
      rw [relinked_append, relinked_id]
      by_cases hid : c.productId = product.id
      · rw [if_pos hid]
        exact Or.inr ⟨c, by simp, hid, rfl⟩
      · rw [if_neg hid]
        rcases ih with ⟨hsku, hnone⟩ | ⟨c', hc', hid', hsku⟩
        · refine Or.inl ⟨hsku, ?_⟩
          intro c' hc'
          rcases List.mem_append.mp hc' with hc' | hc'
          · exact hnone c' hc'
          · rwa [List.mem_singleton.mp hc']
        · exact Or.inr ⟨c', List.mem_append_left _ hc', hid', hsku⟩

section Facts

variable {lower : String → String} {tables : SkuTables} {c : Candidate}

/-- The product of a candidate, and the row it is to take. -/
theorem candidate_facts (h : c ∈ candidatesOf lower tables) :
    ∃ product ∈ tables.products.rows, product.id = c.productId ∧
      product.sku = some c.itemSku ∧ isItemSku c.itemSku = true ∧
      ∃ row ∈ tables.inventory.rows, row.sku = c.legacySku ∧
        trimmedName lower row.name = trimmedName lower product.name ∧
        ∀ other ∈ tables.products.rows, other.sku ≠ some c.legacySku := by
  obtain ⟨product, hproduct, sku, hsku, hitem, row, hrow, hlegacy, rfl⟩ :=
    mem_findCandidates_iff.mp h
  obtain ⟨hname, -, hfree⟩ := isLegacyOf_iff.mp hlegacy
  exact ⟨product, hproduct, rfl, hsku, hitem, row, hrow, rfl, hname, hfree⟩

/-- Products with one id are one product. -/
theorem product_unique {product other : MenuProduct} (h : product ∈ tables.products.rows)
    (h' : other ∈ tables.products.rows) (hid : product.id = other.id) : product = other := by
  have hfind := Table.find_of_mem h
  rw [hid, Table.find_of_mem h'] at hfind
  exact (Option.some.inj hfind).symm

end Facts

/-! ## The run -/

/-- What the tables hold after the rounds of some candidates. -/
structure Applied (tables : SkuTables) (done : List Candidate)
    (st : Table MenuProduct.id × Table Inventory.sku) : Prop where
  products : st.1.rows = tables.products.rows.map (relinked done)
  inventory : st.2.rows =
    tables.inventory.rows.filter fun row => row.sku ∉ done.map Candidate.itemSku

section Run

variable {lower : String → String} {tables : SkuTables} {done : List Candidate} {c : Candidate}
  {st : Table MenuProduct.id × Table Inventory.sku}

theorem Applied.find (h : Applied tables done st) {product : MenuProduct}
    (hproduct : product ∈ tables.products.rows) :
    st.1.find product.id = some (relinked done product) := by
  have hmem : relinked done product ∈ st.1.rows := by
    rw [h.products]
    exact List.mem_map_of_mem hproduct
  have hfind := Table.find_of_mem hmem
  rwa [relinked_id] at hfind

/-- A round whose row no other product has taken is done. -/
theorem applyCandidate_of_free (h : Applied tables done st) (hc : c ∈ candidatesOf lower tables)
    (hfree : ∀ other ∈ tables.products.rows, other.id ≠ c.productId →
      (relinked done other).sku ≠ some c.legacySku) :
    ∃ st', applyCandidate st c = .ok st' ∧ Applied tables (done ++ [c]) st' := by
  obtain ⟨product, hproduct, hid, -, -, row, hrow, hsku, -⟩ := candidate_facts hc
  have hfind := h.find hproduct
  have hlength : ¬ 128 < c.legacySku.length := by
    rw [← hsku]
    exact not_lt.mpr (tables.legacy_fits row hrow)
  have hany : ¬ st.1.rows.any (fun other => other.id ≠ c.productId ∧
      other.sku = some c.legacySku) = true := by
    intro hany
    obtain ⟨other, hother, hsame⟩ := List.any_eq_true.mp hany
    rw [h.products] at hother
    obtain ⟨old, hold, rfl⟩ := List.mem_map.mp hother
    obtain ⟨hne, hsame⟩ := of_decide_eq_true hsame
    rw [relinked_id] at hne
    exact hfree old hold hne hsame
  have hupdate : updateSku st.1 c.productId c.legacySku =
      .ok (st.1.put { relinked done product with sku := some c.legacySku }) := by
    rw [updateSku, ← hid, hfind]
    dsimp only
    rw [if_neg hlength, hid, if_neg hany]
  refine ⟨(st.1.put { relinked done product with sku := some c.legacySku },
    st.2.remove c.itemSku), ?_, ?_, ?_⟩
  · rw [applyCandidate, hupdate]
    rfl
  · have hold : st.1.find ({ relinked done product with sku := some c.legacySku } :
        MenuProduct).id = some (relinked done product) := by
      rw [← hfind]
      exact congrArg _ (relinked_id done product)
    rw [Table.rows_put_of_find hold, h.products, List.map_map]
    apply List.map_congr_left
    intro other hother
    rw [relinked_append, Function.comp_apply, relinked_id, relinked_id, ← hid]
    by_cases hsame : other.id = product.id
    · obtain rfl := product_unique hother hproduct hsame
      simp only [if_true]
    · rw [if_neg hsame, if_neg (Ne.symm hsame)]
  · dsimp only [Table.remove]
    rw [h.inventory, List.filter_filter]
    apply List.filter_congr
    intro other _
    rw [Bool.eq_iff_iff]
    simp [and_comm, not_or]

/-- A round whose row another product has taken violates the unique column. -/
theorem applyCandidate_of_taken (h : Applied tables done st) (hc : c ∈ candidatesOf lower tables)
    {other : MenuProduct} (hother : other ∈ tables.products.rows) (hne : other.id ≠ c.productId)
    (hsku : (relinked done other).sku = some c.legacySku) :
    applyCandidate st c = .error .integrityError := by
  obtain ⟨product, hproduct, hid, -, -, row, hrow, hrowsku, -⟩ := candidate_facts hc
  have hlength : ¬ 128 < c.legacySku.length := by
    rw [← hrowsku]
    exact not_lt.mpr (tables.legacy_fits row hrow)
  have hany : st.1.rows.any (fun other => other.id ≠ c.productId ∧
      other.sku = some c.legacySku) = true := by
    apply List.any_eq_true.mpr
    refine ⟨relinked done other, ?_, decide_eq_true ⟨?_, hsku⟩⟩
    · rw [h.products]
      exact List.mem_map_of_mem hother
    · rwa [relinked_id]
  have hupdate : updateSku st.1 c.productId c.legacySku = .error .integrityError := by
    rw [updateSku, ← hid, h.find hproduct]
    dsimp only
    rw [if_neg hlength, hid, if_pos hany]
  rw [applyCandidate, hupdate]
  rfl

/-- What has not been taken is free for the product of a candidate. -/
theorem free_of_one_product (hc : c ∈ candidatesOf lower tables)
    (hone : ∀ c' ∈ done, c'.legacySku = c.legacySku → c'.productId = c.productId) :
    ∀ other ∈ tables.products.rows, other.id ≠ c.productId →
      (relinked done other).sku ≠ some c.legacySku := by
  intro other hother hne hsku
  obtain ⟨-, -, -, -, -, -, -, -, -, hfree⟩ := candidate_facts hc
  rcases relinked_sku_cases done other with ⟨hold, -⟩ | ⟨c', hc', hid, hnew⟩
  · exact hfree other hother (hold.symm.trans hsku)
  · have hsame := Option.some.inj (hnew.symm.trans hsku)
    exact hne (hid.symm.trans (hone c' hc' hsame))

/-- Candidates of which no two products share a row are all applied. -/
theorem applyCandidates_of_one_product (rest : List Candidate) (h : Applied tables done st)
    (hall : ∀ c' ∈ done ++ rest, c' ∈ candidatesOf lower tables)
    (hone : ∀ c ∈ done ++ rest, ∀ c' ∈ done ++ rest,
      c.legacySku = c'.legacySku → c.productId = c'.productId) :
    ∃ st', applyCandidates st rest = .ok st' ∧ Applied tables (done ++ rest) st' := by
  induction rest generalizing done st with
  | nil => exact ⟨st, rfl, by rwa [List.append_nil]⟩
  | cons c rest ih =>
      have hc : c ∈ done ++ c :: rest := by simp
      have hleft : ∀ c' ∈ done, c' ∈ done ++ c :: rest := fun c' => List.mem_append_left _
      obtain ⟨st₁, hstep, h₁⟩ := applyCandidate_of_free h (hall c hc)
        (free_of_one_product (hall c hc) fun c' hc' => hone c' (hleft c' hc') c hc)
      have happend : done ++ c :: rest = (done ++ [c]) ++ rest := by simp
      rw [happend] at hall hone ⊢
      obtain ⟨st', hrest, h'⟩ := ih h₁ hall hone
      refine ⟨st', ?_, h'⟩
      rw [applyCandidates, List.foldlM_cons, hstep]
      exact hrest

theorem applied_nil (tables : SkuTables) :
    Applied tables [] (tables.products, tables.inventory) := by
  constructor
  · exact (List.map_id _).symm
  · simp

end Run

/-! ## What is kept -/

theorem sum_filter_of_zero {rows : List Inventory} {p : Inventory → Bool}
    (h : ∀ row ∈ rows, p row = false → row.quantity = 0) :
    ((rows.filter p).map Inventory.quantity).sum = (rows.map Inventory.quantity).sum := by
  induction rows with
  | nil => rfl
  | cons row rest ih =>
      have hrest := ih fun row' hrow' => h row' (List.mem_cons_of_mem row hrow')
      cases hp : p row with
      | true => rw [List.filter_cons_of_pos hp, List.map_cons, List.map_cons, List.sum_cons,
          List.sum_cons, hrest]
      | false =>
          rw [List.filter_cons_of_neg (by simp [hp]), List.map_cons, List.sum_cons, hrest,
            h row List.mem_cons_self hp, zero_add]

section Kept

variable {lower : String → String} {tables : SkuTables} {candidates : List Candidate}
  {st : Table MenuProduct.id × Table Inventory.sku}

/-- A row that is left is not that of an item sku. -/
theorem Applied.mem_inventory_iff (h : Applied tables candidates st) {row : Inventory} :
    row ∈ st.2.rows ↔ row ∈ tables.inventory.rows ∧ ∀ c ∈ candidates, c.itemSku ≠ row.sku := by
  rw [h.inventory, List.mem_filter]
  simp

/-- No product that has a sku in the end shares it. -/
theorem relinked_injective (hall : ∀ c ∈ candidates, c ∈ candidatesOf lower tables)
    (hone : ∀ c ∈ candidates, ∀ c' ∈ candidates,
      c.legacySku = c'.legacySku → c.productId = c'.productId)
    {product other : MenuProduct} (hproduct : product ∈ tables.products.rows)
    (hother : other ∈ tables.products.rows) {sku : String}
    (hsku : (relinked candidates product).sku = some sku)
    (hsame : (relinked candidates other).sku = some sku) : other = product := by
  rcases relinked_sku_cases candidates product with ⟨hold, -⟩ | ⟨c, hc, hid, hnew⟩
  · rcases relinked_sku_cases candidates other with ⟨hold', -⟩ | ⟨c', hc', -, hnew'⟩
    · exact tables.sku_unique other hother product hproduct sku (hold'.symm.trans hsame)
        (hold.symm.trans hsku)
    · obtain ⟨-, -, -, -, -, -, -, -, -, hfree⟩ := candidate_facts (hall c' hc')
      exact absurd (hold.symm.trans (hsku.trans (hsame.symm.trans hnew')))
        (hfree product hproduct)
  · obtain ⟨-, -, -, -, -, -, -, -, -, hfree⟩ := candidate_facts (hall c hc)
    rcases relinked_sku_cases candidates other with ⟨hold', -⟩ | ⟨c', hc', hid', hnew'⟩
    · exact absurd (hold'.symm.trans (hsame.trans (hsku.symm.trans hnew))) (hfree other hother)
    · have hlegacy : c'.legacySku = c.legacySku :=
        Option.some.inj (hnew'.symm.trans (hsame.trans (hsku.symm.trans hnew)))
      apply product_unique hother hproduct
      rw [← hid', ← hid]
      exact hone c' hc' c hc hlegacy

/-- A row that no product has in the end was free before. -/
theorem free_before {row : Inventory} (h : Applied tables candidates st)
    (hall : ∀ c ∈ candidates, c ∈ candidatesOf lower tables) (hrow : row ∈ st.2.rows)
    (hfree : ∀ other ∈ st.1.rows, other.sku ≠ some row.sku) :
    ∀ other ∈ tables.products.rows, other.sku ≠ some row.sku := by
  intro other hother hsku
  rcases relinked_sku_cases candidates other with ⟨hold, -⟩ | ⟨c, hc, hid, -⟩
  · apply hfree (relinked candidates other)
    · rw [h.products]
      exact List.mem_map_of_mem hother
    · exact hold.trans hsku
  · -- the row that such a product had is deleted
    obtain ⟨product, hproduct, hid', hitem, -⟩ := candidate_facts (hall c hc)
    obtain rfl := product_unique hother hproduct (hid.symm.trans hid'.symm)
    have hsame : c.itemSku = row.sku := Option.some.inj (hitem.symm.trans hsku)
    exact (h.mem_inventory_iff.mp hrow).2 c hc hsame

theorem kept_of_unambiguous (hclear : Unambiguous lower tables)
    (hperm : candidates.Perm (candidatesOf lower tables)) (h : Applied tables candidates st) :
    Kept lower tables st.1 st.2 := by
  have hall : ∀ c ∈ candidates, c ∈ candidatesOf lower tables := fun c => hperm.mem_iff.mp
  have hone : ∀ c ∈ candidates, ∀ c' ∈ candidates,
      c.legacySku = c'.legacySku → c.productId = c'.productId :=
    fun c hc c' hc' => hclear.one_product c (hall c hc) c' (hall c' hc')
  constructor
  · intro row hrow hgone
    by_contra hquantity
    apply hgone
    refine h.mem_inventory_iff.mpr ⟨hrow, ?_⟩
    intro c hc hsku
    exact hquantity (hclear.empty c (hall c hc) row hrow hsku.symm)
  · rw [h.inventory]
    apply sum_filter_of_zero
    intro row hrow hitem
    have hmem : row.sku ∈ candidates.map Candidate.itemSku := by
      simpa using hitem
    obtain ⟨c, hc, hsku⟩ := List.mem_map.mp hmem
    exact hclear.empty c (hall c hc) row hrow hsku.symm
  · intro product hproduct hsome
    refine ⟨relinked candidates product, ?_, relinked_id _ _, ?_⟩
    · rw [h.products]
      exact List.mem_map_of_mem hproduct
    · have hhas : ∃ sku, (relinked candidates product).sku = some sku := by
        rcases relinked_sku_cases candidates product with ⟨hold, -⟩ | ⟨c, -, -, hnew⟩
        · rw [hold]
          exact Option.ne_none_iff_exists'.mp hsome
        · exact ⟨_, hnew⟩
      obtain ⟨sku, hsku⟩ := hhas
      refine ⟨sku, hsku, ?_⟩
      intro other hother hsame
      rw [h.products] at hother
      obtain ⟨old, hold, rfl⟩ := List.mem_map.mp hother
      rw [relinked_injective hall hone hproduct hold hsku hsame]
  · apply List.eq_nil_iff_forall_not_mem.mpr
    intro found hfound
    obtain ⟨product', hproduct', sku, hsku, hitem, row, hrow, hlegacy, -⟩ :=
      mem_findCandidates_iff.mp hfound
    obtain ⟨hname, hne, hfree⟩ := isLegacyOf_iff.mp hlegacy
    rw [h.products] at hproduct'
    obtain ⟨product, hproduct, rfl⟩ := List.mem_map.mp hproduct'
    rw [relinked_name] at hname
    have hbefore := free_before h hall hrow hfree
    have hstored := (h.mem_inventory_iff.mp hrow).1
    rcases relinked_sku_cases candidates product with ⟨hold, hnone⟩ | ⟨c, hc, hid, hnew⟩
    · have hcandidate := mem_findCandidates_iff.mpr ⟨product, hproduct, sku, hold.symm.trans hsku,
        hitem, row, hstored, isLegacyOf_iff.mpr ⟨hname, hne, hbefore⟩, rfl⟩
      exact hnone _ (hperm.mem_iff.mpr hcandidate) rfl
    · obtain rfl : c.legacySku = sku := Option.some.inj (hnew.symm.trans hsku)
      obtain ⟨owner, howner, hid', hold, hisitem, -⟩ := candidate_facts (hall c hc)
      obtain rfl := product_unique hproduct howner (hid.symm.trans hid'.symm)
      have hother : row.sku ≠ c.itemSku := by
        intro heq
        exact hbefore product hproduct (by rw [hold, heq])
      have hcandidate := mem_findCandidates_iff.mpr ⟨product, hproduct, c.itemSku, hold, hisitem,
        row, hstored, isLegacyOf_iff.mpr ⟨hname, hother, hbefore⟩, rfl⟩
      have hplain := hclear.no_item_sku c (hall c hc) _ hcandidate hid hne.symm
      rw [hplain] at hitem
      cases hitem

end Kept

/-! ## When the cleanup keeps the stock -/

section

variable {lower : String → String} {tables : SkuTables}

/-- Two candidates of different products for one row violate the unique column when they
come first. -/
theorem one_product_of_cleansUp (h : CleansUp lower tables) {c c' : Candidate}
    (hc : c ∈ candidatesOf lower tables) (hc' : c' ∈ candidatesOf lower tables)
    (hlegacy : c.legacySku = c'.legacySku) : c.productId = c'.productId := by
  by_contra hne
  have hleft : c' ∈ (candidatesOf lower tables).erase c := by
    apply (List.mem_erase_of_ne ?_).mpr hc'
    intro heq
    exact hne (by rw [heq])
  have hperm : (c :: c' :: ((candidatesOf lower tables).erase c).erase c').Perm
      (candidatesOf lower tables) :=
    ((List.perm_cons_erase hleft).symm.cons c).trans (List.perm_cons_erase hc).symm
  obtain ⟨products, inventory, hrun, -⟩ := h _ hperm
  have hfree : ∀ other ∈ tables.products.rows, other.id ≠ c.productId →
      (relinked [] other).sku ≠ some c.legacySku := free_of_one_product hc (by simp)
  obtain ⟨st, hstep, happlied⟩ := applyCandidate_of_free (applied_nil tables) hc hfree
  obtain ⟨product, hproduct, hid, -⟩ := candidate_facts hc
  have htaken : (relinked ([] ++ [c]) product).sku = some c'.legacySku := by
    rw [relinked_append, relinked_id, if_pos hid.symm, hlegacy]
  have hstep' := applyCandidate_of_taken happlied hc' hproduct (by rwa [hid]) htaken
  rw [applyCandidates, List.foldlM_cons, hstep] at hrun
  change (applyCandidate st c' >>= _) = _ at hrun
  rw [hstep'] at hrun
  cases hrun

/-- A cleanup that keeps the stock has done all its rounds. -/
theorem applied_of_cleansUp (h : CleansUp lower tables) {candidates : List Candidate}
    (hperm : candidates.Perm (candidatesOf lower tables)) :
    ∃ st : Table MenuProduct.id × Table Inventory.sku, Applied tables candidates st ∧
      Kept lower tables st.1 st.2 := by
  obtain ⟨products, inventory, hrun, hkept⟩ := h candidates hperm
  obtain ⟨st, hok, happlied⟩ := applyCandidates_of_one_product candidates
    (applied_nil tables) (fun c hc => hperm.mem_iff.mp hc) fun c hc c' hc' =>
      one_product_of_cleansUp h (hperm.mem_iff.mp hc) (hperm.mem_iff.mp hc')
  obtain rfl := Except.ok.inj (hok.symm.trans hrun)
  exact ⟨_, happlied, hkept⟩

/-- The cleanup completes and keeps the stock in every order of the candidates exactly when
the rows of the item skus are without stock, no two products share a legacy row, and no
product has several of which one has an item sku. -/
theorem cleansUp_iff (lower : String → String) (tables : SkuTables) :
    CleansUp lower tables ↔ Unambiguous lower tables := by
  constructor
  · intro h
    constructor
    · intro c hc row hrow hsku
      obtain ⟨st, happlied, hkept⟩ := applied_of_cleansUp h (List.Perm.refl _)
      apply hkept.deleted row hrow
      intro hleft
      exact (happlied.mem_inventory_iff.mp hleft).2 c hc hsku.symm
    · intro c hc c' hc' hlegacy
      exact one_product_of_cleansUp h hc hc' hlegacy
    · intro c hc c' hc' hid hne
      by_contra hitem
      have hperm : ((candidatesOf lower tables).erase c ++ [c]).Perm
          (candidatesOf lower tables) :=
        (List.perm_append_singleton c _).trans (List.perm_cons_erase hc).symm
      obtain ⟨st, happlied, hkept⟩ := applied_of_cleansUp h hperm
      obtain ⟨product, hproduct, hid', hsku, -⟩ := candidate_facts hc
      obtain ⟨other, hother, hid'', -, -, row, hrow, hrowsku, hname, hfree⟩ :=
        candidate_facts hc'
      obtain rfl := product_unique hproduct hother (hid'.trans (hid.trans hid''.symm))
      have hlast : (relinked ((candidatesOf lower tables).erase c ++ [c]) product).sku =
          some c.legacySku := by
        rw [relinked_append, relinked_id, if_pos hid'.symm]
      have hleft : row ∈ st.2.rows := by
        refine happlied.mem_inventory_iff.mpr ⟨hrow, ?_⟩
        intro c'' hc'' heq
        obtain ⟨owner, howner, -, hold, -⟩ := candidate_facts (hperm.mem_iff.mp hc'')
        exact hfree owner howner (by rw [hold, heq, hrowsku])
      have hunclaimed : ∀ x ∈ st.1.rows, x.sku ≠ some row.sku := by
        intro x hx hheld
        rw [happlied.products] at hx
        obtain ⟨old, hold, rfl⟩ := List.mem_map.mp hx
        rw [hrowsku] at hheld
        rcases relinked_sku_cases ((candidatesOf lower tables).erase c ++ [c]) old with
          ⟨hsame, -⟩ | ⟨c'', hc'', hid₂, hnew⟩
        · exact hfree old hold (hsame.symm.trans hheld)
        · have hone := one_product_of_cleansUp h (hperm.mem_iff.mp hc'') hc'
            (Option.some.inj (hnew.symm.trans hheld))
          obtain rfl := product_unique hold hproduct
            (hid₂.symm.trans (hone.trans (hid.symm.trans hid'.symm)))
          exact hne (Option.some.inj (hlast.symm.trans hheld))
      have hfound := mem_findCandidates_iff.mpr
        ⟨relinked ((candidatesOf lower tables).erase c ++ [c]) product,
          by rw [happlied.products]; exact List.mem_map_of_mem hproduct,
          c.legacySku, hlast, by simpa using hitem, row, hleft,
          isLegacyOf_iff.mpr ⟨by rw [relinked_name, hname],
            by rw [hrowsku]; exact hne.symm, hunclaimed⟩, rfl⟩
      rw [hkept.nothing_left] at hfound
      exact absurd hfound List.not_mem_nil
  · intro hclear candidates hperm
    obtain ⟨st, hok, happlied⟩ := applyCandidates_of_one_product candidates
      (applied_nil tables) (fun c hc => hperm.mem_iff.mp hc) fun c hc c' hc' =>
        hclear.one_product c (hperm.mem_iff.mp hc) c' (hperm.mem_iff.mp hc')
    exact ⟨st.1, st.2, hok, kept_of_unambiguous hclear hperm happlied⟩

end

/-! ## A row with stock -/

/-- A burger whose generated sku has received seven pieces, beside the row it had before. -/
def burgerTables : SkuTables where
  products := Table.empty.put { unlinked 1 "Burger" with sku := some "ITEM-1" }
  inventory := (Table.empty.put
    { sku := "ITEM-1", name := "Burger", quantity := 7, state := .AVAILABLE }).put
    { sku := "burger-firm", name := "burger ", quantity := 2, state := .AVAILABLE }
  name_fits := by decide +kernel
  sku_fits := by
    intro product hproduct sku hsku
    obtain rfl := List.mem_singleton.mp hproduct
    obtain rfl := Option.some.inj hsku
    decide +kernel
  sku_unique := by
    intro product hproduct other hother sku _ _
    rw [List.mem_singleton.mp hproduct, List.mem_singleton.mp hother]
  legacy_fits := by decide +kernel

/-- The seven pieces are deleted. -/
theorem stocked_row_deleted : ¬ CleansUp asciiLower burgerTables := by
  intro h
  obtain ⟨products, inventory, hrun, hkept⟩ := h _ (List.Perm.refl _)
  have hrows : ((applyCandidates (burgerTables.products, burgerTables.inventory)
      (candidatesOf asciiLower burgerTables)).toOption.map fun r => r.2.rows) =
        some [{ sku := "burger-firm", name := "burger ", quantity := 2, state := .AVAILABLE }] := by
    decide +kernel
  rw [hrun] at hrows
  have hinventory : inventory.rows = _ := Option.some.inj hrows
  have htotal := hkept.total
  rw [hinventory] at htotal
  revert htotal
  decide +kernel

end SkuCleanup

end Sieshka
