import Sieshka.Properties.GeneratedSkus

/-!
# Which inventory row a generated sku links to

A sku links a product to the inventory row that has it. The batch adopts the sku of the
first row with the product's name and passes over the others, and a slug it generates may
be the sku of a row with another name.
-/

namespace Sieshka

open Transactions

namespace SkuGeneration

section

variable (lower : String → String)

/-! ## The specification -/

/-- The sku that is given to a product is that of inventory rows with its name only, and of
one of them where one has a sku that no other product holds. -/
def Linked (inventory : List Inventory) (products : List MenuProduct) (product : MenuProduct)
    (sku : String) : Prop :=
  (∀ row ∈ inventory, row.sku = sku → SameName lower row product) ∧
    ((∃ row ∈ inventory, SameName lower row product ∧
        ∀ other ∈ products, other.id ≠ product.id → other.sku ≠ some row.sku) →
      ∃ row ∈ inventory, SameName lower row product ∧ row.sku = sku)

/-- A product that receives a sku in a batch that returns is linked to rows with its name
only, and to one of them where one has a sku that no other product holds in the end. -/
def LinksRight (collate : String → String → Bool) (tables : SkuTables) : Prop :=
  ∀ products result,
    generateMissingSkus lower collate tables.products tables.inventory = .ok (products, result) →
      ∀ product ∈ tables.products.rows, product.sku = none →
        ∀ product' ∈ products.rows, product'.id = product.id →
          ∀ sku, product'.sku = some sku →
            Linked lower tables.inventory.rows products.rows product sku

/-- No row with the name of the product has a sku it can adopt, and the `n`-th candidate of
its slug is the first that is not taken. -/
def FallsBack (inventory : List Inventory) (taken : List String) (product : MenuProduct) (n : ℕ) :
    Prop :=
  ¬ Adopts lower inventory taken product ∧ FirstFree (candidate (baseSku product)) taken n

/-- One of the products falls back to the sku. -/
def FallenBackTo (inventory : List Inventory) (taken : List String) (products : List MenuProduct)
    (sku : String) : Prop :=
  ∃ before product after taken' n, products = before ++ product :: after ∧
    Takes lower inventory taken before taken' ∧ FallsBack lower inventory taken' product n ∧
      candidate (baseSku product) n = sku

/-- Where a product falls back to a candidate of its slug, no row of another name has that
sku; and unless a row of its own name has it, every such row has a sku that is taken by
then or falls to a later product. -/
def NothingMixed (inventory : List Inventory) (taken : List String)
    (products : List MenuProduct) : Prop :=
  ∀ before product after, products = before ++ product :: after →
    ∀ taken' n, Takes lower inventory taken before taken' →
      FallsBack lower inventory taken' product n →
      (∀ row ∈ inventory, row.sku = candidate (baseSku product) n → SameName lower row product) ∧
      ((∃ row ∈ inventory, SameName lower row product ∧
          row.sku = candidate (baseSku product) n) ∨
        ∀ row ∈ inventory, SameName lower row product →
          row.sku ∈ taken' ∨ FallenBackTo lower inventory
            (candidate (baseSku product) n :: taken') after row.sku)

end

variable {lower : String → String} {inventory : List Inventory} {taken taken' : List String}
  {product : MenuProduct}

/-! ## What is taken -/

theorem Takes.mem_iff {products : List MenuProduct} {sku : String}
    (h : Takes lower inventory taken products taken') :
    sku ∈ taken' ↔ sku ∈ taken ∨ ∃ before product after mid,
      products = before ++ product :: after ∧ Takes lower inventory taken before mid ∧
        Due lower inventory mid product sku := by
  induction h with
  | nil => simp
  | @cons taken first given rest taken' hdue _ ih =>
      rw [ih, List.mem_cons]
      constructor
      · rintro ((rfl | hmem) | ⟨before, product, after, mid, rfl, htakes, hsku⟩)
        · exact Or.inr ⟨[], first, rest, taken, rfl, Takes.nil, hdue⟩
        · exact Or.inl hmem
        · exact Or.inr ⟨first :: before, product, after, mid, rfl, htakes.cons hdue, hsku⟩
      · rintro (hmem | ⟨before, product, after, mid, heq, htakes, hsku⟩)
        · exact Or.inl (Or.inr hmem)
        · cases htakes with
          | nil =>
              obtain ⟨rfl, -⟩ := List.cons.inj heq
              exact Or.inl (Or.inl (hsku.unique hdue))
          | cons hdue' htakes =>
              obtain ⟨rfl, rfl⟩ := List.cons.inj heq
              rw [hdue'.unique hdue] at htakes
              exact Or.inr ⟨_, product, after, mid, rfl, htakes, hsku⟩

theorem Takes.of_append {before after : List MenuProduct} {mid : List String}
    (h : Takes lower inventory taken (before ++ after) taken')
    (hbefore : Takes lower inventory taken before mid) : Takes lower inventory mid after taken' := by
  induction hbefore with
  | nil => exact h
  | cons hdue _ ih =>
      cases h with
      | cons hdue' h =>
          apply ih
          rw [hdue.unique hdue']
          exact h

/-- A row whose name is that of a product which does not adopt its sku is adopted by no
other product either. -/
theorem not_adopted {row : Inventory} {other : MenuProduct} (hname : SameName lower row product)
    (hno : ¬ Adopts lower inventory taken product) (hsub : taken ⊆ taken')
    (hfirst : FirstNamed lower inventory other row) : row.sku ∈ taken' := by
  have hnames : nameKey lower other.name = nameKey lower product.name := hfirst.1.symm.trans hname
  have hsame : FirstNamed lower inventory product row := by
    rw [firstNamed_iff, ← hnames, ← firstNamed_iff]
    exact hfirst
  by_contra hfree
  exact hno ⟨row, hsame, fun hmem => hfree (hsub hmem)⟩

/-- What is taken in the end of a row with the name of a product that falls back. -/
theorem mem_takes_fallback {row : Inventory} (hrow : row ∈ inventory)
    (hunique : ∀ row ∈ inventory, ∀ row' ∈ inventory, row.sku = row'.sku → row = row')
    (hname : SameName lower row product) {n : ℕ} (hback : FallsBack lower inventory taken product n)
    (hne : row.sku ≠ candidate (baseSku product) n) {after : List MenuProduct}
    (htakes : Takes lower inventory (candidate (baseSku product) n :: taken) after taken') :
    row.sku ∈ taken' ↔ row.sku ∈ taken ∨
      FallenBackTo lower inventory (candidate (baseSku product) n :: taken) after row.sku := by
  rw [htakes.mem_iff, List.mem_cons]
  constructor
  · rintro ((heq | hmem) | ⟨before, other, rest, mid, rfl, hmid, hdue⟩)
    · exact absurd heq hne
    · exact Or.inl hmem
    · apply Or.inr
      have hsub : taken ⊆ mid := List.Subset.trans (List.subset_cons_self _ _) hmid.subset
      generalize hsku : row.sku = sku at hdue
      cases hdue with
      | adopted hfirst hfree =>
          obtain rfl := hunique row hrow _ hfirst.mem hsku
          exact absurd (not_adopted hname hback.1 hsub hfirst) hfree
      | slug hno hfirst => exact ⟨before, other, rest, mid, _, rfl, hmid, ⟨hno, hfirst⟩, rfl⟩
  · rintro (hmem | ⟨before, other, rest, mid, m, rfl, hmid, ⟨hno, hfirst⟩, hsku⟩)
    · exact Or.inl (Or.inr hmem)
    · have hdue : Due lower inventory mid other row.sku := by
        rw [← hsku]
        exact Due.slug hno hfirst
      exact Or.inr ⟨before, other, rest, mid, rfl, hmid, hdue⟩

/-! ## The end of a batch -/

section Ended

variable {st st' : BatchState} {before after : List MenuProduct} {mid : List String} {sku : String}

/-- The row of a product that was left has the sku it was due. -/
theorem Finished.eq_withSku
    (h : Finished lower inventory st (before ++ product :: after) st')
    (hbefore : Takes lower inventory st.taken before mid)
    (hdue : Due lower inventory mid product sku) {product' : MenuProduct}
    (hmem : product' ∈ st'.products.rows) (hid : product'.id = product.id) :
    product' = withSku product sku := by
  have hgiven := Table.find_of_mem (h.given before product after rfl mid sku hbefore hdue)
  have hfind := Table.find_of_mem hmem
  rw [hid] at hfind
  exact Option.some.inj (hfind.symm.trans hgiven)

/-- Another product has a sku in the end exactly when it is taken. -/
theorem Finished.exists_other_iff
    (h : Finished lower inventory st (before ++ product :: after) st')
    (hbefore : Takes lower inventory st.taken before mid)
    (hdue : Due lower inventory mid product sku) {sku' : String} (hne : sku' ≠ sku) :
    (∃ other ∈ st'.products.rows, other.id ≠ product.id ∧ other.sku = some sku') ↔
      sku' ∈ st'.taken := by
  rw [h.ended.taken_iff]
  constructor
  · rintro ⟨other, hother, -, hsku⟩
    exact ⟨other, hother, hsku⟩
  · rintro ⟨other, hother, hsku⟩
    refine ⟨other, hother, ?_, hsku⟩
    intro hid
    have heq := h.eq_withSku hbefore hdue hother hid
    rw [heq] at hsku
    exact hne (Option.some.inj hsku).symm

/-- The skus that are taken from the turn of a product on. -/
theorem Finished.takes_after
    (h : Finished lower inventory st (before ++ product :: after) st')
    (hbefore : Takes lower inventory st.taken before mid)
    (hdue : Due lower inventory mid product sku) :
    Takes lower inventory (sku :: mid) after st'.taken := by
  cases h.takes.of_append hbefore with
  | cons hdue' hafter =>
      rw [hdue.unique hdue']
      exact hafter

end Ended

/-! ## Which products are linked -/

/-- What a product adopts is the sku of one row, which has its name. -/
theorem linked_of_adopted
    (hunique : ∀ row ∈ inventory, ∀ row' ∈ inventory, row.sku = row'.sku → row = row')
    {row : Inventory} (hrow : FirstNamed lower inventory product row)
    (products : List MenuProduct) : Linked lower inventory products product row.sku := by
  constructor
  · intro row' hrow' hsame
    rw [hunique row' hrow' row hrow.mem hsame]
    exact hrow.1
  · intro _
    exact ⟨row, hrow.mem, hrow.1, rfl⟩

/-- When a product that falls back is linked right in the end. -/
theorem Finished.linked_iff {st st' : BatchState} {before after : List MenuProduct}
    {mid : List String} {n : ℕ}
    (h : Finished lower inventory st (before ++ product :: after) st')
    (hunique : ∀ row ∈ inventory, ∀ row' ∈ inventory, row.sku = row'.sku → row = row')
    (hbefore : Takes lower inventory st.taken before mid)
    (hback : FallsBack lower inventory mid product n) :
    Linked lower inventory st'.products.rows product (candidate (baseSku product) n) ↔
      (∀ row ∈ inventory, row.sku = candidate (baseSku product) n → SameName lower row product) ∧
      ((∃ row ∈ inventory, SameName lower row product ∧
          row.sku = candidate (baseSku product) n) ∨
        ∀ row ∈ inventory, SameName lower row product →
          row.sku ∈ mid ∨ FallenBackTo lower inventory (candidate (baseSku product) n :: mid)
            after row.sku) := by
  have hdue : Due lower inventory mid product (candidate (baseSku product) n) :=
    Due.slug hback.1 hback.2
  have hafter := h.takes_after hbefore hdue
  have hheld : ∀ row ∈ inventory, SameName lower row product →
      row.sku ≠ candidate (baseSku product) n →
      ((∃ other ∈ st'.products.rows, other.id ≠ product.id ∧ other.sku = some row.sku) ↔
        row.sku ∈ mid ∨ FallenBackTo lower inventory (candidate (baseSku product) n :: mid)
          after row.sku) := by
    intro row hrow hname hne
    rw [h.exists_other_iff hbefore hdue hne]
    exact mem_takes_fallback hrow hunique hname hback hne hafter
  apply and_congr_right
  intro _
  by_cases hsome : ∃ row ∈ inventory, SameName lower row product ∧
      row.sku = candidate (baseSku product) n
  · exact iff_of_true (fun _ => hsome) (Or.inl hsome)
  · have hne : ∀ row ∈ inventory, SameName lower row product →
        row.sku ≠ candidate (baseSku product) n := by
      intro row hrow hname heq
      exact hsome ⟨row, hrow, hname, heq⟩
    constructor
    · intro hown
      apply Or.inr
      intro row hrow hname
      rw [← hheld row hrow hname (hne row hrow hname)]
      by_contra hfree
      apply hsome
      apply hown
      refine ⟨row, hrow, hname, ?_⟩
      intro other hother hid hsku
      exact hfree ⟨other, hother, hid, hsku⟩
    · rintro hall ⟨row, hrow, hname, hfree⟩
      have htaken := (hall.resolve_left hsome) row hrow hname
      rw [← hheld row hrow hname (hne row hrow hname)] at htaken
      obtain ⟨other, hother, hid, hsku⟩ := htaken
      exact absurd hsku (hfree other hother hid)

/-- Two inventory rows with one sku are one row. -/
theorem SkuTables.row_unique (tables : SkuTables) : ∀ row ∈ tables.inventory.rows,
    ∀ row' ∈ tables.inventory.rows, row.sku = row'.sku → row = row' := by
  intro row hrow row' hrow' heq
  have hfind := Table.find_of_mem hrow
  rw [heq, Table.find_of_mem hrow'] at hfind
  exact (Option.some.inj hfind).symm

/-- A batch links products to rows of their names exactly when it cannot return, or no
product that falls back to its slug meets a row of another name or passes over a free one
of its own. -/
theorem linksRight_iff (lower : String → String) (collate : String → String → Bool)
    (tables : SkuTables) :
    LinksRight lower collate tables ↔
      (RoomForAll lower tables.inventory.rows (takenSkus tables.products)
          (targets collate tables.products) →
        NothingMixed lower tables.inventory.rows (takenSkus tables.products)
          (targets collate tables.products)) := by
  have hleft := (inBatch_firstState collate tables).left_iff
  constructor
  · intro h hroom before product after hsplit mid n hbefore hback
    obtain ⟨st, hst⟩ := assignSkus_returns (inBatch_firstState collate tables)
      tables.legacy_fits hroom
    have hok := generateMissingSkus_eq_ok.mpr ⟨st, hst, rfl, rfl⟩
    obtain ⟨-, hfinished⟩ := finished_of_assignSkus (inBatch_firstState collate tables)
      tables.legacy_fits hst
    rw [hsplit] at hfinished
    rw [← hfinished.linked_iff tables.row_unique hbefore hback]
    obtain ⟨hmem, hnone⟩ := (hleft product).mp (by rw [hsplit]; simp)
    have hgiven := hfinished.given before product after rfl mid _ hbefore
      (Due.slug hback.1 hback.2)
    exact h st.products _ hok product hmem hnone _ hgiven rfl _ rfl
  · intro h products result hok product hmem hnone product' hmem' hid sku hsku
    obtain ⟨hroom, st, rfl, hfinished⟩ := finished_of_generate hok
    obtain ⟨before, after, hsplit⟩ :=
      List.append_of_mem ((hleft product).mpr ⟨hmem, hnone⟩)
    rw [hsplit] at hfinished
    obtain ⟨mid, hbefore⟩ : ∃ mid, Takes lower tables.inventory.rows
        (takenSkus tables.products) before mid := exists_takes _ _
    obtain ⟨given, hdue⟩ : ∃ given, Due lower tables.inventory.rows mid product given :=
      ⟨_, pickSku_due lower tables.inventory.rows mid product⟩
    have heq := hfinished.eq_withSku hbefore hdue hmem' hid
    rw [heq] at hsku
    obtain rfl := Option.some.inj hsku
    cases hdue with
    | adopted hrow _ => exact linked_of_adopted tables.row_unique hrow _
    | slug hno hfirst =>
        rw [hfinished.linked_iff tables.row_unique hbefore ⟨hno, hfirst⟩]
        exact h hroom before product after hsplit mid _ hbefore ⟨hno, hfirst⟩

/-- A product `Roll` without a sku, and sushi sets in stock under `ROLL`. -/
def rollTables : SkuTables where
  products := Table.empty.put (unlinked 1 "Roll")
  inventory :=
    Table.empty.put { sku := "ROLL", name := "Sushi set", quantity := 7, state := .AVAILABLE }
  name_fits := by decide +kernel
  sku_fits := by
    intro product hproduct sku hsku
    obtain rfl := List.mem_singleton.mp hproduct
    cases hsku
  sku_unique := by
    intro product hproduct other hother sku _ _
    rw [List.mem_singleton.mp hproduct, List.mem_singleton.mp hother]
  legacy_fits := by decide +kernel

/-- The roll is linked to the stock of the sushi sets. -/
theorem roll_linked_to_sushi : ¬ LinksRight asciiLower (fun a b => a ≤ b) rollTables := by
  intro h
  have hskus : ((generateMissingSkus asciiLower (fun a b => a ≤ b) rollTables.products
      rollTables.inventory).toOption.map fun r => r.1.rows) =
        some [{ unlinked 1 "Roll" with sku := some "ROLL" }] := by
    decide +kernel
  cases hok : generateMissingSkus asciiLower (fun a b => a ≤ b) rollTables.products
      rollTables.inventory with
  | error e =>
      rw [hok] at hskus
      cases hskus
  | ok r =>
      rw [hok] at hskus
      have hrows : r.1.rows = [{ unlinked 1 "Roll" with sku := some "ROLL" }] :=
        Option.some.inj hskus
      obtain ⟨hname, -⟩ := h r.1 r.2 hok (unlinked 1 "Roll") List.mem_cons_self rfl
        { unlinked 1 "Roll" with sku := some "ROLL" } (by rw [hrows]; exact List.mem_cons_self) rfl
        "ROLL" rfl
      have hsame := hname _ List.mem_cons_self rfl
      revert hsame
      unfold SameName
      decide +kernel

end SkuGeneration

end Sieshka
