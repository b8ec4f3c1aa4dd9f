import Sieshka.Services.SkuGeneration
import Sieshka.Traces

/-!
# What the batch of skus does

One round of the batch writes the sku it picks when that fits in the column, and nothing
else can fail. A batch in which every product has room ends with a sku for each.
-/

namespace Sieshka

open Transactions

namespace SkuGeneration

/-- Products and an inventory within their columns. -/
structure SkuTables where
  products : Table MenuProduct.id
  inventory : Table Inventory.sku
  name_fits : ∀ product ∈ products.rows, product.name.length ≤ 255
  sku_fits : ∀ product ∈ products.rows, ∀ sku, product.sku = some sku → sku.length ≤ 128
  sku_unique : ∀ product ∈ products.rows, ∀ other ∈ products.rows, ∀ sku,
    product.sku = some sku → other.sku = some sku → product = other
  legacy_fits : ∀ row ∈ inventory.rows, row.sku.length ≤ 128

section Batch

variable (lower : String → String) (inventory : List Inventory)

/-! ## What the stored rows entitle a product to -/

/-- The inventory row has the name of the product, trimmed and without case. -/
def SameName (row : Inventory) (product : MenuProduct) : Prop :=
  nameKey lower row.name = nameKey lower product.name

/-- The inventory row is the first one with the name of the product. -/
def FirstNamed (product : MenuProduct) (row : Inventory) : Prop :=
  SameName lower row product ∧ ∃ before after, inventory = before ++ row :: after ∧
    ∀ earlier ∈ before, ¬ SameName lower earlier product

/-- The first inventory row with the name of the product has a sku that is not taken. -/
def Adopts (taken : List String) (product : MenuProduct) : Prop :=
  ∃ row, FirstNamed lower inventory product row ∧ row.sku ∉ taken

/-- The sku a product is due while some skus are taken: that of the first inventory row
with its name, and where it is taken or there is no such row, the first one that is not
taken of its slug, its slug with `-2`, with `-3` and so on. -/
inductive Due (taken : List String) (product : MenuProduct) : String → Prop
  | adopted {row} (hrow : FirstNamed lower inventory product row) (hfree : row.sku ∉ taken) :
      Due taken product row.sku
  | slug {n} (hno : ¬ Adopts lower inventory taken product)
      (hfirst : FirstFree (candidate (baseSku product)) taken n) :
      Due taken product (candidate (baseSku product) n)

/-- The skus that are taken once each of some products, in this order, has what it is due. -/
inductive Takes : List String → List MenuProduct → List String → Prop
  | nil {taken} : Takes taken [] taken
  | cons {taken product sku rest taken'} (hdue : Due lower inventory taken product sku)
      (hrest : Takes (sku :: taken) rest taken') : Takes taken (product :: rest) taken'

/-- The product can adopt a sku, or one of its candidates both fits in the column and is
not taken. -/
def HasRoom (taken : List String) (product : MenuProduct) : Prop :=
  Adopts lower inventory taken product ∨
    ∃ n, (candidate (baseSku product) n).length ≤ 128 ∧ candidate (baseSku product) n ∉ taken

/-- Every product has room when those before it have what they are due. -/
def RoomForAll (taken : List String) (products : List MenuProduct) : Prop :=
  ∀ before product after, products = before ++ product :: after →
    ∀ taken', Takes lower inventory taken before taken' → HasRoom lower inventory taken' product

variable {lower inventory} {taken : List String} {product : MenuProduct}

theorem firstNamed_iff {row : Inventory} :
    FirstNamed lower inventory product row ↔
      (inventory.find? fun row => nameKey lower row.name = nameKey lower product.name) =
        some row := by
  rw [List.find?_eq_some_iff_append]
  simp only [FirstNamed, SameName, decide_eq_true_eq, Bool.not_eq_true', decide_eq_false_iff_not]

theorem FirstNamed.mem {row : Inventory} (h : FirstNamed lower inventory product row) :
    row ∈ inventory :=
  List.mem_of_find?_eq_some (firstNamed_iff.mp h)

theorem FirstNamed.unique {row row' : Inventory} (h : FirstNamed lower inventory product row)
    (h' : FirstNamed lower inventory product row') : row = row' := by
  apply Option.some.inj
  rw [← firstNamed_iff.mp h, ← firstNamed_iff.mp h']

/-- A product is due one sku. -/
theorem Due.unique {sku sku' : String} (h : Due lower inventory taken product sku)
    (h' : Due lower inventory taken product sku') : sku = sku' := by
  cases h with
  | adopted hrow hfree =>
      cases h' with
      | adopted hrow' _ => rw [hrow.unique hrow']
      | slug hno _ => exact absurd ⟨_, hrow, hfree⟩ hno
  | slug hno hfirst =>
      cases h' with
      | adopted hrow hfree => exact absurd ⟨_, hrow, hfree⟩ hno
      | slug _ hfirst' => rw [hfirst.unique hfirst']

theorem Due.free {sku : String} (h : Due lower inventory taken product sku) : sku ∉ taken := by
  cases h with
  | adopted _ hfree => exact hfree
  | slug _ hfirst => exact hfirst.free

/-- The code picks what the product is due. -/
theorem pickSku_due (lower inventory taken product) :
    Due lower inventory taken product (pickSku lower inventory taken product).1 := by
  have hslug : ¬ Adopts lower inventory taken product → Due lower inventory taken product
      (nextFree taken (candidate_injective (baseSku product))) := by
    intro hno
    obtain ⟨n, hfirst, heq⟩ := exists_nextFree taken (candidate_injective (baseSku product))
    rw [heq]
    exact Due.slug hno hfirst
  unfold pickSku legacySku
  cases hfind : inventory.find? fun row => nameKey lower row.name = nameKey lower product.name with
  | none =>
      apply hslug
      rintro ⟨row, hrow, -⟩
      rw [firstNamed_iff, hfind] at hrow
      cases hrow
  | some row =>
      have hrow := firstNamed_iff.mpr hfind
      simp only [Option.map_some]
      by_cases hfree : row.sku ∉ taken
      · rw [if_pos hfree]
        exact Due.adopted hrow hfree
      · rw [if_neg hfree]
        apply hslug
        rintro ⟨row', hrow', hfree'⟩
        rw [hrow.unique hrow'] at hfree
        exact hfree hfree'

theorem Due.pickSku_eq {sku : String} (h : Due lower inventory taken product sku) :
    (pickSku lower inventory taken product).1 = sku :=
  (pickSku_due lower inventory taken product).unique h

theorem Takes.unique {products : List MenuProduct} {taken₁ taken₂ : List String}
    (h₁ : Takes lower inventory taken products taken₁)
    (h₂ : Takes lower inventory taken products taken₂) : taken₁ = taken₂ := by
  induction h₁ with
  | nil =>
      cases h₂
      rfl
  | cons hdue _ ih =>
      cases h₂ with
      | cons hdue' hrest =>
          apply ih
          rw [hdue.unique hdue']
          exact hrest

theorem exists_takes (taken : List String) (products : List MenuProduct) :
    ∃ taken', Takes lower inventory taken products taken' := by
  induction products generalizing taken with
  | nil => exact ⟨taken, Takes.nil⟩
  | cons product rest ih =>
      have hdue := pickSku_due lower inventory taken product
      obtain ⟨taken', hrest⟩ := ih ((pickSku lower inventory taken product).1 :: taken)
      exact ⟨taken', Takes.cons hdue hrest⟩

theorem Takes.subset {products : List MenuProduct} {taken' : List String}
    (h : Takes lower inventory taken products taken') : taken ⊆ taken' := by
  induction h with
  | nil => exact List.Subset.refl _
  | cons _ _ ih => exact List.Subset.trans (List.subset_cons_self _ _) ih

/-! ## Room in the column -/

theorem length_candidate_mono (base : String) {n m : ℕ} (h : n ≤ m) :
    (candidate base n).length ≤ (candidate base m).length := by
  cases n with
  | zero =>
      cases m with
      | zero => exact le_refl _
      | succ m =>
          rw [length_candidate_zero, length_candidate_succ]
          omega
  | succ n =>
      cases m with
      | zero => omega
      | succ m =>
          rw [length_candidate_succ, length_candidate_succ, Nat.toString_eq_repr,
            Nat.toString_eq_repr]
          have hdigits : (n + 2).repr.length ≤ (m + 2).repr.length := by
            rw [Nat.length_repr_le_iff Nat.length_repr_pos]
            have hm := (Nat.length_repr_le_iff (n := m + 2) Nat.length_repr_pos).mp (le_refl _)
            omega
          omega

/-- What the product is due fits in the column exactly when it has room. -/
theorem Due.length_le_iff {sku : String} (h : Due lower inventory taken product sku)
    (hfits : ∀ row ∈ inventory, row.sku.length ≤ 128) :
    sku.length ≤ 128 ↔ HasRoom lower inventory taken product := by
  cases h with
  | adopted hrow hfree => exact iff_of_true (hfits _ hrow.mem) (Or.inl ⟨_, hrow, hfree⟩)
  | slug hno hfirst =>
      constructor
      · intro hle
        exact Or.inr ⟨_, hle, hfirst.free⟩
      · rintro (hadopts | ⟨m, hle, hfree⟩)
        · exact absurd hadopts hno
        · refine le_trans (length_candidate_mono _ ?_) hle
          by_contra hlt
          exact hfree (hfirst.before m (by omega))

theorem roomForAll_cons {rest : List MenuProduct} {sku : String}
    (hdue : Due lower inventory taken product sku) :
    RoomForAll lower inventory taken (product :: rest) ↔
      HasRoom lower inventory taken product ∧ RoomForAll lower inventory (sku :: taken) rest := by
  constructor
  · intro h
    constructor
    · exact h [] product rest rfl taken Takes.nil
    · rintro before other after rfl taken' htakes
      exact h (product :: before) other after rfl taken' (Takes.cons hdue htakes)
  · rintro ⟨hfirst, hrest⟩ before other after heq taken' htakes
    cases htakes with
    | nil =>
        obtain ⟨rfl, -⟩ := List.cons.inj heq
        exact hfirst
    | cons hdue' htakes =>
        obtain ⟨rfl, rfl⟩ := List.cons.inj heq
        rw [hdue'.unique hdue] at htakes
        exact hrest _ other after rfl taken' htakes

/-! ## One round -/

/-- The product with the sku it is given. -/
abbrev withSku (product : MenuProduct) (sku : String) : MenuProduct :=
  { product with sku := some sku }

/-- What holds while some products are left: the taken skus are those that are set, no two
products have one sku, and those that have none are the ones that are left. -/
structure InBatch (st : BatchState) (left : List MenuProduct) : Prop where
  taken_iff : ∀ sku, sku ∈ st.taken ↔ ∃ product ∈ st.products.rows, product.sku = some sku
  fits : ∀ product ∈ st.products.rows, ∀ sku, product.sku = some sku → sku.length ≤ 128
  unique : ∀ product ∈ st.products.rows, ∀ other ∈ st.products.rows, ∀ sku,
    product.sku = some sku → other.sku = some sku → product = other
  left_iff : ∀ product, product ∈ left ↔ product ∈ st.products.rows ∧ product.sku = none
  nodup : left.Nodup

section Rounds

variable {st : BatchState} {rest : List MenuProduct}

theorem InBatch.find (h : InBatch st (product :: rest)) :
    st.products.find product.id = some product :=
  Table.find_of_mem ((h.left_iff product).mp List.mem_cons_self).1

theorem InBatch.id_ne {other : MenuProduct} (h : InBatch st (product :: rest))
    (hother : other ∈ st.products.rows) (hsku : other.sku ≠ none) : other.id ≠ product.id := by
  intro heq
  have hfind := Table.find_of_mem hother
  rw [heq, h.find] at hfind
  obtain rfl := Option.some.inj hfind
  exact hsku ((h.left_iff product).mp List.mem_cons_self).2

theorem assignSku_of_le {sku : String} (h : InBatch st (product :: rest))
    (hdue : Due lower inventory st.taken product sku) (hle : sku.length ≤ 128) :
    ∃ st', assignSku lower inventory st product = .ok st' ∧
      st'.products = st.products.put (withSku product sku) ∧ st'.taken = sku :: st.taken := by
  have hfree : ¬ st.products.rows.any (fun other => other.id ≠ product.id ∧
      other.sku = some sku) = true := by
    intro hany
    obtain ⟨other, hother, hsku⟩ := List.any_eq_true.mp hany
    exact hdue.free ((h.taken_iff _).mpr ⟨other, hother, (of_decide_eq_true hsku).2⟩)
  have hupdate : updateSku st.products product.id sku =
      .ok (st.products.put (withSku product sku)) := by
    simp only [updateSku, h.find]
    rw [if_neg (by omega), if_neg hfree]
  simp only [assignSku, hdue.pickSku_eq, hupdate]
  exact ⟨_, rfl, rfl, rfl⟩

theorem assignSku_of_lt {sku : String} (h : InBatch st (product :: rest))
    (hdue : Due lower inventory st.taken product sku) (hlt : 128 < sku.length) :
    assignSku lower inventory st product = .error .dbapiError := by
  have hupdate : updateSku st.products product.id sku = .error .dbapiError := by
    simp only [updateSku, h.find]
    exact if_pos hlt
  simp only [assignSku, hdue.pickSku_eq, hupdate]
  rfl

/-- A round leaves the rest of the products to the rounds after it. -/
theorem InBatch.next {st' : BatchState} {sku : String} (h : InBatch st (product :: rest))
    (hfree : sku ∉ st.taken) (hle : sku.length ≤ 128)
    (hproducts : st'.products = st.products.put (withSku product sku))
    (htaken : st'.taken = sku :: st.taken) : InBatch st' rest := by
  obtain ⟨hmem, hnone⟩ := (h.left_iff product).mp List.mem_cons_self
  have hrow : ∀ x, x ∈ st'.products.rows ↔ x = withSku product sku ∨
      x ∈ st.products.rows ∧ x.id ≠ product.id := by
    intro x
    rw [hproducts, Table.mem_put_iff]
  have hnew : ∀ x ∈ st.products.rows, x.sku ≠ some sku := by
    intro x hx hsku
    exact hfree ((h.taken_iff _).mpr ⟨x, hx, hsku⟩)
  constructor
  · intro sku'
    rw [htaken, List.mem_cons, h.taken_iff]
    constructor
    · rintro (rfl | ⟨x, hx, hsku⟩)
      · exact ⟨_, (hrow _).mpr (Or.inl rfl), rfl⟩
      · have hne : x.id ≠ product.id := h.id_ne hx (by rw [hsku]; exact Option.some_ne_none _)
        exact ⟨x, (hrow x).mpr (Or.inr ⟨hx, hne⟩), hsku⟩
    · rintro ⟨x, hx, hsku⟩
      rcases (hrow x).mp hx with rfl | ⟨hx, -⟩
      · exact Or.inl (Option.some.inj hsku).symm
      · exact Or.inr ⟨x, hx, hsku⟩
  · intro x hx sku' hsku
    rcases (hrow x).mp hx with rfl | ⟨hx, -⟩
    · rwa [← Option.some.inj hsku]
    · exact h.fits x hx sku' hsku
  · intro x hx y hy sku' hxsku hysku
    rcases (hrow x).mp hx with rfl | ⟨hx, -⟩
    · rcases (hrow y).mp hy with rfl | ⟨hy, -⟩
      · rfl
      · exact absurd (hysku.trans hxsku.symm) (hnew y hy)
    · rcases (hrow y).mp hy with rfl | ⟨hy, -⟩
      · exact absurd (hxsku.trans hysku.symm) (hnew x hx)
      · exact h.unique x hx y hy sku' hxsku hysku
  · intro x
    have hnodup := (List.nodup_cons.mp h.nodup).1
    constructor
    · intro hx
      obtain ⟨hxmem, hxnone⟩ := (h.left_iff x).mp (List.mem_cons_of_mem _ hx)
      refine ⟨(hrow x).mpr (Or.inr ⟨hxmem, ?_⟩), hxnone⟩
      intro heq
      have hfind := Table.find_of_mem hxmem
      rw [heq, h.find] at hfind
      obtain rfl := Option.some.inj hfind
      exact hnodup hx
    · rintro ⟨hx, hxnone⟩
      rcases (hrow x).mp hx with rfl | ⟨hx, hne⟩
      · cases hxnone
      · rcases List.mem_cons.mp ((h.left_iff x).mpr ⟨hx, hxnone⟩) with rfl | hx
        · exact absurd rfl hne
        · exact hx
  · exact (List.nodup_cons.mp h.nodup).2

end Rounds

/-! ## The whole batch -/

/-- What a batch ends with that began with some products left. -/
structure Finished (lower : String → String) (inventory : List Inventory) (st : BatchState)
    (left : List MenuProduct) (st' : BatchState) : Prop where
  ended : InBatch st' []
  takes : Takes lower inventory st.taken left st'.taken
  ids : st'.products.rows.map MenuProduct.id = st.products.rows.map MenuProduct.id
  kept : ∀ product ∈ st.products.rows, product.sku ≠ none → product ∈ st'.products.rows
  given : ∀ before product after, left = before ++ product :: after →
    ∀ taken sku, Takes lower inventory st.taken before taken →
      Due lower inventory taken product sku → withSku product sku ∈ st'.products.rows

theorem assignSkus_returns {st : BatchState} {left : List MenuProduct} (h : InBatch st left)
    (hfits : ∀ row ∈ inventory, row.sku.length ≤ 128)
    (hroom : RoomForAll lower inventory st.taken left) :
    ∃ st', assignSkus lower inventory st left = .ok st' := by
  induction left generalizing st with
  | nil => exact ⟨st, rfl⟩
  | cons product rest ih =>
      have hdue := pickSku_due lower inventory st.taken product
      obtain ⟨hfirst, hrest⟩ := (roomForAll_cons hdue).mp hroom
      have hle := (hdue.length_le_iff hfits).mpr hfirst
      obtain ⟨st₁, hstep, hproducts, htaken⟩ := assignSku_of_le h hdue hle
      rw [← htaken] at hrest
      obtain ⟨st', hst'⟩ := ih (h.next hdue.free hle hproducts htaken) hrest
      refine ⟨st', ?_⟩
      rw [assignSkus, hstep]
      exact hst'

theorem finished_nil {st : BatchState} (h : InBatch st []) :
    Finished lower inventory st [] st := by
  constructor
  · exact h
  · exact Takes.nil
  · rfl
  · intro product hproduct _
    exact hproduct
  · intro before product after heq
    simp at heq

/-- What a round and the rounds after it end with. -/
theorem Finished.cons {st st₁ st' : BatchState} {rest : List MenuProduct} {sku : String}
    (h : InBatch st (product :: rest)) (hdue : Due lower inventory st.taken product sku)
    (hproducts : st₁.products = st.products.put (withSku product sku))
    (htaken : st₁.taken = sku :: st.taken) (hrest : Finished lower inventory st₁ rest st') :
    Finished lower inventory st (product :: rest) st' := by
  have hkept : ∀ other ∈ st.products.rows, other.sku ≠ none → other ∈ st₁.products.rows := by
    intro other hother hsku
    rw [hproducts, Table.mem_put_iff]
    exact Or.inr ⟨hother, h.id_ne hother hsku⟩
  have htakes := hrest.takes
  rw [htaken] at htakes
  constructor
  · exact hrest.ended
  · exact Takes.cons hdue htakes
  · have hfind : st.products.find (withSku product sku).id = some product := h.find
    rw [hrest.ids, hproducts, Table.rows_put_of_find hfind, List.map_map]
    apply List.map_congr_left
    intro other _
    by_cases hid : other.id = product.id <;> simp [hid]
  · intro other hother hsku
    exact hrest.kept other (hkept other hother hsku) hsku
  · intro before other after heq taken sku' hbefore hother
    cases hbefore with
    | nil =>
        obtain ⟨rfl, -⟩ := List.cons.inj heq
        rw [hother.unique hdue]
        apply hrest.kept
        · rw [hproducts]
          exact Table.mem_put_self _ _
        · exact Option.some_ne_none _
    | cons hdue' hbefore =>
        obtain ⟨rfl, rfl⟩ := List.cons.inj heq
        rw [hdue'.unique hdue, ← htaken] at hbefore
        exact hrest.given _ other after rfl taken sku' hbefore hother

/-- A batch that returns had room for all, and has given each product what it was due. -/
theorem finished_of_assignSkus {st st' : BatchState} {left : List MenuProduct}
    (h : InBatch st left) (hfits : ∀ row ∈ inventory, row.sku.length ≤ 128)
    (hok : assignSkus lower inventory st left = .ok st') :
    RoomForAll lower inventory st.taken left ∧ Finished lower inventory st left st' := by
  induction left generalizing st with
  | nil =>
      obtain rfl := Except.ok.inj hok
      constructor
      · intro before product after heq
        simp at heq
      · exact finished_nil h
  | cons product rest ih =>
      have hdue := pickSku_due lower inventory st.taken product
      by_cases hle : (pickSku lower inventory st.taken product).1.length ≤ 128
      · obtain ⟨st₁, hstep, hproducts, htaken⟩ := assignSku_of_le h hdue hle
        rw [assignSkus, hstep] at hok
        obtain ⟨hroom, hfinished⟩ := ih (h.next hdue.free hle hproducts htaken) hok
        rw [htaken] at hroom
        constructor
        · exact (roomForAll_cons hdue).mpr ⟨(hdue.length_le_iff hfits).mp hle, hroom⟩
        · exact Finished.cons h hdue hproducts htaken hfinished
      · rw [assignSkus, assignSku_of_lt h hdue (by omega)] at hok
        cases hok

end Batch

end SkuGeneration

end Sieshka
