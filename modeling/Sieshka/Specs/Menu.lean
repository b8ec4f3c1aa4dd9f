import Sieshka.Tools.MenuImportTools

/-!
# What the menu tools return and write

Each statement of a tool as the condition under which it returns, and what a
writer that returns has done to the two tables.
-/

namespace Sieshka

open Transactions Prog MenuDatabase

variable {B : Backend} {E₀ : Engine MenuDatabase MenuWrite} {s s' : Quiet MenuDatabase Unit}

@[simp] theorem returns_menuUuid {id : Uuid} :
    menuUuid.Returns E₀ s id s' ↔ id = BitVec.ofNat 128 (E₀.supply s.view) ∧ s' = s := by
  simp [menuUuid]

theorem mem_categoriesNamed {lower : String → String} {name : String} {d : MenuDatabase}
    {c : Category} :
    c ∈ categoriesNamed lower name d ↔ c ∈ d.categories.rows ∧ lower c.name = lower name := by
  simp [categoriesNamed, Table.mem_filter]

theorem productsNamed_eq_nil {lower : String → String} {name : String} {d : MenuDatabase} :
    productsNamed lower name d = [] ↔ ∀ p ∈ d.products.rows, lower p.name ≠ lower name := by
  simp [productsNamed, Table.filter]

namespace MenuAgentTools

/-- The one category that carries the name, locked. -/
@[simp] theorem returns_lockCategory {what name : String} {c : Category} :
    (lockCategory B what name).Returns E₀ s c s' ↔
      storable name = true ∧ s.failed = false ∧ categoriesNamed B.lower name s.view = [c] ∧
        s' = s := by
  simp only [lockCategory, bind_eq, returns_andThen, returns_bindParam,
    Schema.returns_filterForUpdate]
  constructor
  · rintro ⟨_, _, ⟨hn, rfl⟩, rs, _, ⟨hf, rfl, rfl⟩, h⟩
    split at h
    · rename_i c' hc
      simp only [pure_eq, returns_ret] at h
      exact ⟨hn, hf, h.1 ▸ hc, h.2⟩
    · simp at h
  · rintro ⟨hn, hf, hc, rfl⟩
    refine ⟨(), _, ⟨hn, rfl⟩, [c], _, ⟨hf, hc.symm, rfl⟩, ?_⟩
    simp

/-- What an optional name of a category resolves to. -/
def Resolved (B : Backend) (d : MenuDatabase) (name : Option String) (id : Option Uuid) : Prop :=
  match name with
  | none => id = none
  | some name => ∃ c, categoriesNamed B.lower name d = [c] ∧ id = some c.id

theorem Resolved.hasCategory {d : MenuDatabase} {name : Option String} {id : Option Uuid}
    (h : Resolved B d name id) : hasCategory id d = true := by
  cases name with
  | none =>
      obtain rfl : id = none := h
      rfl
  | some name =>
      obtain ⟨c, hc, rfl⟩ := h
      have hmem : c ∈ categoriesNamed B.lower name d := by simp [hc]
      simp [MenuDatabase.hasCategory, Table.find_of_mem (mem_categoriesNamed.mp hmem).1]

theorem Resolved.unique {d : MenuDatabase} {name : Option String} {id id' : Option Uuid}
    (h : Resolved B d name id) (h' : Resolved B d name id') : id = id' := by
  cases name with
  | none => exact Eq.trans h (Eq.symm h')
  | some name =>
      obtain ⟨c, hc, rfl⟩ := h
      obtain ⟨c', hc', rfl⟩ := h'
      rw [hc] at hc'
      rw [(List.cons.inj hc').1]

@[simp] theorem returns_lockOptional {what : String} {name : Option String} {id : Option Uuid}
    (hs : s.failed = false) :
    (lockOptional B what name).Returns E₀ s id s' ↔
      name.all storable = true ∧ Resolved B s.view name id ∧ s' = s := by
  cases name with
  | none => simp [lockOptional, Resolved]
  | some name =>
      simp only [lockOptional, bind_eq, pure_eq, returns_andThen, returns_lockCategory,
        returns_ret, Resolved, Option.all_some]
      constructor
      · rintro ⟨c, _, ⟨hn, -, hc, rfl⟩, rfl, rfl⟩
        exact ⟨hn, ⟨c, hc, rfl⟩, rfl⟩
      · rintro ⟨hn, ⟨c, hc, rfl⟩, rfl⟩
        exact ⟨c, _, ⟨hn, hs, hc, rfl⟩, rfl, rfl⟩

@[simp] theorem returns_resolves {name : Option String} {b : Bool} (hs : s.failed = false) :
    (resolves B name).Returns E₀ s b s' ↔
      name.all storable = true ∧ (b = true ↔ ∃ id, Resolved B s.view name id) ∧ s' = s := by
  cases name with
  | none => simp [resolves, Resolved]
  | some name =>
      simp only [resolves, bind_eq, pure_eq, returns_andThen, returns_bindParam, returns_select,
        returns_ret, Resolved, Option.all_some]
      constructor
      · rintro ⟨_, _, ⟨hn, rfl⟩, _, _, ⟨-, rfl, rfl⟩, rfl, rfl⟩
        refine ⟨hn, ?_, rfl⟩
        simp [List.length_eq_one_iff]
      · rintro ⟨hn, hb, rfl⟩
        refine ⟨(), _, ⟨hn, rfl⟩, _, _, ⟨hs, rfl, rfl⟩, ?_, rfl⟩
        rw [Bool.eq_iff_iff, hb]
        simp [List.length_eq_one_iff]

/-- `null`, or a text that can be stored. -/
@[simp] theorem returns_bindText {v : Json} {t : Option String} :
    (bindText v).Returns E₀ s t s' ↔
      v.optional anyText = some t ∧ t.all storable = true ∧ s' = s := by
  cases v with
  | null =>
      simp only [bindText, pure_eq, returns_ret, Json.optional, Option.some.injEq]
      constructor
      · rintro ⟨rfl, rfl⟩
        exact ⟨rfl, rfl, rfl⟩
      · rintro ⟨rfl, -, rfl⟩
        exact ⟨rfl, rfl⟩
  | str x =>
      simp only [bindText, bind_eq, pure_eq, returns_andThen, returns_bindParam, returns_ret,
        Json.optional, anyText, Option.map_some, Option.some.injEq]
      constructor
      · rintro ⟨_, _, ⟨h, rfl⟩, rfl, rfl⟩
        exact ⟨rfl, h, rfl⟩
      · rintro ⟨rfl, h, rfl⟩
        exact ⟨(), _, ⟨h, rfl⟩, rfl, rfl⟩
  | _ => simp [bindText, Json.optional, anyText]

@[simp] theorem returns_bindUuid {text : String} {id : Uuid} :
    (bindUuid B text).Returns E₀ s id s' ↔ B.readUuid text = some id ∧ s' = s := by
  unfold bindUuid
  cases B.readUuid text with
  | none => simp
  | some id' => simp [eq_comm]

@[simp] theorem returns_requireSkuFree {id : Uuid} {sku : Option String} {u : Unit}
    (hs : s.failed = false) :
    (requireSkuFree B id sku).Returns E₀ s u s' ↔
      sku.all storable = true ∧
        (∀ x, sku = some x → ∀ p ∈ s.view.products.rows, p.sku = some x → p.id = id) ∧ s' = s := by
  cases sku with
  | none => simp [requireSkuFree]
  | some sku =>
      simp only [requireSkuFree, bind_eq, returns_andThen, returns_bindParam,
        Schema.returns_filterForUpdate, returns_ite, pure_eq, throw_eq, returns_ret,
        returns_raise, Option.all_some]
      constructor
      · rintro ⟨_, _, ⟨hn, rfl⟩, _, _, ⟨-, rfl, rfl⟩, ⟨-, h⟩ | ⟨hnone, -, rfl⟩⟩
        · exact h.elim
        · refine ⟨hn, ?_, rfl⟩
          intro x hx p hp hsku
          by_contra hne
          simp only [menuProducts_table, Bool.not_eq_true', Bool.not_eq_false,
            List.isEmpty_iff, Table.filter, List.filter_eq_nil_iff] at hnone
          exact hnone p hp (by simp [hsku, hne, Option.some.inj hx])
      · rintro ⟨hn, hfree, rfl⟩
        refine ⟨(), _, ⟨hn, rfl⟩, _, _, ⟨hs, rfl, rfl⟩, Or.inr ⟨?_, trivial, rfl⟩⟩
        simp only [menuProducts_table, Bool.not_eq_true', Bool.not_eq_false,
          List.isEmpty_iff, Table.filter, List.filter_eq_nil_iff]
        intro p hp
        simpa using hfree sku rfl p hp

/-- The other categories that carry an optional new name. -/
def conflicts (B : Backend) (d : MenuDatabase) (id : Uuid) : Option String → List Category
  | none => []
  | some name => otherCategoriesNamed B name id d

@[simp] theorem returns_nameConflicts {id : Uuid} {name : Option String} {rs : List Category}
    (hs : s.failed = false) :
    (nameConflicts B id name).Returns E₀ s rs s' ↔
      name.all storable = true ∧ rs = conflicts B s.view id name ∧ s' = s := by
  cases name with
  | none => simp [nameConflicts, conflicts]
  | some name => simp [nameConflicts, conflicts, hs]

@[simp] theorem returns_lockParent {id : Uuid} {parent : Option String} {parentId : Option Uuid}
    (hs : s.failed = false) :
    (lockParent B id parent).Returns E₀ s parentId s' ↔
      parent.all storable = true ∧ Resolved B s.view parent parentId ∧ parentId ≠ some id ∧
        s' = s := by
  simp only [lockParent, bind_eq, returns_andThen, returns_lockOptional hs, returns_ite, throw_eq,
    returns_raise, and_false, false_or, pure_eq, returns_ret]
  constructor
  · rintro ⟨_, _, ⟨hp, hr, rfl⟩, hne, rfl, rfl⟩
    exact ⟨hp, hr, hne, rfl⟩
  · rintro ⟨hp, hr, hne, rfl⟩
    exact ⟨_, _, ⟨hp, hr, rfl⟩, hne, rfl, rfl⟩

@[simp] theorem returns_parentResolves {id : Uuid} {parent : Option String} {b : Bool}
    (hs : s.failed = false) :
    (parentResolves B id parent).Returns E₀ s b s' ↔
      parent.all storable = true ∧
        (b = true ↔ ∃ parentId, Resolved B s.view parent parentId ∧ parentId ≠ some id) ∧
        s' = s := by
  cases parent with
  | none => simp [parentResolves, Resolved]
  | some parent =>
      simp only [parentResolves, bind_eq, pure_eq, returns_andThen, returns_bindParam,
        returns_select, returns_ret, Resolved, Option.all_some]
      constructor
      · rintro ⟨_, _, ⟨hn, rfl⟩, _, _, ⟨-, rfl, rfl⟩, rfl, rfl⟩
        refine ⟨hn, ?_, rfl⟩
        rcases categoriesNamed B.lower parent s'.view with _ | ⟨row, _ | ⟨other, rest⟩⟩ <;> simp
      · rintro ⟨hn, hb, rfl⟩
        refine ⟨(), _, ⟨hn, rfl⟩, _, _, ⟨hs, rfl, rfl⟩, ?_, rfl⟩
        rw [Bool.eq_iff_iff, hb]
        rcases categoriesNamed B.lower parent s'.view with _ | ⟨row, _ | ⟨other, rest⟩⟩ <;> simp

/-! ## When a writer returns -/

section Writers

variable {command : Json}

theorem returns_applyMenuCommand {c : Created} (hs : s.failed = false) :
    (applyMenuCommand B command).Returns E₀ s c s' ↔
      ∃ fields category description imageUrl id,
        requiredApplyFields command = some fields ∧ storable fields.category = true ∧
        categoriesNamed B.lower fields.category s.view = [category] ∧
        storable fields.name = true ∧ productsNamed B.lower fields.name s.view = [] ∧
        int4 fields.priceRub = true ∧
        (field command "description").optional anyText = some description ∧
        description.all storable = true ∧
        (field command "image_url").optional anyText = some imageUrl ∧
        imageUrl.all storable = true ∧ id = BitVec.ofNat 128 (E₀.supply s.view) ∧
        s.view.products.find id = none ∧ hasCategory (some category.id) s.view = true ∧
        E₀.fits (.product (fields.product id category.id description imageUrl)) = true ∧
        s' = { s with view := { s.view with
          products := s.view.products.put (fields.product id category.id description imageUrl) } } ∧
        c = ⟨fields.name, category.id⟩ := by
  unfold applyMenuCommand
  cases requiredApplyFields command with
  | none => simp
  | some fields =>
      simp only [bind_eq, pure_eq, throw_eq, returns_andThen, returns_ite, returns_raise,
        returns_lockCategory, returns_bindParam, returns_select, returns_bindText,
        returns_menuUuid, Schema.returns_insert, returns_ret, Bool.not_eq_true',
        List.isEmpty_eq_false_iff, not_not, and_false, false_or, Option.some.injEq]
      constructor
      · rintro ⟨category, _, ⟨hc, -, hcat, rfl⟩, _, _, ⟨hn, rfl⟩, _, _, ⟨-, rfl, rfl⟩, hfree, _, _,
          ⟨hp, rfl⟩, description, _, ⟨hd, hds, rfl⟩, imageUrl, _, ⟨hi, his, rfl⟩, id, _,
          ⟨hid, rfl⟩, _, _, ⟨-, hnew, hfk, hfit, rfl⟩, hres, rfl⟩
        exact ⟨fields, category, description, imageUrl, id, rfl, hc, hcat, hn, hfree, hp, hd, hds,
          hi, his, hid, hnew, hfk, hfit, rfl, hres⟩
      · rintro ⟨_, category, description, imageUrl, id, rfl, hc, hcat, hn, hfree, hp, hd, hds, hi,
          his, hid, hnew, hfk, hfit, rfl, hres⟩
        exact ⟨category, s, ⟨hc, hs, hcat, rfl⟩, (), s, ⟨hn, rfl⟩, _, s, ⟨hs, rfl, rfl⟩, hfree, (),
          s, ⟨hp, rfl⟩, description, s, ⟨hd, hds, rfl⟩, imageUrl, s, ⟨hi, his, rfl⟩, id, s,
          ⟨hid, rfl⟩, (), _, ⟨hs, hnew, hfk, hfit, rfl⟩, hres, rfl⟩

theorem returns_applyCategoryCommand {c : Created} (hs : s.failed = false) :
    (applyCategoryCommand B command).Returns E₀ s c s' ↔
      ∃ fields parentId id,
        requiredApplyCategoryFields command = some fields ∧
        fields.parentCategory.all storable = true ∧
        Resolved B s.view fields.parentCategory parentId ∧ storable fields.name = true ∧
        categoriesNamed B.lower fields.name s.view = [] ∧ int4 fields.sort = true ∧
        id = BitVec.ofNat 128 (E₀.supply s.view) ∧ s.view.categories.find id = none ∧
        E₀.fits (.category (fields.category id parentId)) = true ∧
        s' = { s with view := { s.view with
          categories := s.view.categories.put (fields.category id parentId) } } ∧
        c = ⟨fields.name, id⟩ := by
  unfold applyCategoryCommand
  cases requiredApplyCategoryFields command with
  | none => simp
  | some fields =>
      simp only [bind_eq, pure_eq, throw_eq, returns_andThen, returns_ite, returns_raise,
        returns_lockOptional hs, returns_bindParam, returns_select, returns_menuUuid,
        Schema.returns_insert, returns_ret, Bool.not_eq_true', List.isEmpty_eq_false_iff, not_not,
        and_false, false_or, Option.some.injEq]
      constructor
      · rintro ⟨parentId, _, ⟨hp, hr, rfl⟩, _, _, ⟨hn, rfl⟩, _, _, ⟨-, rfl, rfl⟩, hfree, _, _,
          ⟨hsort, rfl⟩, id, _, ⟨hid, rfl⟩, _, _, ⟨-, hnew, -, hfit, rfl⟩, hres, rfl⟩
        exact ⟨fields, parentId, id, rfl, hp, hr, hn, hfree, hsort, hid, hnew, hfit, rfl, hres⟩
      · rintro ⟨_, parentId, id, rfl, hp, hr, hn, hfree, hsort, hid, hnew, hfit, rfl, hres⟩
        exact ⟨parentId, s, ⟨hp, hr, rfl⟩, (), s, ⟨hn, rfl⟩, _, s, ⟨hs, rfl, rfl⟩, hfree, (), s,
          ⟨hsort, rfl⟩, id, s, ⟨hid, rfl⟩, (), _, ⟨hs, hnew, hr.hasCategory, hfit, rfl⟩, hres, rfl⟩

theorem returns_applyUpdateProductCommand {t : String} (hs : s.failed = false) :
    (applyUpdateProductCommand B command).Returns E₀ s t s' ↔
      ∃ fields id row categoryId,
        requiredUpdateProductFields command = some fields ∧
        B.readUuid fields.productId = some id ∧ s.view.products.find id = some row ∧
        fields.category.all storable = true ∧
        Resolved B s.view fields.category categoryId ∧ fields.sku.all storable = true ∧
        (∀ x, fields.sku = some x → ∀ p ∈ s.view.products.rows, p.sku = some x → p.id = id) ∧
        fields.fits = true ∧ E₀.fits (.product (fields.apply categoryId row)) = true ∧
        s' = { s with view := { s.view with
          products := s.view.products.put (fields.apply categoryId row) } } ∧
        t = fields.productId := by
  unfold applyUpdateProductCommand
  cases requiredUpdateProductFields command with
  | none => simp
  | some fields =>
      simp only [bind_eq, pure_eq, throw_eq, returns_andThen, returns_ite, returns_raise,
        returns_bindUuid, Schema.returns_findForUpdate, returns_bindParam, returns_ret,
        and_false, false_or, Option.some.injEq]
      constructor
      · rintro ⟨id, _, ⟨hid, rfl⟩, found, _, ⟨-, rfl, rfl⟩, hfound, categoryId, _, hcat, _, _, hsku,
          _, u, ⟨hfits, rfl⟩, _, _, hw, rfl, rfl⟩
        obtain ⟨hc, hr, rfl⟩ := (returns_lockOptional hs).mp hcat
        obtain ⟨hsk, hfree, rfl⟩ := (returns_requireSkuFree hs).mp hsku
        obtain ⟨-, hw⟩ := menuProducts.returns_rewrite.mp hw
        cases hrow : u.view.products.find id with
        | none => simp [hrow] at hfound
        | some row =>
            simp only [menuProducts_table, hrow] at hw
            obtain ⟨-, hfit, rfl⟩ := hw
            exact ⟨fields, id, row, categoryId, rfl, hid, hrow, hc, hr, hsk, hfree, hfits, hfit,
              rfl, rfl⟩
      · rintro ⟨_, id, row, categoryId, rfl, hid, hrow, hc, hr, hsk, hfree, hfits, hfit, rfl, rfl⟩
        have hskuFree : (fields.sku.isNone || skuFree (fields.apply categoryId row) s.view) = true := by
          cases hx : fields.sku with
          | none => rfl
          | some x =>
              simp only [Option.isNone_some, Bool.false_or, skuFree, List.all_eq_true,
                decide_eq_true_eq]
              intro p hp
              by_cases hpx : p.sku = some x
              · left
                rw [hfree x hx p hp hpx]
                exact (Table.find_some hrow).2.symm
              · right
                right
                simpa [ProductUpdate.apply, hx] using hpx
        refine ⟨id, s, ⟨hid, rfl⟩, some row, s, ⟨hs, hrow.symm, rfl⟩, by simp, categoryId, s,
          (returns_lockOptional hs).mpr ⟨hc, hr, rfl⟩, (), s,
          (returns_requireSkuFree hs).mpr ⟨hsk, hfree, rfl⟩, (), s, ⟨hfits, rfl⟩, (), _,
          menuProducts.returns_rewrite.mpr ⟨hs, ?_⟩, rfl, rfl⟩
        simp [hrow, hr.hasCategory, hskuFree, hfit]

theorem returns_applyUpdateCategoryCommand {id : Uuid} (hs : s.failed = false) :
    (applyUpdateCategoryCommand B command).Returns E₀ s id s' ↔
      ∃ fields row parentId,
        requiredUpdateCategoryFields command = some fields ∧ fields.categoryId = id ∧
        s.view.categories.find id = some row ∧ fields.name.all storable = true ∧
        conflicts B s.view id fields.name = [] ∧ fields.parentCategory.all storable = true ∧
        Resolved B s.view fields.parentCategory parentId ∧ parentId ≠ some id ∧
        fields.sort.all int4 = true ∧ E₀.fits (.category (fields.apply parentId row)) = true ∧
        s' = { s with view := { s.view with
          categories := s.view.categories.put (fields.apply parentId row) } } := by
  unfold applyUpdateCategoryCommand
  cases requiredUpdateCategoryFields command with
  | none => simp
  | some fields =>
      simp only [bind_eq, pure_eq, throw_eq, returns_andThen, returns_ite, returns_raise,
        Schema.returns_findForUpdate, returns_bindParam, returns_ret, Bool.not_eq_true',
        List.isEmpty_eq_false_iff, not_not, and_false, false_or, Option.some.injEq]
      constructor
      · rintro ⟨found, _, ⟨-, rfl, rfl⟩, hfound, dup, _, hdup, hnil, parentId, _, hpar, _, u,
          ⟨hsort, rfl⟩, _, _, hw, rfl, rfl⟩
        obtain ⟨hn, rfl, rfl⟩ := (returns_nameConflicts hs).mp hdup
        obtain ⟨hp, hr, hne, rfl⟩ := (returns_lockParent hs).mp hpar
        obtain ⟨-, hw⟩ := menuCategories.returns_rewrite.mp hw
        cases hrow : u.view.categories.find fields.categoryId with
        | none => simp [hrow] at hfound
        | some row =>
            simp only [menuCategories_table, hrow] at hw
            obtain ⟨-, hfit, rfl⟩ := hw
            exact ⟨fields, row, parentId, rfl, rfl, rfl, hn, hnil, hp, hr, hne, hsort, hfit, rfl⟩
      · rintro ⟨_, row, parentId, rfl, rfl, hrow, hn, hnil, hp, hr, hne, hsort, hfit, rfl⟩
        refine ⟨some row, s, ⟨hs, hrow.symm, rfl⟩, by simp, _, s,
          (returns_nameConflicts hs).mpr ⟨hn, rfl, rfl⟩, hnil, parentId, s,
          (returns_lockParent hs).mpr ⟨hp, hr, hne, rfl⟩, (), s, ⟨hsort, rfl⟩, (), _,
          menuCategories.returns_rewrite.mpr ⟨hs, ?_⟩, rfl, rfl⟩
        simp [hrow, hr.hasCategory, hfit]

end Writers

end MenuAgentTools

/-! ## What a writer of products does -/

section Products

open MenuAgentTools MenuImportTools

/-- A product is written under a name that no other has. -/
def ProductWritten (B : Backend) (d d' : MenuDatabase) : Prop :=
  ∃ row, (∀ q ∈ d.products.rows, B.lower q.name = B.lower row.name → q.id = row.id) ∧
    d' = { d with products := d.products.put row }

theorem categories_of_written {d d' : MenuDatabase}
    (h : Relation.ReflTransGen (ProductWritten B) d d') : d'.categories = d.categories := by
  induction h with
  | refl => rfl
  | tail _ hstep ih =>
      obtain ⟨row, -, rfl⟩ := hstep
      exact ih

theorem applyMenuCommand_written {command : Json} {s s' : Quiet MenuDatabase Unit} {c : Created}
    (hs : s.failed = false) (h : (applyMenuCommand B command).Returns E₀ s c s') :
    s'.failed = false ∧ ProductWritten B s.view s'.view := by
  obtain ⟨fields, category, description, imageUrl, id, -, -, -, -, hfree, -, -, -, -, -, -, -, -,
    -, rfl, -⟩ := (returns_applyMenuCommand hs).mp h
  refine ⟨hs, _, ?_, rfl⟩
  intro q hq heq
  exact absurd heq (productsNamed_eq_nil.mp hfree q hq)

/-- A row of the import is skipped, or written under a name that no other has. -/
theorem importRow_written {row : ProductRow} {s s' : Quiet MenuDatabase Unit} {b : Bool}
    (h : (importRow B row).Returns E₀ s b s') :
    s'.failed = s.failed ∧ (s'.view = s.view ∨ ProductWritten B s.view s'.view) := by
  simp only [importRow, bind_eq, pure_eq, returns_andThen, returns_liftExcept, returns_bindParam,
    returns_select] at h
  obtain ⟨categoryId, _, ⟨-, rfl⟩, _, _, ⟨-, rfl⟩, found, u, ⟨-, hfound, rfl⟩, h⟩ := h
  split at h
  · simp only [returns_andThen, returns_bindParam, returns_menuUuid, Schema.returns_insert,
      returns_ret] at h
    obtain ⟨_, _, ⟨-, rfl⟩, id, _, ⟨-, rfl⟩, _, _, ⟨-, -, -, -, rfl⟩, -, rfl⟩ := h
    refine ⟨rfl, Or.inr ⟨_, ?_, rfl⟩⟩
    intro q hq heq
    exact absurd heq (productsNamed_eq_nil.mp hfound.symm q hq)
  · rename_i product
    simp only [returns_andThen, returns_bindParam, Schema.returns_rewrite, returns_ret] at h
    obtain ⟨_, u, ⟨-, rfl⟩, _, _, ⟨-, hw⟩, -, rfl⟩ := h
    have hmem : ∀ q, q ∈ u.view.products.rows ∧ B.lower q.name = B.lower row.name ↔ q = product := by
      intro q
      have hq : q ∈ productsNamed B.lower row.name u.view ↔ q = product := by simp [← hfound]
      rw [← hq]
      simp [productsNamed, Table.mem_filter]
    obtain ⟨hproduct, hname⟩ := (hmem product).mpr rfl
    simp only [menuProducts_table, Table.find_of_mem hproduct] at hw
    obtain ⟨-, -, rfl⟩ := hw
    refine ⟨rfl, Or.inr ⟨_, ?_, rfl⟩⟩
    intro q hq heq
    obtain rfl := (hmem q).mp ⟨hq, heq.trans hname⟩
    rfl
  · simp only [returns_ret] at h
    obtain ⟨-, rfl⟩ := h
    exact ⟨rfl, Or.inl rfl⟩

/-- An import writes one product after another under a name that no other has. -/
theorem applyMenuImport_written {rows : List ProductRow} {s s' : Quiet MenuDatabase Unit}
    {r : Nat × List String} (h : (MenuImportTools.applyMenuImport B rows).Returns E₀ s r s') :
    s'.failed = s.failed ∧ Relation.ReflTransGen (ProductWritten B) s.view s'.view := by
  induction rows generalizing s s' r with
  | nil =>
      simp only [MenuImportTools.applyMenuImport, pure_eq, returns_ret] at h
      obtain ⟨-, rfl⟩ := h
      exact ⟨rfl, .refl⟩
  | cons row rest ih =>
      simp only [MenuImportTools.applyMenuImport, bind_eq, pure_eq, returns_andThen] at h
      obtain ⟨written, s₁, hrow, res, s₂, hrest, h⟩ := h
      obtain ⟨hf, hw⟩ := importRow_written hrow
      obtain ⟨hf', hw'⟩ := ih hrest
      simp only [returns_ret] at h
      obtain ⟨-, rfl⟩ := h
      refine ⟨hf'.trans hf, ?_⟩
      rcases hw with heq | hw
      · rw [← heq]
        exact hw'
      · exact .head hw hw'

end Products

end Sieshka
