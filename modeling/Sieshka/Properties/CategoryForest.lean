import Sieshka.Specs.Menu
import Sieshka.Forests

/-!
# The tree of categories

Two tools write `parent_category_id`. A new category goes below a stored one,
where nothing points to it yet. The update of a category accepts any parent but
the category itself, so it keeps a forest where the category is not already on
the way up from its new parent.
-/

namespace Sieshka

open Transactions Prog MenuDatabase MenuAgentTools MenuImportTools Forests

variable {B : Backend} {E₀ : Engine MenuDatabase MenuWrite} {d d' : MenuDatabase}

namespace MenuDatabase

/-- The parent of a category. -/
def parentOf (d : MenuDatabase) (id : Uuid) : Option Uuid :=
  (d.categories.find id).bind Category.parentCategoryId

/-- The foreign key of `parent_category_id`. -/
def ParentsStored (d : MenuDatabase) : Prop :=
  ∀ row ∈ d.categories.rows, hasCategory row.parentCategoryId d = true

/-- The parent relation has no cycle, and following parents from any category ends
at a top-level one. -/
structure IsForest (d : MenuDatabase) : Prop where
  acyclic : Acyclic d.parentOf
  ends : ∀ row ∈ d.categories.rows, ∃ top ∈ d.categories.rows, top.parentCategoryId = none ∧
    Reaches d.parentOf row.id top.id

theorem mem_of_parentOf (h : d.ParentsStored) {a b : Uuid} (hab : d.parentOf a = some b) :
    b ∈ d.categories.rows.map Category.id := by
  obtain ⟨row, hrow, hb⟩ := Option.bind_eq_some_iff.mp hab
  have hstored := h row (Table.find_some hrow).1
  rw [hb] at hstored
  obtain ⟨parent, hparent⟩ := Option.isSome_iff_exists.mp hstored
  obtain ⟨hmem, hid⟩ := Table.find_some hparent
  exact List.mem_map.mpr ⟨parent, hmem, hid⟩

/-- Where every parent is stored, no cycle means that every way up ends. -/
theorem IsForest.of_acyclic (h : d.ParentsStored) (hacyclic : Acyclic d.parentOf) :
    d.IsForest := by
  refine ⟨hacyclic, ?_⟩
  intro row hrow
  obtain ⟨root, hroot, hnone, hreach⟩ := hacyclic.exists_root (d.categories.rows.map Category.id)
    (fun a _ b hab => mem_of_parentOf h hab) (List.mem_map_of_mem hrow)
  obtain ⟨top, htop, rfl⟩ := List.mem_map.mp hroot
  refine ⟨top, htop, ?_, hreach⟩
  simpa [parentOf, Table.find_of_mem htop] using hnone

theorem parentOf_put (d : MenuDatabase) (row : Category) :
    parentOf { d with categories := d.categories.put row } =
      Function.update d.parentOf row.id row.parentCategoryId := by
  funext id
  by_cases hid : id = row.id
  · subst hid
    simp [parentOf]
  · rw [Function.update_of_ne hid, parentOf, parentOf, Table.find_put_of_ne _ (Ne.symm hid)]

theorem ParentsStored.put (h : d.ParentsStored) {row : Category}
    (hrow : hasCategory row.parentCategoryId d = true) :
    ParentsStored { d with categories := d.categories.put row } := by
  have hkeep : ∀ o : Option Uuid, hasCategory o d = true →
      hasCategory o { d with categories := d.categories.put row } = true := by
    intro o ho
    cases o with
    | none => rfl
    | some id =>
        by_cases hid : row.id = id
        · subst hid
          simp [hasCategory]
        · simpa [hasCategory, Table.find_put_of_ne _ hid] using ho
  intro x hx
  rcases Table.mem_put hx with rfl | hx
  · exact hkeep _ hrow
  · exact hkeep _ (h x hx)

end MenuDatabase

/-! ## One call -/

/-- The edited category is not on the way up from the parent that an update gives
it. -/
def NotAbove (B : Backend) (d : MenuDatabase) (command : Json) : Prop :=
  ∀ fields parent, requiredUpdateCategoryFields command = some fields →
    Resolved B d fields.parentCategory (some parent) →
    ¬ Reaches d.parentOf parent fields.categoryId

/-- The condition under which a call keeps the categories a forest. -/
def KeepsForest (B : Backend) (d : MenuDatabase) : MenuCommand → Prop
  | .applyUpdateCategory command => NotAbove B d command
  | _ => True

/-- Products do not matter. -/
theorem parentsStored_of_categories (hd : d.ParentsStored) (h : d'.categories = d.categories) :
    d'.ParentsStored := by
  obtain ⟨categories, products⟩ := d
  obtain ⟨categories', products'⟩ := d'
  obtain rfl : categories' = categories := h
  exact hd

theorem parentOf_of_categories (h : d'.categories = d.categories) : d'.parentOf = d.parentOf := by
  funext id
  rw [parentOf, parentOf, h]

/-- A category that is new is not on the way up from its parent. -/
theorem acyclic_of_insert {row : Category} (hd : d.ParentsStored) (hacyclic : Acyclic d.parentOf)
    (hnew : d.categories.find row.id = none)
    (hparent : hasCategory row.parentCategoryId d = true) :
    Acyclic (parentOf { d with categories := d.categories.put row }) := by
  rw [parentOf_put]
  cases hp : row.parentCategoryId with
  | none =>
      have hsame : Function.update d.parentOf row.id none = d.parentOf := by
        apply Function.update_eq_self_iff.mpr
        simp [parentOf, hnew]
      rw [hsame]
      exact hacyclic
  | some parent =>
      rw [acyclic_update_iff hacyclic]
      -- the new category is neither its parent nor the parent of a stored one
      intro hreach
      rcases Relation.ReflTransGen.cases_tail hreach with heq | ⟨b, -, hb⟩
      · simp [hp, ← heq, hasCategory, hnew] at hparent
      · obtain ⟨x, hx, hid⟩ := List.mem_map.mp (mem_of_parentOf hd hb)
        exact Table.find_eq_none.mp hnew x hx hid

/-- An update that gives no parent, or one from which no way up leads back. -/
theorem acyclic_of_update {fields : CategoryUpdate} {row : Category} {parentId : Option Uuid}
    (hacyclic : Acyclic d.parentOf) (hrow : d.categories.find row.id = some row) :
    Acyclic (parentOf { d with categories := d.categories.put (fields.apply parentId row) }) ↔
      ∀ parent, parentId = some parent → ¬ Reaches d.parentOf parent row.id := by
  rw [parentOf_put]
  cases parentId with
  | none =>
      have hsame : Function.update d.parentOf row.id row.parentCategoryId = d.parentOf := by
        apply Function.update_eq_self_iff.mpr
        simp [parentOf, hrow]
      simp only [reduceCtorEq, false_imp_iff, implies_true, iff_true]
      exact hsame.symm ▸ hacyclic
  | some parent =>
      simp only [Option.some.injEq, forall_eq']
      exact acyclic_update_iff hacyclic

/-- What a successful call does to the categories. -/
inductive CategoryChange (B : Backend) (d : MenuDatabase) :
    MenuCommand → MenuDatabase → Prop
  | products {c d'} (h : d'.categories = d.categories)
      (hc : ∀ command, c ≠ .applyUpdateCategory command) : CategoryChange B d c d'
  | insert {command row} (hnew : d.categories.find row.id = none)
      (hparent : hasCategory row.parentCategoryId d = true) :
      CategoryChange B d (.applyCategory command) { d with categories := d.categories.put row }
  | update {command fields row parentId}
      (hfields : requiredUpdateCategoryFields command = some fields)
      (hid : fields.categoryId = row.id) (hrow : d.categories.find row.id = some row)
      (hparent : Resolved B d fields.parentCategory parentId) :
      CategoryChange B d (.applyUpdateCategory command)
        { d with categories := d.categories.put (fields.apply parentId row) }

theorem categoryChange_of_call {c : MenuCommand} (h : (c.tool B).Commits E₀ d d') :
    CategoryChange B d c d' := by
  obtain ⟨_, s', h, hd'⟩ := h.returns
  cases c with
  | applyMenu command =>
      simp only [MenuCommand.tool, bind_eq, pure_eq, returns_andThen, returns_ret] at h
      obtain ⟨c, _, h, -, rfl⟩ := h
      obtain ⟨hf, hw⟩ := applyMenuCommand_written rfl h
      obtain rfl := hd' hf
      exact .products (categories_of_written (.single hw)) (by simp)
  | applyCategory command =>
      simp only [MenuCommand.tool, bind_eq, pure_eq, returns_andThen, returns_ret] at h
      obtain ⟨c, _, h, -, rfl⟩ := h
      obtain ⟨_, _, _, -, -, hr, -, -, -, rfl, hnew, -, rfl, -⟩ :=
        (returns_applyCategoryCommand rfl).mp h
      obtain rfl := hd' rfl
      exact .insert hnew hr.hasCategory
  | applyUpdateProduct command =>
      simp only [MenuCommand.tool, bind_eq, pure_eq, returns_andThen, returns_ret] at h
      obtain ⟨c, _, h, -, rfl⟩ := h
      obtain ⟨_, _, _, _, -, -, -, -, -, -, -, -, -, rfl, -⟩ :=
        (returns_applyUpdateProductCommand rfl).mp h
      obtain rfl := hd' rfl
      exact .products rfl (by simp)
  | applyUpdateCategory command =>
      simp only [MenuCommand.tool, bind_eq, pure_eq, returns_andThen, returns_ret] at h
      obtain ⟨c, _, h, -, rfl⟩ := h
      obtain ⟨fields, row, parentId, hfields, hid, hrow, -, -, -, hr, -, -, -, rfl⟩ :=
        (returns_applyUpdateCategoryCommand rfl).mp h
      obtain rfl := hd' rfl
      obtain rfl : row.id = c := (Table.find_some hrow).2
      exact .update hfields hid hrow hr
  | applyMenuImport rows =>
      simp only [MenuCommand.tool, bind_eq, pure_eq, returns_andThen, returns_ret] at h
      obtain ⟨c, _, h, -, rfl⟩ := h
      obtain ⟨hf, hw⟩ := applyMenuImport_written h
      obtain rfl := hd' hf
      exact .products (categories_of_written hw) (by simp)

/-- The foreign key of the parents is kept. -/
theorem CategoryChange.stored {c : MenuCommand} (h : CategoryChange B d c d')
    (hd : d.ParentsStored) : d'.ParentsStored := by
  cases h with
  | products h _ => exact parentsStored_of_categories hd h
  | insert _ hparent => exact hd.put hparent
  | @update command fields row parentId _ _ hrow hr =>
      apply hd.put
      cases parentId with
      | none => exact hd row (Table.mem_rows_iff.mpr hrow)
      | some parent => exact hr.hasCategory

/-- A successful call keeps the categories a forest exactly when it puts no category
below itself. -/
theorem CategoryChange.forest {c : MenuCommand} (h : CategoryChange B d c d')
    (hd : d.ParentsStored) (hforest : d.IsForest) : d'.IsForest ↔ KeepsForest B d c := by
  have hiff : d'.IsForest ↔ Acyclic d'.parentOf :=
    ⟨IsForest.acyclic, IsForest.of_acyclic (h.stored hd)⟩
  rw [hiff]
  cases h with
  | products h hc =>
      have hkeep : KeepsForest B d c := by
        cases c with
        | applyUpdateCategory command => exact absurd rfl (hc command)
        | _ => exact trivial
      simp only [hkeep, iff_true, parentOf_of_categories h]
      exact hforest.acyclic
  | insert hnew hparent =>
      simp only [KeepsForest, iff_true]
      exact acyclic_of_insert hd hforest.acyclic hnew hparent
  | @update command fields row parentId hfields hid hrow hr =>
      rw [acyclic_of_update hforest.acyclic hrow]
      simp only [KeepsForest, NotAbove, hfields, Option.some.injEq]
      constructor
      · rintro hall _ parent rfl hparent
        rw [hid]
        exact hall parent (hr.unique hparent)
      · rintro hall parent rfl
        rw [← hid]
        exact hall fields parent rfl hr

/-! ## Any number of calls -/

/-- The categories stay a forest through successful calls of the menu tools exactly
when no update gives a category a parent from which the way up leads to it. -/
theorem categories_stay_forest {history : List (MenuDatabase × MenuCommand)}
    (hstored : d.ParentsStored) (hacyclic : Acyclic d.parentOf)
    (h : Sequence (MenuCommand.tool B) d history d') :
    ((∀ p ∈ history, p.1.IsForest) ∧ d'.IsForest) ↔ ∀ p ∈ history, KeepsForest B p.1 p.2 :=
  Sequence.iff_of_call (fun _ _ _ _ hd hc => (categoryChange_of_call hc).stored hd)
    (fun _ _ _ _ hd hf hc => (categoryChange_of_call hc).forest hd hf) hstored
    (.of_acyclic hstored hacyclic) h

/-! ## A loop of two -/

/-- No category and no product. -/
def emptyMenu : MenuDatabase := ⟨.empty, .empty⟩

/-- The id of the first category. -/
def firstId : String := "00000000-0000-0000-0000-000000000001"

/-- The creation of a category. -/
def createCategory (name : String) (parent : Json) : MenuCommand :=
  .applyCategory (.obj [("name", .str name), ("parent_category", parent)])

/-- The update that gives the first category a parent. -/
def moveFirst (parent : String) : MenuCommand :=
  .applyUpdateCategory (.obj [("category_id", .str firstId),
    ("parent_category", .str parent)])

/-- A category as it is created. -/
def sampleCategory (id : Uuid) (name : String) (parent : Option Uuid) : Category where
  id
  name
  parentCategoryId := parent
  timePeriod := .both
  fulfillmentScope := .both
  sort := 0
  isActive := true

/-- The menu with one more version of a category. -/
def putCategory (d : MenuDatabase) (row : Category) : MenuDatabase :=
  { d with categories := d.categories.put row }

/-- The menu with a top-level category. -/
def oneCategory : MenuDatabase := putCategory emptyMenu (sampleCategory 1 "Food" none)

/-- The menu with a category below it. -/
def twoCategories : MenuDatabase := putCategory oneCategory (sampleCategory 2 "Soups" (some 1))

/-- The menu with the upper category below the lower one. -/
def loopOfCategories : MenuDatabase :=
  putCategory twoCategories (sampleCategory 1 "Food" (some 2))

theorem commits_createCategory {d : MenuDatabase} {n : Nat} {name : String} {parent : Json}
    (parentName : Option String) {parentId : Option Uuid} (hne : name ≠ "")
    (hstrip : strip name = name)
    (hread : (parent.optional Json.text?).map (Option.map strip) = some parentName)
    (hparent : parentName.all storable = true) (hr : Resolved asciiBackend d parentName parentId)
    (hname : storable name = true) (hfree : categoriesNamed asciiBackend.lower name d = [])
    (hnew : d.categories.find (BitVec.ofNat 128 n) = none) :
    ((createCategory name parent).tool asciiBackend).Commits { supply := fun _ => n } d
      (putCategory d (sampleCategory (BitVec.ofNat 128 n) name parentId)) := by
  have hfields : requiredApplyCategoryFields
      (.obj [("name", .str name), ("parent_category", parent)]) =
      some ⟨name, parentName, .both, .both, 0⟩ := by
    obtain ⟨p, hp, rfl⟩ := Option.map_eq_some_iff.mp hread
    simp [requiredApplyCategoryFields, Json.get, Json.text?, word, TimePeriod.ofText,
      FulfillmentScope.ofText, Json.int?, hne, hstrip, hp]
  have hreturns : (applyCategoryCommand asciiBackend
      (.obj [("name", .str name), ("parent_category", parent)])).Returns { supply := fun _ => n }
      (Quiet.start d ()) ⟨name, BitVec.ofNat 128 n⟩
      ⟨d, putCategory d (sampleCategory (BitVec.ofNat 128 n) name parentId), (), false⟩ :=
    (returns_applyCategoryCommand rfl).mpr
      ⟨_, parentId, _, hfields, hparent, hr, hname, hfree, rfl, rfl, hnew, rfl, rfl, rfl⟩
  have htool : ((createCategory name parent).tool asciiBackend).Returns { supply := fun _ => n }
      (Quiet.start d ()) ()
      ⟨d, putCategory d (sampleCategory (BitVec.ofNat 128 n) name parentId), (), false⟩ := by
    simp only [createCategory, MenuCommand.tool, bind_eq, pure_eq, returns_andThen, returns_ret]
    exact ⟨_, _, hreturns, trivial, rfl⟩
  exact .of_returns htool rfl

theorem sequence_twoCategories :
    Sequence (MenuCommand.tool asciiBackend) emptyMenu
      [(emptyMenu, createCategory "Food" .null), (oneCategory, createCategory "Soups" (.str "food"))]
      twoCategories := by
  have hfood : ((createCategory "Food" .null).tool asciiBackend).Commits { supply := fun _ => 1 }
      emptyMenu oneCategory := by
    apply commits_createCategory none
    · decide
    · decide +kernel
    · rfl
    · rfl
    · rfl
    · decide +kernel
    · decide +kernel
    · decide +kernel
  have hsoups : ((createCategory "Soups" (.str "food")).tool asciiBackend).Commits
      { supply := fun _ => 2 } oneCategory twoCategories := by
    apply commits_createCategory (some "food")
    · decide
    · decide +kernel
    · decide +kernel
    · decide +kernel
    · exact ⟨sampleCategory 1 "Food" none, by decide +kernel, rfl⟩
    · decide +kernel
    · decide +kernel
    · decide +kernel
  exact .call _ (.call _ .nil hfood) hsoups

/-- The upper category is put below its own child. -/
theorem commits_moveFirst :
    ((moveFirst "soups").tool asciiBackend).Commits { supply := fun _ => 3 } twoCategories
      loopOfCategories := by
  have hid : readUuid firstId = some 1 := by decide +kernel
  have hstrip : strip "soups" = "soups" := by decide +kernel
  have hfields : requiredUpdateCategoryFields (.obj
      [("category_id", .str firstId), ("parent_category", .str "soups")]) =
      some ⟨1, none, some "soups", none, none, none, none⟩ := by
    simp [requiredUpdateCategoryFields, Json.get, Json.text?, Json.optional, anyText, hid, hstrip]
  have hreturns : (applyUpdateCategoryCommand asciiBackend (.obj
      [("category_id", .str firstId), ("parent_category", .str "soups")])).Returns
      { supply := fun _ => 3 } (Quiet.start twoCategories ()) 1
      ⟨twoCategories, loopOfCategories, (), false⟩ :=
    (returns_applyUpdateCategoryCommand rfl).mpr
      ⟨_, sampleCategory 1 "Food" none, some 2, hfields, rfl, by decide +kernel, rfl, rfl, by decide +kernel,
        ⟨sampleCategory 2 "Soups" (some 1), by decide +kernel, rfl⟩, by decide, rfl, rfl, rfl⟩
  have htool : ((moveFirst "soups").tool asciiBackend).Returns { supply := fun _ => 3 }
      (Quiet.start twoCategories ()) () ⟨twoCategories, loopOfCategories, (), false⟩ := by
    simp only [moveFirst, MenuCommand.tool, bind_eq, pure_eq, returns_andThen, returns_ret]
    exact ⟨_, _, hreturns, trivial, rfl⟩
  exact .of_returns htool rfl

theorem parentsStored_emptyMenu : emptyMenu.ParentsStored := by
  intro row hrow
  cases hrow

theorem acyclic_emptyMenu : Acyclic emptyMenu.parentOf := acyclic_none

/-- Three accepted commands make two categories parents of one another. -/
theorem category_loop_of_two :
    ¬ ∀ (B : Backend) d d' history, d.ParentsStored → Acyclic d.parentOf →
      Sequence (MenuCommand.tool B) d history d' → d'.IsForest := by
  intro hall
  have hforest := hall asciiBackend emptyMenu loopOfCategories _ parentsStored_emptyMenu
    acyclic_emptyMenu (.call _ sequence_twoCategories commits_moveFirst)
  have hfood : loopOfCategories.parentOf 1 = some 2 := by decide +kernel
  have hsoups : loopOfCategories.parentOf 2 = some 1 := by decide +kernel
  exact hforest.acyclic 1 (.head hfood (.single hsoups))

/-- A category is created at the top, and another below it. -/
theorem categories_stay_forest_two :
    twoCategories.IsForest ∧ twoCategories.parentOf 2 = some 1 := by
  have hrun := categories_stay_forest parentsStored_emptyMenu acyclic_emptyMenu
    sequence_twoCategories
  refine ⟨(hrun.mpr ?_).2, by decide +kernel⟩
  simp [KeepsForest, createCategory]

end Sieshka
