import Sieshka.Specs.Menu
import Sieshka.Specs.Zones
import Sieshka.Specs.Promotions
import Sieshka.Tools.ScheduleAgentTools
import Sieshka.Transactions.Checks
import Sieshka.Programs

/-!
# What the validators predict

For each pair of an agent the condition on the command and the database under which
the validator returns 0 or 1 and says 1 exactly when the writer goes through: a value
that is sent is one the database takes, and what only the writer looks at is in order.
-/

namespace Sieshka

open Transactions Prog

variable {B : Backend} {command : Json}

/-! ## Products and categories -/

namespace MenuAgentTools

open MenuDatabase

variable {E₀ : Engine MenuDatabase MenuWrite} {s s' : Quiet MenuDatabase Unit}

/-- A text column takes the value. -/
def TextFits (v : Json) : Prop := ∃ t, v.optional anyText = some t ∧ t.all storable = true

/-- What both sides send for a new product is taken, as far as they get. -/
def ApplyFields.Fits (B : Backend) (command : Json) (d : MenuDatabase) (fields : ApplyFields) :
    Prop :=
  storable fields.category = true ∧
    ((∃ id, Resolved B d (some fields.category) id) → storable fields.name = true ∧
      (productsNamed B.lower fields.name d = [] → int4 fields.priceRub = true ∧
        TextFits (field command "description") ∧ TextFits (field command "image_url")))

/-- What both sides send for a new category is taken, as far as they get. -/
def CategoryFields.Fits (B : Backend) (d : MenuDatabase) (fields : CategoryFields) : Prop :=
  storable fields.name = true ∧
    (categoriesNamed B.lower fields.name d = [] → fields.parentCategory.all storable = true ∧
      ((∃ id, Resolved B d fields.parentCategory id) → int4 fields.sort = true))

/-- What both sides send for a stored category is taken, as far as they get. -/
def CategoryUpdate.Fits (B : Backend) (d : MenuDatabase) (fields : CategoryUpdate) : Prop :=
  d.categories.find fields.categoryId ≠ none → fields.name.all storable = true ∧
    (conflicts B d fields.categoryId fields.name = [] →
      fields.parentCategory.all storable = true ∧
        ((∃ id, Resolved B d fields.parentCategory id ∧ id ≠ some fields.categoryId) →
          fields.sort.all int4 = true))

/-- What both sides send for a stored product is taken, as far as they get, and no
other product has the new `sku`. -/
def ProductUpdate.Fits (B : Backend) (d : MenuDatabase) (fields : ProductUpdate) : Prop :=
  ∃ id, B.readUuid fields.productId = some id ∧ (d.products.find id ≠ none →
    fields.category.all storable = true ∧
      ((∃ categoryId, Resolved B d fields.category categoryId) →
        fields.sku.all storable = true ∧
        (∀ x, fields.sku = some x → ∀ p ∈ d.products.rows, p.sku = some x → p.id = id) ∧
        fields.fits = true))

section Pair

variable (hs : s.failed = false) (hfit : ∀ w, E₀.fits w = true)
include hs hfit

theorem predicts_productCreate {fields : ApplyFields}
    (h : requiredApplyFields command = some fields)
    (hnew : s.view.products.find (BitVec.ofNat 128 (E₀.supply s.view)) = none) :
    (validateApplyCommand B command).Predicts E₀ (applyMenuCommand B command) s ↔
      fields.Fits B command s.view := by
  have hwrites : (applyMenuCommand B command).Succeeds E₀ s ↔ storable fields.category = true ∧
      (∃ id, Resolved B s.view (some fields.category) id) ∧ storable fields.name = true ∧
      productsNamed B.lower fields.name s.view = [] ∧ int4 fields.priceRub = true ∧
      TextFits (field command "description") ∧ TextFits (field command "image_url") := by
    constructor
    · rintro ⟨c, s', hc⟩
      obtain ⟨_, category, description, imageUrl, id, hfields, hcat, hone, hname, hfree, hprice,
        hd, hds, hi, his, -⟩ := (returns_applyMenuCommand hs).mp hc
      obtain rfl := Option.some.inj (h.symm.trans hfields)
      exact ⟨hcat, ⟨_, category, hone, rfl⟩, hname, hfree, hprice, ⟨_, hd, hds⟩, ⟨_, hi, his⟩⟩
    · rintro ⟨hcat, ⟨_, category, hone, rfl⟩, hname, hfree, hprice, ⟨description, hd, hds⟩,
        ⟨imageUrl, hi, his⟩⟩
      have hresolved : Resolved B s.view (some fields.category) (some category.id) :=
        ⟨category, hone, rfl⟩
      exact ⟨_, _, (returns_applyMenuCommand hs).mpr ⟨fields, category, description, imageUrl, _, h,
        hcat, hone, hname, hfree, hprice, hd, hds, hi, his, rfl, hnew, hresolved.hasCategory,
        hfit _, rfl, rfl⟩⟩
  by_cases hr : ∃ id, Resolved B s.view (some fields.category) id
  · by_cases hfree : productsNamed B.lower fields.name s.view = []
    · simp [validateApplyCommand, h, hs, hwrites, hr, hfree, ApplyFields.Fits]
      intro hcat hname
      simp [hcat, hname]
    · simp [validateApplyCommand, h, hs, hwrites, hr, hfree, ApplyFields.Fits]
  · simp [validateApplyCommand, h, hs, hwrites, hr, ApplyFields.Fits]

theorem predicts_categoryCreate {fields : CategoryFields}
    (h : requiredApplyCategoryFields command = some fields)
    (hnew : s.view.categories.find (BitVec.ofNat 128 (E₀.supply s.view)) = none) :
    (validateApplyCategoryCommand B command).Predicts E₀ (applyCategoryCommand B command) s ↔
      fields.Fits B s.view := by
  have hwrites : (applyCategoryCommand B command).Succeeds E₀ s ↔
      fields.parentCategory.all storable = true ∧
      (∃ id, Resolved B s.view fields.parentCategory id) ∧ storable fields.name = true ∧
      categoriesNamed B.lower fields.name s.view = [] ∧ int4 fields.sort = true := by
    constructor
    · rintro ⟨c, s', hc⟩
      obtain ⟨_, parentId, id, hfields, hparent, hresolved, hname, hfree, hsort, -⟩ :=
        (returns_applyCategoryCommand hs).mp hc
      obtain rfl := Option.some.inj (h.symm.trans hfields)
      exact ⟨hparent, ⟨_, hresolved⟩, hname, hfree, hsort⟩
    · rintro ⟨hparent, ⟨parentId, hresolved⟩, hname, hfree, hsort⟩
      exact ⟨_, _, (returns_applyCategoryCommand hs).mpr ⟨fields, parentId, _, h, hparent,
        hresolved, hname, hfree, hsort, rfl, hnew, hfit _, rfl, rfl⟩⟩
  by_cases hr : ∃ id, Resolved B s.view fields.parentCategory id
  · by_cases hfree : categoriesNamed B.lower fields.name s.view = []
    · simp [validateApplyCategoryCommand, h, hs, hwrites, hr, hfree, CategoryFields.Fits]
      intro hname _ _
      exact hname
    · simp [validateApplyCategoryCommand, h, hs, hwrites, hr, hfree, CategoryFields.Fits]
  · simp [validateApplyCategoryCommand, h, hs, hwrites, hr, CategoryFields.Fits]

theorem predicts_categoryUpdate {fields : CategoryUpdate}
    (h : requiredUpdateCategoryFields command = some fields) :
    (validateUpdateCategoryCommand B command).Predicts E₀ (applyUpdateCategoryCommand B command) s ↔
      fields.Fits B s.view := by
  have hwrites : (applyUpdateCategoryCommand B command).Succeeds E₀ s ↔
      s.view.categories.find fields.categoryId ≠ none ∧ fields.name.all storable = true ∧
      conflicts B s.view fields.categoryId fields.name = [] ∧
      fields.parentCategory.all storable = true ∧
      (∃ id, Resolved B s.view fields.parentCategory id ∧ id ≠ some fields.categoryId) ∧
      fields.sort.all int4 = true := by
    constructor
    · rintro ⟨id, s', hc⟩
      obtain ⟨_, row, parentId, hfields, rfl, hrow, hname, hfree, hparent, hresolved, hne, hsort,
        -⟩ := (returns_applyUpdateCategoryCommand hs).mp hc
      obtain rfl := Option.some.inj (h.symm.trans hfields)
      exact ⟨by simp [hrow], hname, hfree, hparent, ⟨_, hresolved, hne⟩, hsort⟩
    · rintro ⟨hstored, hname, hfree, hparent, ⟨parentId, hresolved, hne⟩, hsort⟩
      obtain ⟨row, hrow⟩ := Option.ne_none_iff_exists'.mp hstored
      exact ⟨_, _, (returns_applyUpdateCategoryCommand hs).mpr ⟨fields, row, parentId, h, rfl, hrow,
        hname, hfree, hparent, hresolved, hne, hsort, hfit _, rfl⟩⟩
  by_cases hstored : s.view.categories.find fields.categoryId = none
  · simp [validateUpdateCategoryCommand, h, hs, hwrites, hstored, CategoryUpdate.Fits]
  · by_cases hfree : conflicts B s.view fields.categoryId fields.name = []
    · by_cases hr : ∃ id, Resolved B s.view fields.parentCategory id ∧ id ≠ some fields.categoryId
      · simp [validateUpdateCategoryCommand, h, hs, hstored, hfree, hr, CategoryUpdate.Fits]
        intro hname hparent
        rw [hwrites]
        simp only [ne_eq, hstored, not_false_eq_true, hname, hfree, hparent, hr, true_and]
      · simp [validateUpdateCategoryCommand, h, hs, hwrites, hstored, hfree, hr,
          CategoryUpdate.Fits]
    · simp [validateUpdateCategoryCommand, h, hs, hwrites, hstored, hfree, CategoryUpdate.Fits]

theorem predicts_productUpdate {fields : ProductUpdate}
    (h : requiredUpdateProductFields command = some fields) :
    (validateUpdateProductCommand B command).Predicts E₀ (applyUpdateProductCommand B command) s ↔
      fields.Fits B s.view := by
  cases hid : B.readUuid fields.productId with
  | none => simp [validateUpdateProductCommand, h, hid, ProductUpdate.Fits]
  | some id =>
    have hwrites : (applyUpdateProductCommand B command).Succeeds E₀ s ↔
        s.view.products.find id ≠ none ∧ fields.category.all storable = true ∧
        (∃ categoryId, Resolved B s.view fields.category categoryId) ∧
        fields.sku.all storable = true ∧
        (∀ x, fields.sku = some x → ∀ p ∈ s.view.products.rows, p.sku = some x → p.id = id) ∧
        fields.fits = true := by
      constructor
      · rintro ⟨t, s', hc⟩
        obtain ⟨_, _, row, categoryId, hfields, hid', hrow, hcat, hresolved, hsku, hfree, hfits,
          -⟩ := (returns_applyUpdateProductCommand hs).mp hc
        obtain rfl := Option.some.inj (h.symm.trans hfields)
        obtain rfl := Option.some.inj (hid.symm.trans hid')
        exact ⟨by simp [hrow], hcat, ⟨_, hresolved⟩, hsku, hfree, hfits⟩
      · rintro ⟨hstored, hcat, ⟨categoryId, hresolved⟩, hsku, hfree, hfits⟩
        obtain ⟨row, hrow⟩ := Option.ne_none_iff_exists'.mp hstored
        exact ⟨_, _, (returns_applyUpdateProductCommand hs).mpr ⟨fields, id, row, categoryId, h,
          hid, hrow, hcat, hresolved, hsku, hfree, hfits, hfit _, rfl, rfl⟩⟩
    by_cases hstored : s.view.products.find id = none
    · simp [validateUpdateProductCommand, h, hs, hid, hwrites, hstored, ProductUpdate.Fits]
    · by_cases hr : ∃ categoryId, Resolved B s.view fields.category categoryId
      · simp [validateUpdateProductCommand, h, hs, hid, hwrites, hstored, hr, ProductUpdate.Fits]
      · simp [validateUpdateProductCommand, h, hs, hid, hwrites, hstored, hr, ProductUpdate.Fits]

end Pair

end MenuAgentTools

/-! ## Zones -/

namespace ZoneAgentTools

open ZoneDatabase

variable {E₀ : Engine ZoneDatabase ZoneWrite} {s s' : Quiet ZoneDatabase Unit}

theorem mem_named {lower : String → String} {active : Bool} {name : String} {d : ZoneDatabase}
    {z : Zone} :
    z ∈ named lower active name d ↔
      z ∈ d.zones.rows ∧ lower z.name = lower name ∧ z.isActive = active := by
  simp [named, Table.mem_filter]

/-- The one zone that carries the name, locked. -/
@[simp] theorem returns_lockZone {active : Bool} {target : String} {z : Zone} :
    (lockZone B active target).Returns E₀ s z s' ↔
      storable target = true ∧ s.failed = false ∧ named B.lower active target s.view = [z] ∧
        s' = s := by
  simp only [lockZone, bind_eq, returns_andThen, returns_bindParam,
    Schema.returns_filterForUpdate]
  constructor
  · rintro ⟨_, _, ⟨hn, rfl⟩, rs, _, ⟨hf, rfl, rfl⟩, h⟩
    split at h
    · rename_i z' hz
      simp only [pure_eq, returns_ret] at h
      exact ⟨hn, hf, h.1 ▸ hz, h.2⟩
    · simp at h
  · rintro ⟨hn, hf, hz, rfl⟩
    refine ⟨(), _, ⟨hn, rfl⟩, [z], _, ⟨hf, hz.symm, rfl⟩, ?_⟩
    simp

@[simp] theorem returns_requireNameFree {name : String} {self : Option Uuid} {u : Unit}
    (hs : s.failed = false) :
    (requireNameFree B name self).Returns E₀ s u s' ↔
      storable name = true ∧ (∀ z ∈ named B.lower true name s.view, some z.id = self) ∧ s' = s := by
  simp [requireNameFree, hs]

@[simp] theorem returns_requireRename {self : Uuid} {name : Option String} {u : Unit}
    (hs : s.failed = false) :
    (requireRename B self name).Returns E₀ s u s' ↔
      name.all storable = true ∧
        (∀ x, name = some x → ∀ z ∈ named B.lower true x s.view, z.id = self) ∧ s' = s := by
  cases name with
  | none => simp [requireRename]
  | some name => simp [requireRename, hs]

/-- What both sides send for a zone is taken, as far as they get, and no other active
zone has the new name. -/
def ZoneCommand.Fits (B : Backend) (d : ZoneDatabase) : ZoneCommand → Prop
  | .create name deliveryTimeMinutes deliveryFeeRub =>
      storable name = true ∧ (named B.lower true name d = [] →
        int4 deliveryTimeMinutes = true ∧ deliveryFeeRub.all int4 = true)
  | .update target name deliveryTimeMinutes deliveryFeeRub =>
      storable target = true ∧ ∀ z, named B.lower true target d = [z] →
        (name.all storable = true ∧
          ∀ x, name = some x → ∀ w ∈ named B.lower true x d, w.id = z.id) ∧
        deliveryTimeMinutes.all int4 = true ∧ deliveryFeeRub.all int4 = true
  | .deactivate target => storable target = true
  | .activate target => storable target = true

section Pair

variable (hs : s.failed = false) (hd : s.view.Indexed B.lower) (hfit : ∀ w, E₀.fits w = true)
include hs hd hfit

theorem predicts_create {name : String} {deliveryTimeMinutes : Int} {deliveryFeeRub : Option Int}
    (h : requiredCommandShape command =
      some (.create name deliveryTimeMinutes deliveryFeeRub))
    (hnew : s.view.zones.find (BitVec.ofNat 128 (E₀.supply s.view)) = none) :
    (validateApplyZoneCommand B command).Predicts E₀ (applyZoneCommand B command) s ↔
      (ZoneCommand.create name deliveryTimeMinutes deliveryFeeRub).Fits B s.view := by
  have hclash : named B.lower true name s.view = [] → ∀ id, (zoneNames B.lower).clash s.view
      (newZone id name deliveryTimeMinutes deliveryFeeRub) = false := by
    intro hfree id
    rw [← hd.nameFree_iff rfl]
    intro w hw hactive hname
    have hmem : w ∈ named B.lower true name s.view := mem_named.mpr ⟨hw, hname, hactive⟩
    rw [hfree] at hmem
    cases hmem
  have hkey : (newZone (BitVec.ofNat 128 (E₀.supply s.view)) name deliveryTimeMinutes
      deliveryFeeRub).id = BitVec.ofNat 128 (E₀.supply s.view) := rfl
  by_cases hfree : named B.lower true name s.view = []
  · simp [validateApplyZoneCommand, applyZoneCommand, h, hs, hfit, hfree, orNameInUse, zoneUuid,
      hclash hfree, hkey, hnew, ZoneCommand.Fits]
  · have htaken : ¬ ∀ z, z ∉ named B.lower true name s.view := by
      rwa [← List.eq_nil_iff_forall_not_mem]
    simp [validateApplyZoneCommand, applyZoneCommand, h, hs, hfree, htaken, ZoneCommand.Fits]

omit hs hfit in
/-- An active zone may be renamed to what no other active zone is called. -/
theorem rename_clash {name : Option String} {deliveryTimeMinutes deliveryFeeRub : Option Int}
    {z : Zone} (hz : z ∈ s.view.zones.rows) (hactive : z.isActive = true)
    (hfree : ∀ x, name = some x → ∀ w ∈ named B.lower true x s.view, w.id = z.id) :
    (zoneNames B.lower).clash s.view (editedZone name deliveryTimeMinutes deliveryFeeRub z) =
      false := by
  have hiff := hd.nameFree_iff
    (show (editedZone name deliveryTimeMinutes deliveryFeeRub z).isActive = true from hactive)
  rw [← hiff]
  intro w hw hwa hname
  cases name with
  | none => exact hd.eq_of_name (w := z) hw hz hwa hactive hname
  | some x => exact hfree x rfl w (mem_named.mpr ⟨hw, hname, hwa⟩)

theorem predicts_update {target : String} {name : Option String}
    {deliveryTimeMinutes deliveryFeeRub : Option Int}
    (h : requiredCommandShape command =
      some (.update target name deliveryTimeMinutes deliveryFeeRub)) :
    (validateApplyZoneCommand B command).Predicts E₀ (applyZoneCommand B command) s ↔
      (ZoneCommand.update target name deliveryTimeMinutes deliveryFeeRub).Fits B s.view := by
  by_cases hone : ∃ z, named B.lower true target s.view = [z]
  · obtain ⟨z, hz⟩ := hone
    obtain ⟨hmem, -, hactive⟩ : z ∈ s.view.zones.rows ∧ _ :=
      mem_named.mp (by rw [hz]; exact List.mem_cons_self)
    by_cases hfree : ∀ x, name = some x → ∀ w ∈ named B.lower true x s.view, w.id = z.id
    · simp [validateApplyZoneCommand, applyZoneCommand, h, hs, hfit, hz, orNameInUse,
        updateZone, Table.find_of_mem hmem, rename_clash hd hmem hactive hfree,
        ZoneCommand.Fits]
    · simp [validateApplyZoneCommand, applyZoneCommand, h, hs, hz, hfree, ZoneCommand.Fits]
  · simp [validateApplyZoneCommand, applyZoneCommand, h, hs, not_exists.mp hone,
      List.length_eq_one_iff,
      ZoneCommand.Fits]

omit hd in
theorem predicts_deactivate {target : String}
    (h : requiredCommandShape command = some (.deactivate target)) :
    (validateApplyZoneCommand B command).Predicts E₀ (applyZoneCommand B command) s ↔
      (ZoneCommand.deactivate target).Fits B s.view := by
  by_cases hone : ∃ z, named B.lower true target s.view = [z]
  · obtain ⟨z, hz⟩ := hone
    obtain ⟨hmem, -⟩ : z ∈ s.view.zones.rows ∧ _ :=
      mem_named.mp (by rw [hz]; exact List.mem_cons_self)
    have hclash : (zoneNames B.lower).clash s.view { z with isActive := false } = false := by
      simp [UniqueIndex.clash, zoneNames]
    simp [validateApplyZoneCommand, applyZoneCommand, h, hs, hfit, hz, Table.find_of_mem hmem,
      hclash, ZoneCommand.Fits]
  · simp [validateApplyZoneCommand, applyZoneCommand, h, hs, not_exists.mp hone,
      List.length_eq_one_iff,
      ZoneCommand.Fits]

theorem predicts_activate {target : String}
    (h : requiredCommandShape command = some (.activate target)) :
    (validateApplyZoneCommand B command).Predicts E₀ (applyZoneCommand B command) s ↔
      (ZoneCommand.activate target).Fits B s.view := by
  by_cases hone : ∃ z, named B.lower false target s.view = [z]
  · obtain ⟨z, hz⟩ := hone
    obtain ⟨hmem, hname, hretired⟩ := mem_named.mp
      (show z ∈ named B.lower false target s.view by rw [hz]; exact List.mem_cons_self)
    by_cases hfree : named B.lower true target s.view = []
    · have hclash : (zoneNames B.lower).clash s.view { z with isActive := true } = false := by
        rw [← hd.nameFree_iff rfl]
        intro w hw hwa hwname
        have hw : w ∈ named B.lower true target s.view :=
          mem_named.mpr ⟨hw, hwname.trans hname, hwa⟩
        rw [hfree] at hw
        cases hw
      simp [validateApplyZoneCommand, applyZoneCommand, h, hs, hfit, hz, hfree, orNameInUse,
        updateZone, Table.find_of_mem hmem, hclash, ZoneCommand.Fits]
    · -- an active zone of that name is another zone
      have htaken : ¬ ∀ w ∈ named B.lower true target s.view, w.id = z.id := by
        intro hall
        obtain ⟨w, hw⟩ := List.exists_mem_of_ne_nil _ hfree
        obtain ⟨hwmem, -, hwa⟩ := mem_named.mp hw
        have hfind := Table.find_of_mem hwmem
        rw [hall w hw, Table.find_of_mem hmem] at hfind
        rw [Option.some.inj hfind, hwa] at hretired
        cases hretired
      simp [validateApplyZoneCommand, applyZoneCommand, h, hs, hz, hfree, htaken,
        ZoneCommand.Fits]
  · simp [validateApplyZoneCommand, applyZoneCommand, h, hs, not_exists.mp hone,
      List.length_eq_one_iff,
      ZoneCommand.Fits]

end Pair

end ZoneAgentTools

/-! ## Promotions -/

namespace PromotionAgentTools

open PromoDatabase

variable {E₀ : Engine PromoDatabase PromoWrite} {s s' : Quiet PromoDatabase Unit}

/-- What a promotion command sends is taken, as far as the writer gets where the
validator answers 1, and the state of a promotion that is found is a state. -/
def PromotionCommand.Fits (B : Backend) (d : PromoDatabase) : PromotionCommand → Prop
  | .create name discount effectType triggerCode =>
      discountRejected effectType discount = false → storable name = true ∧
        (named B.lower name d = [] → triggerCode.all storable = true ∧
          ((∀ code, triggerCode = some code → coded B.lower code d = []) →
            (discount.getD (.value 0)).fitsNumeric = true))
  | .transition _ target =>
      storable target = true ∧ ∀ p, named B.lower target d = [p] →
        (PromotionState.ofText p.state).isSome = true

/-- Only a promotion of free delivery is created without a discount. -/
theorem discount_of_create {name : String} {discount : Option PyFloat} {effectType : EffectType}
    {triggerCode : Option String}
    (h : requiredApplyFields command = .ok (some (.create name discount effectType triggerCode))) :
    effectType = .FREE_DELIVERY ∨ discount.isSome = true := by
  unfold requiredApplyFields at h
  cases hfields : readFields command with
  | none => simp [hfields] at h
  | some fields =>
      simp only [hfields] at h
      cases hevent : fields.event with
      | some event =>
          cases htarget : fields.target with
          | none => simp [hevent, htarget] at h
          | some target =>
              cases hx : optionalFloat fields.discount with
              | error e => simp [hevent, htarget, hx, Except.map] at h
              | ok x => simp [hevent, htarget, hx, Except.map] at h
      | none =>
          cases hname : fields.name with
          | none => simp [hevent, hname] at h
          | some n =>
              simp only [hevent, hname] at h
              split_ifs at h with he hd
              · simp only [Except.ok.injEq, Option.some.injEq, PromotionCommand.create.injEq] at h
                exact Or.inl (h.2.2.1 ▸ he)
              · cases h
              · right
                obtain ⟨x, hx⟩ := Option.ne_none_iff_exists'.mp (by simpa using hd)
                cases hf : x.toFloat with
                | error e => simp [hx, optionalFloat, hf, Except.map] at h
                | ok y =>
                    simp [hx, optionalFloat, hf, Except.map] at h
                    simp [← h.2.1]

/-- The writer refuses the discounts that the validator rejects. -/
theorem discountError_eq_none {effectType : EffectType} {discount : Option PyFloat}
    (h : effectType = .FREE_DELIVERY ∨ discount.isSome = true) :
    discountError B effectType discount = none ↔ discountRejected effectType discount = false := by
  cases effectType <;> cases discount <;> simp_all [discountError, discountRejected]

@[simp] theorem returns_promoUuid {id : Uuid} :
    promoUuid.Returns E₀ s id s' ↔ id = BitVec.ofNat 128 (E₀.supply s.view) ∧ s' = s := by
  simp [promoUuid]

/-- The condition of a locking query by name. -/
theorem filter_named {lower : String → String} {name : String} {d : PromoDatabase} :
    (d.promotions.filter fun p => lower p.name = lower name) = named lower name d := rfl

@[simp] theorem returns_requireCodeFree {triggerCode : Option String} {u : Unit}
    (hs : s.failed = false) :
    (requireCodeFree B triggerCode).Returns E₀ s u s' ↔
      triggerCode.all storable = true ∧
        (∀ code, triggerCode = some code → coded B.lower code s.view = []) ∧ s' = s := by
  cases triggerCode with
  | none => simp [requireCodeFree]
  | some code => simp [requireCodeFree, hs, coded]

/-- A promotion with a code that no other has takes no value of the index. -/
theorem clash_newPromotion (hd : s.view.Indexed B.lower) {id : Uuid} {name : String}
    {discount : Option PyFloat} {effectType : EffectType} {triggerCode : Option String}
    (hfree : ∀ code, triggerCode = some code → coded B.lower code s.view = []) :
    (promoCodes B.lower).clash s.view (newPromotion id name discount effectType triggerCode) =
      false := by
  rw [UniqueIndex.Faithful.clash_eq_false_iff hd]
  intro q hq i hi hqi
  obtain ⟨code, hcode, rfl⟩ := Option.map_eq_some_iff.mp hi
  have hmem : q ∈ coded B.lower code s.view := Table.mem_filter.mpr ⟨hq, decide_eq_true hqi⟩
  rw [hfree code hcode] at hmem
  cases hmem

/-- A promotion keeps its code when its state changes. -/
theorem clash_transition (hd : s.view.Indexed B.lower) {p : Promo}
    (hp : p ∈ s.view.promotions.rows) (state : String) :
    (promoCodes B.lower).clash s.view { p with state := state } = false := by
  rw [UniqueIndex.Faithful.clash_eq_false_iff hd]
  intro q hq i hi hqi
  exact UniqueIndex.Faithful.eq_of_value hd (q := p) hq hp hqi hi

section Pair

variable (hs : s.failed = false) (hd : s.view.Indexed B.lower) (hfit : ∀ w, E₀.fits w = true)
include hs hd hfit

theorem predicts_create {name : String} {discount : Option PyFloat} {effectType : EffectType}
    {triggerCode : Option String}
    (h : requiredApplyFields command = .ok (some (.create name discount effectType triggerCode)))
    (hnew : s.view.promotions.find (BitVec.ofNat 128 (E₀.supply s.view)) = none) :
    (validateApplyPromotionCommand B command).Predicts E₀ (applyPromotionCommand B command) s ↔
      (PromotionCommand.create name discount effectType triggerCode).Fits B s.view := by
  have herror := discountError_eq_none (B := B) (discount_of_create h)
  have hkey : (newPromotion (BitVec.ofNat 128 (E₀.supply s.view)) name discount effectType
      triggerCode).id = BitVec.ofNat 128 (E₀.supply s.view) := rfl
  cases hr : discountRejected effectType discount with
  | true =>
      obtain ⟨e, he⟩ : ∃ e, discountError B effectType discount = some e := by
        apply Option.ne_none_iff_exists'.mp
        intro hnone
        rw [herror.mp hnone] at hr
        cases hr
      simp [validateApplyPromotionCommand, applyPromotionCommand, h, hr, he, PromotionCommand.Fits]
  | false =>
      by_cases hfree : named B.lower name s.view = []
      · cases triggerCode with
        | none =>
          simp [validateApplyPromotionCommand, applyPromotionCommand, h, hr, herror.mpr hr, hs,
            hfit, hfree, filter_named, hkey, hnew, clash_newPromotion hd, PromotionCommand.Fits]
        | some code =>
          by_cases hcode : coded B.lower code s.view = []
          · simp [validateApplyPromotionCommand, applyPromotionCommand, h, hr, herror.mpr hr, hs,
              hfit, hfree, filter_named, hkey, hnew, hcode, clash_newPromotion hd,
              PromotionCommand.Fits]
            intro hn hc
            simp [hn, hc]
          · simp [validateApplyPromotionCommand, applyPromotionCommand, h, hr, herror.mpr hr, hs,
              hfree, filter_named, hcode, PromotionCommand.Fits]
      · simp [validateApplyPromotionCommand, applyPromotionCommand, h, hr, herror.mpr hr, hs,
          hfree, filter_named, PromotionCommand.Fits]

theorem predicts_transition {event : PromotionEvent} {target : String}
    (h : requiredApplyFields command = .ok (some (.transition event target))) :
    (validateApplyPromotionCommand B command).Predicts E₀ (applyPromotionCommand B command) s ↔
      (PromotionCommand.transition event target).Fits B s.view := by
  cases hrows : named B.lower target s.view with
  | nil =>
      simp [validateApplyPromotionCommand, applyPromotionCommand, h, hs, filter_named, hrows,
        PromotionCommand.Fits]
  | cons p rest =>
    cases rest with
    | cons q rest =>
        simp [validateApplyPromotionCommand, applyPromotionCommand, h, hs,
          filter_named, hrows, PromotionCommand.Fits]
    | nil =>
      have hmem : p ∈ s.view.promotions.rows := by
        have hp : p ∈ named B.lower target s.view := by simp [hrows]
        exact (Table.mem_filter.mp hp).1
      cases hstate : PromotionState.ofText p.state with
      | none =>
        simp [validateApplyPromotionCommand, applyPromotionCommand, h, hs, filter_named, hrows,
          hstate, promotionState, PromotionCommand.Fits]
      | some state =>
        cases hnext : promotionTransitions state event with
        | none =>
          simp [validateApplyPromotionCommand, applyPromotionCommand, h, hs, filter_named, hrows,
            hstate, hnext, promotionState, PromotionCommand.Fits]
        | some newState =>
          simp [validateApplyPromotionCommand, applyPromotionCommand, h, hs, filter_named, hrows,
            hstate, hnext, promotionState, hfit, Table.find_of_mem hmem, clash_transition hd hmem,
            PromotionCommand.Fits]

end Pair

end PromotionAgentTools

/-! ## Schedule windows -/

namespace ScheduleAgentTools

variable {E₀ : Engine ScheduleDatabase ScheduleWrite} {s s' : Quiet ScheduleDatabase Unit}

/-- The hours of a command that sets them, if they can be read, are both naive or both aware. -/
def ScheduleCommand.Fits (B : Backend) (parsed : ScheduleCommand) : Prop :=
  parsed.action = .set_hours → ∀ start end_, parseTime B parsed.startTime = some start →
    parseTime B parsed.endTime = some end_ → start.offset.isSome = end_.offset.isSome

theorem succeeds_setHours {period : SchedulePeriod} {scope : ScheduleScope} {start end_ : PyTime}
    (hs : s.failed = false) (hfit : ∀ w, E₀.fits w = true) :
    ∃ s', (setHours period scope start end_).Returns E₀ s () s' := by
  simp [setHours, menuToday, Schema.upsert, returns_stmt, hs, hfit]

theorem succeeds_deleteWindow {slice : WindowSlice} (hs : s.failed = false)
    (hfit : ∀ w, E₀.fits w = true) : ∃ s', (deleteWindow slice).Returns E₀ s () s' := by
  simp [deleteWindow, returns_stmt, hs, hfit]

theorem predicts_schedule {parsed : ScheduleCommand} (hs : s.failed = false)
    (hfit : ∀ w, E₀.fits w = true) (h : requiredCommandShape command = some parsed) :
    (validateApplyScheduleCommand B command).Predicts E₀ (applyScheduleCommand B command) s ↔
      parsed.Fits B := by
  cases haction : parsed.action with
  | reset_to_default =>
    cases hscope : parsed.scope with
    | permanent =>
        simp [validateApplyScheduleCommand, applyScheduleCommand, h, haction, hscope,
          ScheduleCommand.Fits]
    | today =>
      simp [validateApplyScheduleCommand, applyScheduleCommand, h, hs, haction, hscope,
        ScheduleCommand.Fits, menuToday, succeeds_deleteWindow hs hfit]
  | set_hours =>
    cases hstart : parseTime B parsed.startTime with
    | none =>
        simp [validateApplyScheduleCommand, applyScheduleCommand, h, haction, hstart,
          ScheduleCommand.Fits]
    | some start =>
      cases hend : parseTime B parsed.endTime with
      | none =>
          simp [validateApplyScheduleCommand, applyScheduleCommand, h, haction, hstart, hend,
            ScheduleCommand.Fits]
      | some end_ =>
        have hok := PyTime.ge_isOk (t := start) (u := end_)
        cases hge : start.ge end_ with
        | error e =>
          simp [hge] at hok
          simp [validateApplyScheduleCommand, applyScheduleCommand, h, haction, hstart, hend, hge,
            hok, ScheduleCommand.Fits]
        | ok late =>
          simp [hge] at hok
          cases late with
          | true =>
              simp [validateApplyScheduleCommand, applyScheduleCommand, h, haction, hstart, hend,
                hge, hok, ScheduleCommand.Fits]
          | false =>
              simp [validateApplyScheduleCommand, applyScheduleCommand, h, haction, hstart, hend,
                hge, hok, ScheduleCommand.Fits, succeeds_setHours hs hfit]

end ScheduleAgentTools

/-! ## Restocks -/

section Restock

variable {E₀ : Engine Database Write} {s s' : Quiet Database Memory}

/-- What a restock command sends and comes to is taken. -/
def RestockFits (d : Database) (sku : String) (quantity : Int) : Prop :=
  storable sku = true ∧ ∀ row, d.inventory.find sku = some row →
    int4 quantity = true ∧ int4 (row.quantity + quantity) = true

/-- The rows that fit their columns, as far as a restock writes them. -/
def stockFits : Write → Bool
  | .inventory row => int4 row.quantity
  | .inventoryMovement row => int4 row.delta
  | _ => true

theorem predicts_restock {sku : String} {quantity : Int} {n : Nat} (hs : s.failed = false)
    (hfit : E₀.fits = stockFits) (hn : ∀ d, E₀.supply d = n)
    (h : requiredApplyFields command = some (sku, quantity))
    (hnew : s.view.inventoryMovements.find (BitVec.ofNat 128 n) = none) :
    (validateApplyRestockCommand command).Predicts E₀ (applyRestockCommand command) s ↔
      RestockFits s.view sku quantity := by
  cases hrow : (inventory.table s.view).find sku with
  | none =>
    have hfind : s.view.inventory.find sku = none := hrow
    simp [validateApplyRestockCommand, applyRestockCommand, incrementInventory, h, hs, hrow, hfind,
      RestockFits]
  | some row =>
    have hfind : s.view.inventory.find sku = some row := hrow
    simp [validateApplyRestockCommand, applyRestockCommand, incrementInventory, h, hs, hrow, hfind,
      RestockFits, Schema.update, returns_stmt, recordMovement, uuid4, hfit, hn]
    intro _ hq
    have hmove : (inventoryMovements.table (s.wrote [inventory.write
        { row with quantity := row.quantity + quantity }]).view).find (BitVec.ofNat 128 n) = none :=
      hnew
    rw [hmove]
    change int4 (row.quantity + quantity) = true ∧ none = none ∧ int4 quantity = true ↔ _
    simp [hq]

end Restock

end Sieshka
