import Sieshka.Services.MenuService

/-!
# What the storefront shows as available

A product can be ordered when it is active, priced and not out of stock, and its
period is the current one. `get_menu` asks the category for its own period first, so a
product whose override is wider than its category is left out.
-/

namespace Sieshka

open Transactions MenuService

/-! ## The specification -/

/-- A `time_period` covers the current period. -/
def TimePeriod.Covers (t : TimePeriod) (currentPeriod : SchedulePeriod) : Prop :=
  t = .both ∨ t = currentPeriod.timePeriod

instance (t : TimePeriod) (currentPeriod : SchedulePeriod) :
    Decidable (t.Covers currentPeriod) :=
  inferInstanceAs (Decidable (_ ∨ _))

/-- A `fulfillment_scope` covers a method. -/
def FulfillmentScope.Covers (scope : FulfillmentScope) (method : FulfillmentMethod) : Prop :=
  scope = .both ∨ scope = method.scope

namespace Catalog

variable (d : Catalog) (currentPeriod : SchedulePeriod) (method : FulfillmentMethod) (id : Uuid)

/-- The stock of a product, if its sku is kept in stock. -/
def stockOf (p : MenuProduct) : Option Inventory := p.sku.bind d.inventory.find

/-- The product is active and priced, and not out of stock. -/
def Sellable (p : MenuProduct) : Prop :=
  p.isActive = true ∧ p.priceRub.isSome = true ∧ ∀ stock ∈ d.stockOf p, 0 < stock.quantity

/-- The product is of the category, which is active and in scope for the method. -/
def Listed (p : MenuProduct) (cat : Category) : Prop :=
  d.products.find id = some p ∧ p.categoryId = some cat.id ∧
    d.categories.find cat.id = some cat ∧ cat.isActive = true ∧
    cat.fulfillmentScope.Covers method

/-- The product can be ordered: its period is its own, if it has one, or that of its
category. -/
def Available : Prop :=
  ∃ p cat, d.Listed method id p cat ∧ d.Sellable p ∧
    (p.timePeriodOverride.getD cat.timePeriod).Covers currentPeriod

/-- The product can be ordered by a period of its own, while its category belongs to
the other one. -/
def Overridden : Prop :=
  ∃ p cat t, d.Listed method id p cat ∧ d.Sellable p ∧ p.timePeriodOverride = some t ∧
    t.Covers currentPeriod ∧ ¬ cat.timePeriod.Covers currentPeriod

end Catalog

/-- The menu shows the product as available. -/
def ShownAvailable (menu : List MenuCategory) (id : Uuid) : Prop :=
  ∃ cat ∈ menu, ∃ item ∈ cat.products, item.productId = id ∧ item.available = true

/-- No product appears twice. -/
def ShownOnce (menu : List MenuCategory) : Prop :=
  (menu.flatMap fun cat => cat.products.map MenuProductItem.productId).Nodup

/-! ## The queries -/

section Menu

variable {d : Catalog} {currentPeriod : SchedulePeriod} {method : FulfillmentMethod}
variable {textLe : String → String → Bool} {cat : Category}

theorem mem_fetchCategories :
    cat ∈ fetchCategories currentPeriod method d ↔
      d.categories.find cat.id = some cat ∧ cat.isActive = true ∧
        cat.timePeriod.Covers currentPeriod ∧ cat.fulfillmentScope.Covers method := by
  simp [fetchCategories, Table.mem_filter, Table.mem_rows_iff, TimePeriod.Covers,
    FulfillmentScope.Covers, and_assoc]

/-- A product is joined to its stock, if it has one. -/
theorem leftJoin_inventory :
    leftJoin (fun p inv => p.sku = some inv.sku) d.products.rows d.inventory.rows =
      d.products.rows.map fun p => (p, d.stockOf p) := by
  apply leftJoin_eq_map
  intro p _
  cases hsku : p.sku with
  | none => simp [Catalog.stockOf, hsku]
  | some sku =>
      simp only [Catalog.stockOf, hsku, Option.bind_some, Option.some.injEq]
      rw [← Table.filter_key_eq]
      simp [eq_comm]

/-- The items of a category are its priced products, each with its stock. -/
theorem mem_fetchProducts {item : MenuProductItem} :
    item ∈ fetchProducts textLe cat.id currentPeriod cat.timePeriod d ↔
      ∃ p, d.products.find p.id = some p ∧ p.categoryId = some cat.id ∧
        p.priceRub.isSome = true ∧
        item = menuItem currentPeriod cat.timePeriod (p, d.stockOf p) := by
  simp only [fetchProducts, leftJoin_inventory, List.mem_map, List.mem_mergeSort, List.mem_filter,
    Bool.and_eq_true, decide_eq_true_eq]
  constructor
  · rintro ⟨_, ⟨⟨p, hp, rfl⟩, hcat, hprice⟩, rfl⟩
    exact ⟨p, Table.mem_rows_iff.mp hp, hcat, hprice, rfl⟩
  · rintro ⟨p, hp, hcat, hprice, rfl⟩
    exact ⟨_, ⟨⟨p, Table.mem_rows_iff.mpr hp, rfl⟩, hcat, hprice⟩, rfl⟩

/-- An item is available when the product is active, in its window and not out of
stock. -/
theorem available_menuItem {p : MenuProduct} {stock : Option Inventory} :
    (menuItem currentPeriod cat.timePeriod (p, stock)).available = true ↔
      p.isActive = true ∧ (p.timePeriodOverride.getD cat.timePeriod).Covers currentPeriod ∧
        ∀ row ∈ stock, 0 < row.quantity := by
  have hwindow : (decide (p.timePeriodOverride.getD cat.timePeriod = .both) ||
      decide (p.timePeriodOverride.getD cat.timePeriod = currentPeriod.timePeriod)) =
      decide ((p.timePeriodOverride.getD cat.timePeriod).Covers currentPeriod) := by
    rw [Bool.eq_iff_iff, Bool.or_eq_true, decide_eq_true_eq, decide_eq_true_eq, decide_eq_true_eq]
    rfl
  simp only [menuItem, hwindow]
  cases p.isActive with
  | false => simp
  | true =>
      by_cases hcovers : (p.timePeriodOverride.getD cat.timePeriod).Covers currentPeriod
      · cases stock with
        | none => simp [hcovers]
        | some row =>
            by_cases hout : row.quantity ≤ 0
            · simp [hcovers, hout]
            · simp [hcovers, hout, Int.not_le.mp hout]
      · simp [hcovers]

/-- What the menu shows as available. -/
theorem shownAvailable_iff {id : Uuid} :
    ShownAvailable (getMenu textLe currentPeriod method d) id ↔
      ∃ p cat, d.Listed method id p cat ∧ d.Sellable p ∧ cat.timePeriod.Covers currentPeriod ∧
        (p.timePeriodOverride.getD cat.timePeriod).Covers currentPeriod := by
  simp only [ShownAvailable, getMenu, List.mem_map, exists_exists_and_eq_and,
    mem_fetchCategories, mem_fetchProducts]
  constructor
  · rintro ⟨cat, ⟨hcat, hactive, hperiod, hscope⟩, item, ⟨p, hp, hof, hprice, rfl⟩, rfl, havailable⟩
    obtain ⟨hp', hwindow, hstock⟩ := available_menuItem.mp havailable
    exact ⟨p, cat, ⟨hp, hof, hcat, hactive, hscope⟩, ⟨hp', hprice, hstock⟩, hperiod, hwindow⟩
  · rintro ⟨p, cat, ⟨hp, hof, hcat, hactive, hscope⟩, ⟨hp', hprice, hstock⟩, hperiod, hwindow⟩
    obtain rfl : p.id = id := (Table.find_some hp).2
    exact ⟨cat, ⟨hcat, hactive, hperiod, hscope⟩, _, ⟨p, hp, hof, hprice, rfl⟩, rfl,
      available_menuItem.mpr ⟨hp', hwindow, hstock⟩⟩

theorem nodup_fetchProducts :
    ((fetchProducts textLe cat.id currentPeriod cat.timePeriod d).map
      MenuProductItem.productId).Nodup := by
  simp only [fetchProducts, leftJoin_inventory, List.map_map]
  have hperm := ((List.mergeSort_perm ((d.products.rows.map fun p => (p, d.stockOf p)).filter
    fun row => row.1.categoryId = some cat.id && row.1.priceRub.isSome)
      (inMenuOrder textLe)).map (fun row => row.1.id)).nodup_iff
  apply hperm.mpr
  apply (List.filter_sublist.map _).nodup
  simpa [Function.comp_def] using d.products.nodup

/-- Every product appears in its own category only, and there once. -/
theorem shownOnce_getMenu : ShownOnce (getMenu textLe currentPeriod method d) := by
  simp only [ShownOnce, getMenu, List.flatMap_map]
  rw [List.nodup_flatMap]
  constructor
  · intro cat _
    exact nodup_fetchProducts
  · have hids : (fetchCategories currentPeriod method d).Pairwise fun a b => a.id ≠ b.id := by
      have hperm := List.mergeSort_perm (d.categories.filter fun row => row.isActive &&
        (row.timePeriod = .both || row.timePeriod = currentPeriod.timePeriod) &&
        (row.fulfillmentScope = .both || row.fulfillmentScope = method.scope))
        fun a b => a.sort ≤ b.sort
      rw [fetchCategories, hperm.pairwise_iff fun h => h.symm]
      exact (List.pairwise_map.mp d.categories.nodup).filter _
    refine hids.imp fun hne id ha hb => hne ?_
    obtain ⟨item, hitem, rfl⟩ := List.mem_map.mp ha
    obtain ⟨item', hitem', hid⟩ := List.mem_map.mp hb
    obtain ⟨p, hp, hcat, -, rfl⟩ := mem_fetchProducts.mp hitem
    obtain ⟨q, hq, hcat', -, rfl⟩ := mem_fetchProducts.mp hitem'
    have hsame : q.id = p.id := hid
    rw [hsame, hp] at hq
    obtain rfl := Option.some.inj hq
    exact Option.some.inj (hcat.symm.trans hcat')

end Menu

/-- The menu shows as available exactly what can be ordered, and nothing twice, exactly
when no product that can be ordered has a period of its own in a category that belongs
to the other one. -/
theorem menu_available_iff (textLe : String → String → Bool) (currentPeriod : SchedulePeriod)
    (method : FulfillmentMethod) (d : Catalog) :
    ((∀ id, ShownAvailable (getMenu textLe currentPeriod method d) id ↔
      d.Available currentPeriod method id) ∧
      ShownOnce (getMenu textLe currentPeriod method d)) ↔
    ∀ id, ¬ d.Overridden currentPeriod method id := by
  constructor
  · rintro ⟨hshown, -⟩ id ⟨p, cat, t, hlisted, hsellable, hown, hcovers, hother⟩
    have havailable : d.Available currentPeriod method id :=
      ⟨p, cat, hlisted, hsellable, by rw [hown]; exact hcovers⟩
    obtain ⟨q, cat', hlisted', -, hperiod, -⟩ := shownAvailable_iff.mp ((hshown id).mpr havailable)
    obtain rfl := Option.some.inj (hlisted.1.symm.trans hlisted'.1)
    have hid := Option.some.inj (hlisted.2.1.symm.trans hlisted'.2.1)
    have hcat := hlisted.2.2.1
    rw [hid, hlisted'.2.2.1] at hcat
    obtain rfl := Option.some.inj hcat
    exact hother hperiod
  · intro hnone
    refine ⟨fun id => ?_, shownOnce_getMenu⟩
    rw [shownAvailable_iff]
    constructor
    · rintro ⟨p, cat, hlisted, hsellable, -, hcovers⟩
      exact ⟨p, cat, hlisted, hsellable, hcovers⟩
    · rintro ⟨p, cat, hlisted, hsellable, hcovers⟩
      refine ⟨p, cat, hlisted, hsellable, ?_, hcovers⟩
      by_contra hother
      cases hown : p.timePeriodOverride with
      | none =>
          rw [hown] at hcovers
          exact hother hcovers
      | some t =>
          rw [hown] at hcovers
          exact hnone id ⟨p, cat, t, hlisted, hsellable, hown, hcovers, hother⟩

/-! ## A sample -/

/-- A category of the morning. -/
def breakfast : Category := ⟨1, "Breakfast", none, .morning, .both, 0, true, none⟩

/-- Tea that is sold all day. -/
def allDayTea : MenuProduct := ⟨2, "Tea", some 1, some .both, some 100, none, none, true, none, 0⟩

/-- Tea that is sold all day, for breakfast. -/
def breakfastCatalog : Catalog where
  categories := Table.empty.put breakfast
  products := Table.empty.put allDayTea
  inventory := .empty
  zones := .empty

/-- Tea that is sold all day is left out in the evening. -/
theorem menu_leaves_out_tea :
    ¬ ∀ textLe currentPeriod method (d : Catalog),
      (∀ id, ShownAvailable (getMenu textLe currentPeriod method d) id ↔
        d.Available currentPeriod method id) ∧
      ShownOnce (getMenu textLe currentPeriod method d) := by
  intro hall
  have htea := (hall (fun _ _ => true) .evening .delivery breakfastCatalog).1 2
  have havailable : breakfastCatalog.Available .evening .delivery 2 :=
    ⟨allDayTea, breakfast, ⟨rfl, rfl, rfl, rfl, Or.inl rfl⟩,
      ⟨rfl, rfl, by simp [Catalog.stockOf, allDayTea]⟩, Or.inl rfl⟩
  obtain ⟨p, cat, ⟨hp, hof, hcat, -⟩, -, hperiod, -⟩ := shownAvailable_iff.mp (htea.mpr havailable)
  obtain rfl := Option.some.inj hp
  rw [← Option.some.inj hof] at hcat
  obtain rfl := Option.some.inj hcat
  revert hperiod
  decide

end Sieshka
