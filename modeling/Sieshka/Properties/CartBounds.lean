import Sieshka.Traces
import Sieshka.Web.Cart
import Mathlib.Algebra.BigOperators.Group.List.Basic
import Mathlib.Data.List.Nodup

/-!
# The bounds of the cart

A cart has at most fifty units. Two calls can go past that: `addItem` of a product that is
in the cart looks at its quantity only, and `updateQty` looks at the total before the
change. Nothing else breaks a bound, the restored cart included.
-/

namespace Sieshka

namespace Cart

/-! ## The specification -/

/-- A cart within its bounds. -/
structure Bounded (items : List Item) : Prop where
  distinct : (items.map Item.productId).Nodup
  qty : ∀ item ∈ items, 1 ≤ item.qty ∧ item.qty ≤ 20
  total : getTotalItems items ≤ 50

/-- The event adds to an item, within its own limit, what the cart has no room for. -/
def Oversteps (page : Page) : Event → Prop
  | .call storage (.addItem productId _ _ _) =>
      storage.writable = true ∧ ∃ item ∈ loadCart storage page, item.productId = productId ∧
        item.qty < 20 ∧ 50 ≤ getTotalItems (loadCart storage page)
  | .call storage (.updateQty productId delta) =>
      storage.writable = true ∧ ∃ item ∈ loadCart storage page, item.productId = productId ∧
        item.qty + delta ≤ 20 ∧ getTotalItems (loadCart storage page) < 50 ∧
        50 < getTotalItems (loadCart storage page) + delta
  | _ => False

/-! ## Finding an item -/

theorem getTotalItems_split (before after : List Item) (item : Item) :
    getTotalItems (before ++ item :: after) = getTotalItems (before ++ after) + item.qty := by
  simp only [getTotalItems, List.map_append, List.map_cons, List.sum_append, List.sum_cons]
  omega

theorem getTotalItems_push (items : List Item) (item : Item) :
    getTotalItems (items ++ [item]) = getTotalItems items + item.qty := by
  simp [getTotalItems]

/-- What is found is where its index says, and has the product. -/
theorem split_of_findItem {items : List Item} {productId : String} {idx : Nat} {item : Item}
    (h : findItem items productId = some (idx, item)) :
    ∃ before after, items = before ++ item :: after ∧ idx = before.length ∧
      item.productId = productId := by
  obtain ⟨i, hi, hitem⟩ := Option.bind_eq_some_iff.mp h
  obtain ⟨hlt, hp, -⟩ := List.findIdx?_eq_some_iff_getElem.mp hi
  rw [List.getElem?_eq_getElem hlt, Option.map_some, Option.some.injEq, Prod.mk.injEq] at hitem
  obtain ⟨rfl, rfl⟩ := hitem
  refine ⟨items.take i, items.drop (i + 1), ?_, ?_, by simpa using hp⟩
  · rw [List.getElem_cons_drop, List.take_append_drop]
  · rw [List.length_take, min_eq_left hlt.le]

theorem not_mem_of_findItem {items : List Item} {productId : String}
    (h : findItem items productId = none) : ∀ item ∈ items, item.productId ≠ productId := by
  have hnone : (items.findIdx? fun item => item.productId = productId) = none := by
    rw [Option.eq_none_iff_forall_ne_some]
    intro idx hidx
    have hlt := (List.findIdx?_eq_some_iff_getElem.mp hidx).1
    rw [findItem, hidx, Option.bind_some, List.getElem?_eq_getElem hlt] at h
    cases h
  simpa using List.findIdx?_eq_none_iff.mp hnone

@[simp] theorem set_split (before after : List Item) (item item' : Item) :
    (before ++ item :: after).set before.length item' = before ++ item' :: after := by
  simp

@[simp] theorem eraseIdx_split (before after : List Item) (item : Item) :
    (before ++ item :: after).eraseIdx before.length = before ++ after := by
  simp [List.eraseIdx_append]

/-! ## What keeps the bounds -/

theorem bounded_nil : Bounded [] where
  distinct := List.nodup_nil
  qty := by simp
  total := by decide

section

variable {items before after : List Item} {item item' : Item}

theorem Bounded.erase (h : Bounded (before ++ item :: after)) : Bounded (before ++ after) := by
  have hsub : (before ++ after).Sublist (before ++ item :: after) := by simp
  have hqty := h.qty item (by simp)
  have htotal := h.total
  rw [getTotalItems_split] at htotal
  constructor
  · exact h.distinct.sublist (hsub.map _)
  · intro other hmem
    exact h.qty other (hsub.subset hmem)
  · omega

theorem Bounded.replace_iff (h : Bounded (before ++ item :: after))
    (hid : item'.productId = item.productId) (hqty : 1 ≤ item'.qty ∧ item'.qty ≤ 20) :
    Bounded (before ++ item' :: after) ↔
      getTotalItems (before ++ item :: after) + (item'.qty - item.qty) ≤ 50 := by
  have htotal : getTotalItems (before ++ item' :: after) =
      getTotalItems (before ++ item :: after) + (item'.qty - item.qty) := by
    rw [getTotalItems_split, getTotalItems_split]
    omega
  constructor
  · intro h'
    have hle := h'.total
    omega
  · intro hle
    constructor
    · simpa [hid] using h.distinct
    · intro other hmem
      rcases List.mem_append.mp hmem with hmem | hmem
      · exact h.qty other (List.mem_append_left _ hmem)
      · rcases List.mem_cons.mp hmem with rfl | hmem
        · exact hqty
        · exact h.qty other (by simp [hmem])
    · omega

theorem Bounded.push_iff (h : Bounded items)
    (hnew : ∀ other ∈ items, other.productId ≠ item.productId)
    (hqty : 1 ≤ item.qty ∧ item.qty ≤ 20) :
    Bounded (items ++ [item]) ↔ getTotalItems items + item.qty ≤ 50 := by
  constructor
  · intro h'
    have hle := h'.total
    rwa [getTotalItems_push] at hle
  · intro hle
    constructor
    · rw [List.map_append, List.nodup_append]
      refine ⟨h.distinct, by simp, ?_⟩
      intro id hid id' hid'
      obtain ⟨other, hother, rfl⟩ := List.mem_map.mp hid
      obtain rfl : id' = item.productId := by simpa using hid'
      exact hnew other hother
    · intro other hmem
      rcases List.mem_append.mp hmem with hmem | hmem
      · exact h.qty other hmem
      · obtain rfl := List.mem_singleton.mp hmem
        exact hqty
    · rwa [getTotalItems_push]

end

theorem Bounded.load {page : Page} (h : Bounded page.stored) (storage : LocalStorage) :
    Bounded (loadCart storage page) := by
  unfold loadCart
  split_ifs
  · constructor
    · simpa [Function.comp_def] using h.distinct
    · simpa using h.qty
    · simpa [getTotalItems, Function.comp_def] using h.total
  · exact bounded_nil

theorem bounded_save_iff {page : Page} (h : Bounded page.stored) (storage : LocalStorage)
    (items : List Item) :
    Bounded (saveCart storage items page).stored ↔ (storage.writable = true → Bounded items) := by
  unfold saveCart
  split_ifs with hw <;> simp [hw, h]

@[simp] theorem saveCart_clearBackup (storage : LocalStorage) (items : List Item) (page : Page) :
    (saveCart storage items page).clearBackup = page.clearBackup := by
  unfold saveCart
  split_ifs <;> rfl

@[simp] theorem trackDeleted_clearBackup (item : Item) (page : Page) :
    (trackDeleted item page).clearBackup = page.clearBackup := rfl

@[simp] theorem pruneRecentlyDeleted_stored (storage : LocalStorage) (page : Page) :
    (pruneRecentlyDeleted storage page).stored = page.stored := rfl

@[simp] theorem pruneRecentlyDeleted_clearBackup (storage : LocalStorage) (page : Page) :
    (pruneRecentlyDeleted storage page).clearBackup = page.clearBackup := rfl

/-! ## The calls -/

/-- An item with a product is the one that is found. -/
theorem exists_item_iff {items : List Item} {productId : String} {item : Item}
    {p : Item → Prop} (h : Bounded items) (hmem : item ∈ items)
    (hid : item.productId = productId) :
    (∃ other ∈ items, other.productId = productId ∧ p other) ↔ p item := by
  constructor
  · rintro ⟨other, hother, hid', hp⟩
    rwa [← List.inj_on_of_nodup_map h.distinct hother hmem (hid'.trans hid.symm)]
  · intro hp
    exact ⟨item, hmem, hid, hp⟩

section

variable {storage : LocalStorage} {page : Page} (h : Bounded page.stored)

include h

theorem addItem_bounded_iff {productId name : String} {priceRub : ℚ}
    {leadTimeMinutes : Option ℚ} :
    Bounded (addItem storage productId priceRub name leadTimeMinutes page).2.stored ↔
      ¬ Oversteps page (.call storage (.addItem productId priceRub name leadTimeMinutes)) := by
  have hload := h.load storage
  change _ ↔ ¬ (storage.writable = true ∧ ∃ item ∈ loadCart storage page,
    item.productId = productId ∧ item.qty < 20 ∧ 50 ≤ getTotalItems (loadCart storage page))
  unfold addItem
  generalize loadCart storage page = items at hload
  dsimp only
  cases hfind : findItem items productId with
  | some found =>
      obtain ⟨idx, item⟩ := found
      obtain ⟨before, after, rfl, rfl, hid⟩ := split_of_findItem hfind
      have hqty := hload.qty item (by simp)
      rw [exists_item_iff hload (by simp) hid]
      have hmax : qtyMax = 20 := rfl
      dsimp only
      split_ifs with hlimit
      · exact iff_of_true h (by omega)
      · rw [pruneRecentlyDeleted_stored, bounded_save_iff h, set_split, hload.replace_iff (by rfl) (by dsimp only; omega)]
        dsimp only
        constructor
        · rintro hle ⟨hw, -, hfull⟩
          have hle := hle hw
          omega
        · intro hno hw
          by_contra hfull
          exact hno ⟨hw, by omega, by omega⟩
  | none =>
      have hnone := not_mem_of_findItem hfind
      have hno : ¬ (storage.writable = true ∧ ∃ item ∈ items, item.productId = productId ∧
          item.qty < 20 ∧ 50 ≤ getTotalItems items) := by
        rintro ⟨-, item, hmem, hid, -⟩
        exact hnone item hmem hid
      have hitems : maxItems = 50 := rfl
      dsimp only
      split_ifs with hfull
      · exact iff_of_true h hno
      · rw [pruneRecentlyDeleted_stored, bounded_save_iff (by exact h)]
        apply iff_of_true _ hno
        intro _
        rw [hload.push_iff hnone (by dsimp only; omega)]
        dsimp only
        omega

theorem updateQty_bounded_iff {productId : String} {delta : Int} :
    Bounded (updateQty storage productId delta page).2.stored ↔
      ¬ Oversteps page (.call storage (.updateQty productId delta)) := by
  have hload := h.load storage
  change _ ↔ ¬ (storage.writable = true ∧ ∃ item ∈ loadCart storage page,
    item.productId = productId ∧ item.qty + delta ≤ 20 ∧
      getTotalItems (loadCart storage page) < 50 ∧
      50 < getTotalItems (loadCart storage page) + delta)
  unfold updateQty
  generalize loadCart storage page = items at hload
  dsimp only
  cases hfind : findItem items productId with
  | some found =>
      obtain ⟨idx, item⟩ := found
      obtain ⟨before, after, rfl, rfl, hid⟩ := split_of_findItem hfind
      have hqty := hload.qty item (by simp)
      have htotal := hload.total
      rw [exists_item_iff hload (by simp) hid]
      have hmax : qtyMax = 20 := rfl
      have hitems : maxItems = 50 := rfl
      dsimp only
      split_ifs with hgone hlimit hfull
      · rw [pruneRecentlyDeleted_stored, bounded_save_iff (by exact h), eraseIdx_split]
        exact iff_of_true (fun _ => hload.erase) (by omega)
      · exact iff_of_true h (by omega)
      · exact iff_of_true h (by omega)
      · rw [pruneRecentlyDeleted_stored, bounded_save_iff h, set_split, hload.replace_iff (by rfl) (by dsimp only; omega)]
        dsimp only
        constructor
        · rintro hle ⟨hw, -, -, hover⟩
          have hle := hle hw
          omega
        · intro hno hw
          by_contra hover
          exact hno ⟨hw, by omega, by omega, by omega⟩
  | none =>
      apply iff_of_true h
      rintro ⟨-, item, hmem, hid, -⟩
      exact not_mem_of_findItem hfind item hmem hid

theorem setQty_bounded {productId name : String} {priceRub : ℚ} {qty : Option Int}
    {leadTimeMinutes : Option ℚ} :
    Bounded (setQty storage productId priceRub name qty leadTimeMinutes page).2.stored := by
  have hload := h.load storage
  unfold setQty
  generalize loadCart storage page = items at hload
  generalize hclamp : max qtyMin (min qtyMax (qty.getD 0)) = clamped
  have hle : clamped ≤ 20 := by
    rw [← hclamp]
    exact max_le (by decide) (min_le_left _ _)
  have hitems : maxItems = 50 := rfl
  cases hfind : findItem items productId with
  | some found =>
      obtain ⟨idx, item⟩ := found
      obtain ⟨before, after, rfl, rfl, hid⟩ := split_of_findItem hfind
      simp only [hfind]
      split_ifs with hgone hfull hfull
      · exact h
      · rw [pruneRecentlyDeleted_stored, bounded_save_iff h, eraseIdx_split]
        exact fun _ => hload.erase
      · exact h
      · rw [pruneRecentlyDeleted_stored, bounded_save_iff h, set_split,
          hload.replace_iff (by rfl) (by dsimp only; omega)]
        rw [set_split, getTotalItems_split] at hfull
        rw [getTotalItems_split]
        dsimp only at hfull ⊢
        omega
  | none =>
      simp only [hfind]
      split_ifs with hgone hfull hfull
      · exact h
      · rw [pruneRecentlyDeleted_stored, bounded_save_iff h]
        exact fun _ => hload
      · exact h
      · rw [pruneRecentlyDeleted_stored, bounded_save_iff h,
          hload.push_iff (not_mem_of_findItem hfind) (by dsimp only; omega)]
        rw [getTotalItems_push] at hfull
        omega

theorem removeItem_bounded {productId : String} :
    Bounded (removeItem storage productId page).2.stored := by
  have hload := h.load storage
  unfold removeItem
  generalize loadCart storage page = items at hload
  dsimp only
  cases hfind : findItem items productId with
  | some found =>
      obtain ⟨idx, item⟩ := found
      obtain ⟨before, after, rfl, rfl, hid⟩ := split_of_findItem hfind
      rw [pruneRecentlyDeleted_stored, bounded_save_iff (by exact h), eraseIdx_split]
      exact fun _ => hload.erase
  | none => exact h

theorem clearCart_bounded : Bounded (clearCart storage page).2.stored := by
  unfold clearCart
  dsimp only
  split_ifs
  · exact h
  · rw [pruneRecentlyDeleted_stored, bounded_save_iff (by exact h)]
    exact fun _ => bounded_nil

end

/-- A cleared cart that can be brought back was there before, or is the one cleared. -/
theorem run_clearBackup {storage : LocalStorage} {page : Page} (call : Call) {items : List Item}
    (h : (call.run storage page).2.clearBackup = some items) :
    page.clearBackup = some items ∨ loadCart storage page = items := by
  cases call with
  | addItem productId priceRub name leadTimeMinutes =>
      apply Or.inl
      dsimp only [Call.run, addItem] at h
      cases hfind : findItem (loadCart storage page) productId with
      | some found =>
          simp only [hfind] at h
          split_ifs at h <;> simpa using h
      | none =>
          simp only [hfind] at h
          split_ifs at h <;> simpa using h
  | updateQty productId delta =>
      apply Or.inl
      dsimp only [Call.run, updateQty] at h
      cases hfind : findItem (loadCart storage page) productId with
      | some found =>
          simp only [hfind] at h
          split_ifs at h <;> simpa using h
      | none => simpa only [hfind] using h
  | setQty productId priceRub name qty leadTimeMinutes =>
      apply Or.inl
      dsimp only [Call.run, setQty] at h
      split_ifs at h <;> simpa using h
  | removeItem productId =>
      apply Or.inl
      dsimp only [Call.run, removeItem] at h
      cases hfind : findItem (loadCart storage page) productId with
      | some found => simpa [hfind] using h
      | none => simpa only [hfind] using h
  | clearCart =>
      dsimp only [Call.run, clearCart] at h
      split_ifs at h
      · exact Or.inl h
      · exact Or.inr (by simpa using h)
  | undoClearCart =>
      apply Or.inl
      dsimp only [Call.run, undoClearCart] at h
      cases hbackup : page.clearBackup with
      | some saved => simp [hbackup] at h
      | none => simp [hbackup] at h

/-! ## Whole runs -/

/-- The cart is within its bounds, and so is the one that can be brought back. -/
structure Kept (page : Page) : Prop where
  stored : Bounded page.stored
  backup : ∀ items, page.clearBackup = some items → Bounded items

theorem Kept.step_stored_iff {page : Page} (h : Kept page) (event : Event) :
    Bounded (page.step event).stored ↔ ¬ Oversteps page event := by
  cases event with
  | backupExpires => exact iff_of_true h.stored id
  | call storage call =>
      cases call with
      | addItem productId priceRub name leadTimeMinutes => exact addItem_bounded_iff h.stored
      | updateQty productId delta => exact updateQty_bounded_iff h.stored
      | setQty productId priceRub name qty leadTimeMinutes =>
          exact iff_of_true (setQty_bounded h.stored) id
      | removeItem productId => exact iff_of_true (removeItem_bounded h.stored) id
      | clearCart => exact iff_of_true (clearCart_bounded h.stored) id
      | undoClearCart =>
          apply iff_of_true _ id
          dsimp only [Page.step, Call.run, undoClearCart]
          cases hbackup : page.clearBackup with
          | some items =>
              exact (bounded_save_iff h.stored storage items).mpr fun _ => h.backup items hbackup
          | none => exact h.stored

theorem Kept.step {page : Page} (h : Kept page) {event : Event} (hok : ¬ Oversteps page event) :
    Kept (page.step event) := by
  constructor
  · exact (h.step_stored_iff event).mpr hok
  · intro items hitems
    cases event with
    | backupExpires => cases hitems
    | call storage call =>
        rcases run_clearBackup call hitems with hold | rfl
        · exact h.backup items hold
        · exact h.stored.load storage

/-- From an empty cart, the cart stays within its bounds exactly when no call adds to an
item what the cart has no room for. -/
theorem bounded_iff (recentlyDeleted : List DeletedItem) (events : List Event) :
    (∀ page ∈ visited Page.step (Page.empty recentlyDeleted) events, Bounded page.stored) ↔
      ∀ before event after, events = before ++ event :: after →
        ¬ Oversteps (before.foldl Page.step (Page.empty recentlyDeleted)) event := by
  apply forall_visited_iff (fun page => Bounded page.stored) Kept Oversteps
  · intro page h
    exact h.stored
  · intro page event h hok
    exact h.step hok
  · intro page event h hover hstored
    exact (h.step_stored_iff event).mp hstored hover
  · exact ⟨bounded_nil, by simp [Page.empty]⟩

/-- A full cart takes one more unit of a product that it has. -/
theorem full_cart_takes_one_more :
    ¬ ∀ recentlyDeleted events,
      ∀ page ∈ visited Page.step (Page.empty recentlyDeleted) events, Bounded page.stored := by
  intro hall
  have h := hall [] [.call {} (.setQty "borscht" 300 "Borscht" (some 20)),
    .call {} (.setQty "tea" 100 "Tea" (some 20)), .call {} (.setQty "bread" 50 "Bread" (some 10)),
    .call {} (.addItem "bread" 50 "Bread")] _
    (List.mem_cons_of_mem _ (List.mem_cons_of_mem _ (List.mem_cons_of_mem _
      (List.mem_cons_of_mem _ List.mem_cons_self))))
  have htotal := h.total
  revert htotal
  decide +kernel

end Cart

end Sieshka
