import Sieshka.Specs.Validators
import Sieshka.Effects
import Sieshka.Samples

/-!
# Reservations of stock

`reserve_inventory_items` takes the items of an order as they are stored. It goes
through, and only ever takes stock away, exactly when every item names a product or
a sku in a form that can be looked up and takes a positive number of pieces that
leaves the stock in the range of its column.
-/

namespace Sieshka

open Transactions Prog

/-! ## What the items take -/

/-- How many pieces of `sku` an item takes. -/
def itemDemand (products : Table Product.id) (item : Json) (sku : String) : Int :=
  match lineOf products item with
  | .ok (some line) => if line.1 = sku then line.2 else 0
  | _ => 0

/-- How many pieces of `sku` the items take. -/
def demand (products : Table Product.id) : List Json → String → Int
  | [], _ => 0
  | item :: rest, sku => itemDemand products item sku + demand products rest sku

/-- One of the items takes `qty` pieces of a sku that is in stock, of which it and
the items before it leave `left`. -/
def Takes (d : Database) (items : List Json) (qty left : Int) : Prop :=
  ∃ before item after sku row, items = before ++ item :: after ∧
    lineOf d.products item = .ok (some (sku, qty)) ∧ d.inventory.find sku = some row ∧
    left = row.quantity - demand d.products (before ++ [item]) sku

/-- Every item can be looked up, and takes a positive number of pieces that, as
what it leaves, is in the range of `INTEGER`. -/
def Reservable (d : Database) (items : List Json) : Prop :=
  (∀ item ∈ items, ∃ line, lineOf d.products item = .ok line) ∧
    ∀ qty left, Takes d items qty left → 0 < qty ∧ int4 qty = true ∧ int4 left = true

/-- What a reservation does and returns. -/
structure Reserved (d : Database) (items : List Json) (r : Int) (d' : Database) : Prop where
  quantities : ∀ sku, d'.inventory.find sku = (d.inventory.find sku).map fun row =>
    { row with quantity := row.quantity - demand d.products items sku }
  negative : ∀ m ∈ d'.inventoryMovements.rows, m ∉ d.inventoryMovements.rows → m.delta < 0
  sentinel : r = 0 ∨ r = 1
  alert : r = 1 ↔ ∃ qty left, Takes d items qty left ∧ left < 0

/-- The stock has lost the given number of pieces of each sku, and the products are
what they were. -/
structure Drops (d d' : Database) (n : String → Int) : Prop where
  products : d'.products = d.products
  quantities : ∀ sku, d'.inventory.find sku = (d.inventory.find sku).map fun row =>
    { row with quantity := row.quantity - n sku }

section Demand

variable {d d' d'' : Database} {n n' : String → Int} {item : Json} {items : List Json}

theorem Drops.refl (d : Database) (hn : ∀ sku row, d.inventory.find sku = some row → n sku = 0) :
    Drops d d n where
  products := rfl
  quantities sku := by
    cases hrow : d.inventory.find sku with
    | none => rfl
    | some row => simp [hn sku row hrow]

theorem Drops.trans (h : Drops d d' n) (h' : Drops d' d'' n') :
    Drops d d'' fun sku => n sku + n' sku where
  products := h'.products.trans h.products
  quantities sku := by
    rw [h'.quantities, h.quantities, Option.map_map]
    congr 1
    funext row
    simp only [Function.comp_apply, Inventory.mk.injEq, and_true, true_and]
    omega

theorem Drops.single (h : Drops d d' (demand d.products [item])) :
    Drops d d' (itemDemand d.products item) :=
  ⟨h.products, fun sku => by simpa [demand] using h.quantities sku⟩

/-- What a single item takes of a sku that is in stock. -/
theorem takes_singleton {sku : String} {qty n left : Int} {row : Inventory}
    (hline : lineOf d.products item = .ok (some (sku, qty)))
    (hrow : d.inventory.find sku = some row) :
    Takes d [item] n left ↔ n = qty ∧ left = row.quantity - qty := by
  constructor
  · rintro ⟨before, item', after, sku', row', hitems, hline', hrow', rfl⟩
    obtain ⟨rfl, hone⟩ | ⟨-, hnone⟩ := List.append_eq_singleton_iff.mp hitems.symm
    · obtain ⟨rfl, -⟩ := List.cons.inj hone
      rw [hline] at hline'
      obtain ⟨rfl, rfl⟩ := Prod.mk.inj (Option.some.inj (Except.ok.inj hline'))
      rw [hrow] at hrow'
      obtain rfl := Option.some.inj hrow'
      exact ⟨rfl, by simp [demand, itemDemand, hline]⟩
    · cases hnone
  · rintro ⟨rfl, rfl⟩
    exact ⟨[], item, [], sku, row, rfl, hline, hrow, by simp [demand, itemDemand, hline]⟩

/-- The first item takes from the stock as it is, the others from what it leaves. -/
theorem takes_cons (h : Drops d d' (itemDemand d.products item)) {qty left : Int} :
    Takes d (item :: items) qty left ↔
      (∃ sku row, lineOf d.products item = .ok (some (sku, qty)) ∧
        d.inventory.find sku = some row ∧ left = row.quantity - qty) ∨
      Takes d' items qty left := by
  constructor
  · rintro ⟨before, item', after, sku, row, hitems, hline, hrow, rfl⟩
    cases before with
    | nil =>
        obtain ⟨rfl, rfl⟩ := List.cons.inj hitems
        exact Or.inl ⟨sku, row, hline, hrow, by simp [demand, itemDemand, hline]⟩
    | cons first before =>
        obtain ⟨rfl, rfl⟩ := List.cons.inj hitems
        refine Or.inr ⟨before, item', after, sku,
          { row with quantity := row.quantity - itemDemand d.products item sku }, rfl, ?_, ?_, ?_⟩
        · rw [h.products, hline]
        · rw [h.quantities, hrow]
          rfl
        · rw [h.products, List.cons_append, demand]
          dsimp only
          omega
  · rintro (⟨sku, row, hline, hrow, rfl⟩ | ⟨before, item', after, sku, row', rfl, hline, hrow, rfl⟩)
    · exact ⟨[], item, items, sku, row, rfl, hline, hrow, by simp [demand, itemDemand, hline]⟩
    · rw [h.quantities] at hrow
      obtain ⟨row, hfind, rfl⟩ := Option.map_eq_some_iff.mp hrow
      refine ⟨item :: before, item', after, sku, row, rfl, ?_, hfind, ?_⟩
      · rw [← h.products, hline]
      · rw [h.products, List.cons_append, demand]
        dsimp only
        omega

theorem Takes.append {qty left : Int} (h : Takes d items qty left) (more : List Json) :
    Takes d (items ++ more) qty left := by
  obtain ⟨before, item, after, sku, row, rfl, hline, hrow, hleft⟩ := h
  exact ⟨before, item, after ++ more, sku, row, by simp, hline, hrow, hleft⟩

theorem not_takes_nil {qty left : Int} : ¬ Takes d [] qty left := by
  rintro ⟨before, item, after, _, _, hitems, -⟩
  simp at hitems

end Demand

/-! ## What a run of the loop comes to -/

/-- The loop has gone through the items: it could look up each of them, and what
they take is gone from the stock and written down as movements. -/
structure Sold (d : Database) (items : List Json) (b : Bool) (d' : Database) : Prop where
  lines : ∀ item ∈ items, ∃ line, lineOf d.products item = .ok line
  fits : ∀ qty left, Takes d items qty left → int4 qty = true ∧ int4 left = true
  alert : b = true ↔ ∃ qty left, Takes d items qty left ∧ left < 0
  drops : Drops d d' (demand d.products items)
  kept : ∀ m ∈ d.inventoryMovements.rows, m ∈ d'.inventoryMovements.rows
  sales : ∀ m ∈ d'.inventoryMovements.rows, m ∉ d.inventoryMovements.rows →
    ∃ qty left, Takes d items qty left ∧ m.delta = -qty
  written : ∀ qty left, Takes d items qty left →
    ∃ m ∈ d'.inventoryMovements.rows, m ∉ d.inventoryMovements.rows ∧ m.delta = -qty
  length : d'.inventoryMovements.rows.length ≤ d.inventoryMovements.rows.length + items.length

section Sold

variable {d d' d'' : Database} {item : Json} {items : List Json} {b b' : Bool}

theorem Sold.nil (d : Database) : Sold d [] false d where
  lines := by simp
  fits _ _ h := absurd h not_takes_nil
  alert := by simp [not_takes_nil]
  drops := Drops.refl d fun _ _ _ => rfl
  kept _ h := h
  sales _ h hnot := absurd h hnot
  written _ _ h := absurd h not_takes_nil
  length := by simp

/-- An item that takes nothing that is in stock. -/
theorem Sold.skip {line : Option (String × Int)} (hline : lineOf d.products item = .ok line)
    (hnone : ∀ sku qty, line = some (sku, qty) → d.inventory.find sku = none) :
    Sold d [item] false d := by
  have hdrops : Drops d d (itemDemand d.products item) := by
    refine Drops.refl d fun sku row hrow => ?_
    rw [itemDemand, hline]
    match line, hnone with
    | none, _ => rfl
    | some (sku', qty), hnone =>
        refine if_neg fun hsku => ?_
        have hnot := hnone sku' qty rfl
        rw [show sku' = sku from hsku, hrow] at hnot
        cases hnot
  have htakes : ∀ {qty left}, ¬ Takes d [item] qty left := by
    intro qty left h
    rcases (takes_cons hdrops).mp h with ⟨sku, row, hline', hrow, -⟩ | h
    · rw [hline] at hline'
      cases (hnone sku qty (Except.ok.inj hline')).symm.trans hrow
    · exact not_takes_nil h
  exact {
    lines := by simpa using ⟨line, hline⟩
    fits := fun _ _ h => absurd h htakes
    alert := by simp [htakes]
    drops := ⟨rfl, fun sku => by simpa [demand] using hdrops.quantities sku⟩
    kept := fun _ h => h
    sales := fun _ h hnot => absurd h hnot
    written := fun _ _ h => absurd h htakes
    length := by simp }

/-- An item that takes pieces of a sku that is in stock. -/
theorem Sold.sell {orderId sku : String} {qty : Int} {row : Inventory} {id : Uuid}
    (hline : lineOf d.products item = .ok (some (sku, qty)))
    (hrow : d.inventory.find sku = some row)
    (hfresh : d.inventoryMovements.find id = none) (hqty : int4 qty = true)
    (hleft : int4 (row.quantity - qty) = true) :
    Sold d [item] (decide (row.quantity - qty < 0)) (d.sell orderId row qty id) := by
  have hsku : row.sku = sku := (Table.find_some hrow).2
  have hdrops : Drops d (d.sell orderId row qty id) (itemDemand d.products item) := by
    refine ⟨rfl, fun sku' => ?_⟩
    rw [itemDemand, hline]
    dsimp only [Database.sell]
    rw [Table.find_put]
    dsimp only
    by_cases hsame : sku = sku'
    · subst hsame
      simp [hsku, hrow]
    · simp [hsku, hsame]
  have htakes : ∀ {n left}, Takes d [item] n left ↔ n = qty ∧ left = row.quantity - qty :=
    takes_singleton hline hrow
  have hrows := Table.rows_put_of_find_eq_none (t := d.inventoryMovements)
    (r := { id, sku := row.sku, delta := -qty, reason := .SALE, sourceType := some "order"
            sourceId := some orderId, belowZero := row.quantity - qty < 0 }) hfresh
  refine {
    lines := by simpa using ⟨_, hline⟩
    fits := fun _ _ h => ?_
    alert := ?_
    drops := ⟨rfl, fun sku' => by simpa [demand] using hdrops.quantities sku'⟩
    kept := fun m hm => ?_
    sales := fun m hm hnot => ⟨qty, _, htakes.mpr ⟨rfl, rfl⟩, ?_⟩
    written := fun n left h => ?_
    length := ?_ }
  · obtain ⟨rfl, rfl⟩ := htakes.mp h
    exact ⟨hqty, hleft⟩
  · simp [htakes]
  · simp only [Database.sell, hrows]
    exact List.mem_append_left _ hm
  · simp only [Database.sell, hrows, List.mem_append, hnot, false_or, List.mem_singleton] at hm
    rw [hm]
  · obtain ⟨rfl, rfl⟩ := htakes.mp h
    refine ⟨_, Table.mem_put_self _ _, fun hm => Table.find_eq_none.mp hfresh _ hm rfl, rfl⟩
  · simp only [Database.sell, hrows, List.length_append, List.length_singleton, le_refl]

/-- What the items can take, item by item. -/
theorem reservable_cons (h : Sold d [item] b d') :
    Reservable d (item :: items) ↔ Reservable d [item] ∧ Reservable d' items := by
  have hdrops := h.drops.single
  have hproducts : d'.products = d.products := h.drops.products
  simp only [Reservable, takes_cons hdrops, not_takes_nil, or_false, List.forall_mem_cons,
    hproducts, or_imp, forall_and]
  tauto

/-- The items one after the other. -/
theorem Sold.cons (h : Sold d [item] b d') (h' : Sold d' items b' d'') :
    Sold d (item :: items) (b || b') d'' := by
  have hdrops := h.drops.single
  have htakes : ∀ qty left, Takes d (item :: items) qty left ↔
      Takes d [item] qty left ∨ Takes d' items qty left := by
    intro qty left
    rw [takes_cons hdrops, takes_cons hdrops]
    simp only [not_takes_nil, or_false]
  have hproducts : d'.products = d.products := h.drops.products
  refine {
    lines := ?_
    fits := fun qty left hline => ?_
    alert := ?_
    drops := ?_
    kept := fun m hm => h'.kept m (h.kept m hm)
    sales := fun m hm hnot => ?_
    written := fun qty left hline => ?_
    length := ?_ }
  · have hrest := h'.lines
    rw [hproducts] at hrest
    simpa using ⟨h.lines item (List.mem_singleton_self item), hrest⟩
  · exact ((htakes qty left).mp hline).elim (h.fits qty left) (h'.fits qty left)
  · simp only [Bool.or_eq_true, h.alert, h'.alert, htakes, or_and_right, exists_or]
  · have hboth := hdrops.trans h'.drops
    rwa [hproducts] at hboth
  · by_cases hmid : m ∈ d'.inventoryMovements.rows
    · obtain ⟨qty, left, hline, hdelta⟩ := h.sales m hmid hnot
      exact ⟨qty, left, (htakes qty left).mpr (Or.inl hline), hdelta⟩
    · obtain ⟨qty, left, hline, hdelta⟩ := h'.sales m hm hmid
      exact ⟨qty, left, (htakes qty left).mpr (Or.inr hline), hdelta⟩
  · rcases (htakes qty left).mp hline with hfirst | hrest
    · obtain ⟨m, hm, hnot, hdelta⟩ := h.written qty left hfirst
      exact ⟨m, h'.kept m hm, hnot, hdelta⟩
    · obtain ⟨m, hm, hnot, hdelta⟩ := h'.written qty left hrest
      exact ⟨m, hm, fun hold => hnot (h.kept m hold), hdelta⟩
  · have hfirst := h.length
    have hrest := h'.length
    simp only [List.length_cons, List.length_nil] at *
    omega

end Sold

/-! ## The tool -/

/-- The database refuses the rows that do not fit the stock tables, and gives a new
movement an id that is free, as long as there is one. -/
structure StockEngine (E₀ : Engine Database Write) : Prop where
  fits : E₀.fits = stockFits
  fresh : ∀ d : Database, d.inventoryMovements.rows.length < 2 ^ 128 →
    d.inventoryMovements.find (BitVec.ofNat 128 (E₀.supply d)) = none

section Tool

variable {E₀ : Engine Database Write} {s s' : Quiet Database Memory} {orderId : String}

/-- The id of the movement of a sale. -/
def movementId (E₀ : Engine Database Write) (d : Database) (row : Inventory) (qty : Int) : Uuid :=
  BitVec.ofNat 128 (E₀.supply
    { d with inventory := d.inventory.put { row with quantity := row.quantity - qty } })

/-- Taking pieces of a sku: nothing where it is not in stock. -/
theorem returns_reserveSku (hE : StockEngine E₀) (hs : s.failed = false)
    (hroom : s.view.inventoryMovements.rows.length < 2 ^ 128) {sku : String} {qty : Int} {b : Bool} :
    (reserveSku orderId sku qty).Returns E₀ s b s' ↔
      match s.view.inventory.find sku with
      | none => b = false ∧ s' = s
      | some row => int4 qty = true ∧ int4 (row.quantity - qty) = true ∧ int4 (-qty) = true ∧
          b = decide (row.quantity - qty < 0) ∧
          s' = { s with
            view := s.view.sell orderId row qty (movementId E₀ s.view row qty) } := by
  cases hrow : s.view.inventory.find sku with
  | none =>
      have hfind : (inventory.table s.view).find sku = none := hrow
      simp [reserveSku, hs, hfind]
  | some row =>
      have hfind : (inventory.table s.view).find sku = some row := hrow
      have hsku : row.sku = sku := (Table.find_some hrow).2
      have hlt : decide (row.quantity < qty) = decide (row.quantity - qty < 0) := by
        simp only [decide_eq_decide]
        omega
      have hfresh : (inventoryMovements.table (s.wrote [inventory.write
          { row with quantity := row.quantity - qty }]).view).find
          (movementId E₀ s.view row qty) = none := hE.fresh _ hroom
      subst hsku
      simp [reserveSku, hs, hfind, recordMovement, uuid4, hE.fits, and_assoc]
      intro hq
      rw [hlt]
      change (int4 (row.quantity - qty) = true ∧ _ = none ∧ int4 (-qty) = true ∧ _ ∧ _) ↔ _
      constructor
      · rintro ⟨hleft, -, hdelta, rfl, rfl⟩
        exact ⟨hleft, hdelta, rfl, rfl⟩
      · rintro ⟨hleft, hdelta, rfl, rfl⟩
        exact ⟨hleft, hfresh, hdelta, rfl, rfl⟩

theorem returns_resolveSku (hs : s.failed = false) {sku productId v : Json} :
    (resolveSku sku productId).Returns E₀ s v s' ↔
      skuOf s.view.products sku productId = .ok v ∧ s' = s := by
  unfold resolveSku skuOf
  split_ifs with hsku hid
  · simp [eq_comm]
  · cases hread : productId.toUuid with
    | error e => simp [Except.map]
    | ok id =>
        simp only [ofExcept_ok, bind_eq, pure_eq, andThen, returns_andThen, returns_select, hs,
          true_and, returns_ret, Except.map, Except.ok.injEq]
        constructor
        · rintro ⟨_, _, ⟨rfl, rfl⟩, rfl, rfl⟩
          exact ⟨rfl, rfl⟩
        · rintro ⟨rfl, rfl⟩
          exact ⟨_, _, ⟨rfl, rfl⟩, rfl, rfl⟩
  · simp [eq_comm]

/-- One round of the loop takes what the item's line says. -/
theorem returns_reserveItem (hs : s.failed = false) {item : Json} {b : Bool} :
    (reserveItem orderId item).Returns E₀ s b s' ↔
      ∃ line, lineOf s.view.products item = .ok line ∧
        match line with
        | none => b = false ∧ s' = s
        | some (sku, qty) => (reserveSku orderId sku qty).Returns E₀ s b s' := by
  unfold reserveItem lineOf
  cases hfields : itemFields item with
  | error e => simp
  | ok fields =>
      obtain ⟨sku, qty, productId⟩ := fields
      simp only [returns_resolveSku hs, ofExcept_ok, bind_eq, pure_eq, andThen, returns_andThen,
        returns_ite, returns_ret]
      cases hsku : skuOf s.view.products sku productId with
      | error e => simp
      | ok found =>
          by_cases htruthy : found.truthy = true
          · cases found with
            | str name => simp [htruthy]
            | _ => simp [htruthy]
          · simp [htruthy]

/-- What a round of the loop comes to. -/
theorem sold_of_reserveItem (hE : StockEngine E₀) (hs : s.failed = false)
    (hroom : s.view.inventoryMovements.rows.length < 2 ^ 128) {item : Json} {b : Bool}
    (h : (reserveItem orderId item).Returns E₀ s b s') :
    s'.failed = false ∧ Sold s.view [item] b s'.view := by
  obtain ⟨line, hline, hround⟩ := (returns_reserveItem hs).mp h
  match line, hround with
  | none, hround =>
      obtain ⟨rfl, rfl⟩ := hround
      exact ⟨hs, Sold.skip hline (by simp)⟩
  | some (sku, qty), hround =>
      have hsell := (returns_reserveSku hE hs hroom).mp hround
      cases hrow : s.view.inventory.find sku with
      | none =>
          simp only [hrow] at hsell
          obtain ⟨rfl, rfl⟩ := hsell
          refine ⟨hs, Sold.skip hline ?_⟩
          rintro _ _ ⟨⟩
          exact hrow
      | some row =>
          simp only [hrow] at hsell
          obtain ⟨hqty, hleft, -, rfl, rfl⟩ := hsell
          exact ⟨hs, Sold.sell hline hrow (hE.fresh _ hroom) hqty hleft⟩

/-- A round goes through where the item can be looked up and what it takes fits. -/
theorem exists_reserveItem (orderId : String) (hE : StockEngine E₀) (hs : s.failed = false)
    (hroom : s.view.inventoryMovements.rows.length < 2 ^ 128) {item : Json}
    (h : Reservable s.view [item]) :
    ∃ b s', (reserveItem orderId item).Returns E₀ s b s' := by
  obtain ⟨line, hline⟩ := h.1 item (List.mem_singleton_self item)
  match line, hline with
  | none, hline => exact ⟨false, s, (returns_reserveItem hs).mpr ⟨none, hline, rfl, rfl⟩⟩
  | some (sku, qty), hline =>
      simp only [returns_reserveItem hs, returns_reserveSku hE hs hroom]
      cases hrow : s.view.inventory.find sku with
      | none => exact ⟨false, s, some (sku, qty), hline, by simp [hrow]⟩
      | some row =>
          obtain ⟨hpos, hqty, hleft⟩ := h.2 qty _ ((takes_singleton hline hrow).mpr ⟨rfl, rfl⟩)
          have hdelta : int4 (-qty) = true := by
            simp only [int4, decide_eq_true_eq] at hqty ⊢
            omega
          exact ⟨_, _, some (sku, qty), hline, by
            simpa only [hrow] using ⟨hqty, hleft, hdelta, rfl, rfl⟩⟩

/-- What the loop comes to. -/
theorem sold_of_reserveItems (hE : StockEngine E₀) {items : List Json} {acc b : Bool}
    (hs : s.failed = false)
    (hroom : s.view.inventoryMovements.rows.length + items.length ≤ 2 ^ 128)
    (h : (reserveItems orderId items acc).Returns E₀ s b s') :
    ∃ b', b = (acc || b') ∧ Sold s.view items b' s'.view := by
  induction items generalizing s acc with
  | nil =>
      simp only [reserveItems, pure_eq, returns_ret] at h
      obtain ⟨rfl, rfl⟩ := h
      exact ⟨false, by simp, Sold.nil _⟩
  | cons item rest ih =>
      simp only [reserveItems, bind_eq, returns_andThen] at h
      obtain ⟨first, s₁, hfirst, hrest⟩ := h
      rw [List.length_cons] at hroom
      obtain ⟨hs₁, hsold⟩ := sold_of_reserveItem hE hs (by omega) hfirst
      have hlength := hsold.length
      rw [List.length_singleton] at hlength
      obtain ⟨others, rfl, hothers⟩ := ih hs₁ (by omega) hrest
      exact ⟨first || others, by rw [Bool.or_assoc], hsold.cons hothers⟩

/-- The loop goes through where every item can be looked up and what the items take
fits. -/
theorem exists_reserveItems (orderId : String) {items : List Json} (acc : Bool)
    (hE : StockEngine E₀) (hs : s.failed = false)
    (hroom : s.view.inventoryMovements.rows.length + items.length ≤ 2 ^ 128)
    (h : Reservable s.view items) :
    ∃ b s', (reserveItems orderId items acc).Returns E₀ s b s' := by
  induction items generalizing s acc with
  | nil => exact ⟨acc, s, by simp [reserveItems]⟩
  | cons item rest ih =>
      rw [List.length_cons] at hroom
      have hitem : Reservable s.view [item] :=
        ⟨fun x hx => h.1 x (List.mem_cons.mpr (Or.inl (List.mem_singleton.mp hx))),
          fun qty left htakes => h.2 qty left (htakes.append rest)⟩
      obtain ⟨first, s₁, hfirst⟩ := exists_reserveItem orderId hE hs (by omega) hitem
      obtain ⟨hs₁, hsold⟩ := sold_of_reserveItem hE hs (by omega) hfirst
      have hlength := hsold.length
      rw [List.length_singleton] at hlength
      obtain ⟨b, s', hrest⟩ := ih (acc || first) hs₁ (by omega)
        ((reservable_cons hsold).mp h).2
      refine ⟨b, s', ?_⟩
      simp only [reserveItems, bind_eq, returns_andThen]
      exact ⟨first, s₁, hfirst, hrest⟩

/-- What a reservation of an order comes to. -/
theorem sold_of_reserveInventoryItems (hE : StockEngine E₀) (hs : s.failed = false) {id : Uuid}
    (hid : readUuid orderId = some id) {row : Order} (hrow : s.view.orders.find id = some row)
    {items : List Json} (hitems : row.items = .arr items)
    (hroom : s.view.inventoryMovements.rows.length + items.length ≤ 2 ^ 128) {r : Int}
    (h : (reserveInventoryItems orderId).Returns E₀ s r s') :
    ∃ b, r = (if b then 1 else 0) ∧ Sold s.view items b s'.view := by
  simp only [reserveInventoryItems, uuid, hid, ofExcept_ok, bind_eq, pure_eq, andThen,
    returns_andThen, returns_select, hs, true_and] at h
  obtain ⟨_, _, ⟨rfl, rfl⟩, h⟩ := h
  simp only [hrow, hitems, Json.iter, ofExcept_ok, andThen, returns_andThen, returns_ret] at h
  obtain ⟨b, s₁, hloop, rfl, rfl⟩ := h
  obtain ⟨b', hb, hsold⟩ := sold_of_reserveItems hE hs hroom hloop
  rw [Bool.false_or] at hb
  subst hb
  exact ⟨b, rfl, hsold⟩

theorem exists_reserveInventoryItems (hE : StockEngine E₀) (hs : s.failed = false) {id : Uuid}
    (hid : readUuid orderId = some id) {row : Order} (hrow : s.view.orders.find id = some row)
    {items : List Json} (hitems : row.items = .arr items)
    (hroom : s.view.inventoryMovements.rows.length + items.length ≤ 2 ^ 128)
    (h : Reservable s.view items) : ∃ r s', (reserveInventoryItems orderId).Returns E₀ s r s' := by
  obtain ⟨b, s', hloop⟩ :=
    exists_reserveItems orderId false hE hs hroom h
  refine ⟨if b then 1 else 0, s', ?_⟩
  simp only [reserveInventoryItems, uuid, hid, ofExcept_ok, bind_eq, pure_eq, andThen,
    returns_andThen, returns_select, hs, true_and]
  refine ⟨_, _, ⟨rfl, rfl⟩, ?_⟩
  simp only [hrow, hitems, Json.iter, ofExcept_ok, andThen, returns_andThen, returns_ret]
  exact ⟨b, s', hloop, rfl, rfl⟩

end Tool

/-- A reservation of stored items goes through and only ever takes stock away exactly
when every item can be looked up and takes a positive number of pieces that leaves the
stock in its range. -/
theorem reservation_iff {E₀ : Engine Database Write} (hE : StockEngine E₀)
    {s : Quiet Database Memory} (hs : s.failed = false) {orderId : String} {id : Uuid}
    (hid : readUuid orderId = some id) {row : Order} (hrow : s.view.orders.find id = some row)
    {items : List Json} (hitems : row.items = .arr items)
    (hroom : s.view.inventoryMovements.rows.length + items.length ≤ 2 ^ 128) :
    (∃ r s', (reserveInventoryItems orderId).Returns E₀ s r s' ∧
      Reserved s.view items r s'.view) ↔ Reservable s.view items := by
  constructor
  · rintro ⟨r, s', hreturns, hreserved⟩
    obtain ⟨b, -, hsold⟩ := sold_of_reserveInventoryItems hE hs hid hrow hitems hroom hreturns
    refine ⟨hsold.lines, fun qty left htakes => ⟨?_, hsold.fits qty left htakes⟩⟩
    obtain ⟨m, hm, hnew, hdelta⟩ := hsold.written qty left htakes
    have hneg := hreserved.negative m hm hnew
    omega
  · intro h
    obtain ⟨r, s', hreturns⟩ :=
      exists_reserveInventoryItems hE hs hid hrow hitems hroom h
    obtain ⟨b, rfl, hsold⟩ := sold_of_reserveInventoryItems hE hs hid hrow hitems hroom hreturns
    refine ⟨_, s', hreturns, hsold.drops.quantities, fun m hm hnew => ?_, ?_, ?_⟩
    · obtain ⟨qty, left, htakes, hdelta⟩ := hsold.sales m hm hnew
      have hpos := (h.2 qty left htakes).1
      omega
    · cases b
      · exact Or.inl rfl
      · exact Or.inr rfl
    · rw [← hsold.alert]
      cases b
      · simp
      · simp

/-! ## A sample -/

/-- A database that takes the first free id for a movement. -/
def firstFree : Engine Database Write where
  fits := stockFits
  supply d := ((List.range (d.inventoryMovements.rows.length + 1)).find? fun n =>
    (d.inventoryMovements.find (BitVec.ofNat 128 n)).isNone).getD 0

theorem stockEngine_firstFree : StockEngine firstFree where
  fits := rfl
  fresh d hroom :=
    d.inventoryMovements.find_first_free (BitVec.ofNat 128) fun _ hn _ hm =>
      uuid_ofNat_inj (Nat.lt_of_le_of_lt hn hroom) (Nat.lt_of_le_of_lt hm hroom)

/-- A shop with three rolls and an order for `qty` of them. -/
def rollOrder (qty : Json) : Database :=
  { stockWith [⟨"roll", "Roll", 3, .CRITICAL⟩] with
    orders := Table.empty.put
      (sampleOrder 1 .DRAFT "" [.obj [("sku", .str "roll"), ("qty", qty)]]) }

theorem rollOrder_orders (qty : Json) : (rollOrder qty).orders.find 1 =
    some (sampleOrder 1 .DRAFT "" [.obj [("sku", .str "roll"), ("qty", qty)]]) := by
  simp [rollOrder, sampleOrder]

theorem rollOrder_takes {n m left : Int} :
    Takes (rollOrder (.int n)) [.obj [("sku", .str "roll"), ("qty", .int n)]] m left ↔
      m = n ∧ left = 3 - n :=
  takes_singleton rfl (show _ = some (⟨"roll", "Roll", 3, .CRITICAL⟩ : Inventory) from rfl)

/-- Minus two rolls are added to the stock. -/
theorem reservation_adds_stock :
    ¬ ∃ r s', (reserveInventoryItems (Uuid.text 1)).Returns firstFree
        (.start (rollOrder (.int (-2))) {}) r s' ∧
      Reserved (rollOrder (.int (-2))) [.obj [("sku", .str "roll"), ("qty", .int (-2))]] r
        s'.view := by
  rintro ⟨r, s', hreturns, hreserved⟩
  obtain ⟨b, -, hsold⟩ := sold_of_reserveInventoryItems stockEngine_firstFree rfl
    (readUuid_text 1) (rollOrder_orders _) rfl (by decide) hreturns
  obtain ⟨m, hm, hnew, hdelta⟩ := hsold.written (-2) 5 (rollOrder_takes.mpr ⟨rfl, rfl⟩)
  have hneg := hreserved.negative m hm hnew
  omega

/-- Four of three rolls are taken. -/
theorem reservation_iff_rolls :
    ∃ r s', (reserveInventoryItems (Uuid.text 1)).Returns firstFree
        (.start (rollOrder (.int 4)) {}) r s' ∧
      Reserved (rollOrder (.int 4)) [.obj [("sku", .str "roll"), ("qty", .int 4)]] r s'.view := by
  refine (reservation_iff stockEngine_firstFree rfl (readUuid_text 1) (rollOrder_orders _) rfl
    (by decide)).mpr ⟨fun item hitem => ?_, fun qty left htakes => ?_⟩
  · obtain rfl := List.mem_singleton.mp hitem
    exact ⟨_, rfl⟩
  · obtain ⟨rfl, rfl⟩ := rollOrder_takes.mp htakes
    decide

end Sieshka
