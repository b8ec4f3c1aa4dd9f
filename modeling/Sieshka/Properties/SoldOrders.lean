import Sieshka.Properties.KitchenOrders
import Sieshka.Transactions.Totals

/-!
# What the orders took from the stock

In runs that leave the stock list alone, the stock is accounted for by the orders: it is what
it was at the start less the lines of every order that has been sent to the kitchen since, and
the movements written are the sales of those lines, order by order.
-/

namespace Sieshka

open Transactions Contract
open Relation (ReflTransGen)

/-- The lines of an order that take stock of the database. -/
def soldFor (d : Database) (order : Order) : List (String × Int) :=
  match order.items.iter with
  | .ok items => soldLines d items
  | .error _ => []

/-- The order has been cooked in the second database and had not been in the first. -/
def SentSince (d d' : Database) (o : Uuid) : Prop := Cooked o d' ∧ ¬ Cooked o d

/-- The order had been cooked at the start. -/
def cookedAt (d : Database) (o : Uuid) : Bool :=
  match d.orders.find o with
  | some row => row.state.cooked
  | none => false

theorem cookedAt_iff {d : Database} {o : Uuid} : cookedAt d o = true ↔ Cooked o d := by
  rw [cookedAt, Cooked]
  cases d.orders.find o <;> simp

/-- The pieces of a sku that an order has taken since the start. -/
def takenSince (d : Database) (sku : String) (order : Order) : Int :=
  if order.state.cooked && !cookedAt d order.id then taken (soldFor d order) sku else 0

/-- The movements that name the order. -/
def movementsOf (o : Uuid) (ms : List InventoryMovement) : List InventoryMovement :=
  ms.filter fun m => m.sourceId.bind readUuid = some o

/-! ## What one commit does to the accounts -/

/-- The lines taken depend only on the products and on which skus have a row. -/
theorem soldFor_congr {d d' : Database} (hproducts : d'.products = d.products)
    (hrows : ∀ sku, (d'.inventory.find sku).isSome = (d.inventory.find sku).isSome)
    (order : Order) : soldFor d' order = soldFor d order := by
  unfold soldFor soldLines
  simp only [hproducts, hrows]

theorem takenSince_of_raw {d : Database} {sku : String} {row : Order}
    (h : row.state.cooked = false) : takenSince d sku row = 0 := by
  simp [takenSince, h]

theorem Order.SameFood.takenSince {d : Database} {sku : String} {row row' : Order}
    (h : row.SameFood row') : takenSince d sku row' = takenSince d sku row := by
  have hsold : soldFor d row' = soldFor d row := by
    rw [soldFor, h.items, soldFor]
  rw [Sieshka.takenSince, h.cooked, h.id, hsold, Sieshka.takenSince]

theorem SameFood.total {d₀ : Database} {t t' : Table Order.id} {sku : String}
    (h : SameFood t t') : t'.total (takenSince d₀ sku) = t.total (takenSince d₀ sku) := by
  cases h with
  | same => rfl
  | moved row row' hfind hfood =>
      exact Table.total_put_of_eq (hfood.id ▸ hfind) hfood.takenSince
  | placed row habs hraw =>
      rw [Table.total_put_absent habs, takenSince_of_raw hraw, add_zero]

/-- The sales of an order name it. -/
theorem source_of_sale {orderId : String} {o : Uuid} {lines : List (String × Int)}
    {ms : List InventoryMovement} (hid : readUuid orderId = some o)
    (h : List.Forall₂ (SaleOf orderId) lines ms) :
    ∀ m ∈ ms, m.sourceId.bind readUuid = some o := by
  induction h with
  | nil => simp
  | cons hsale _ ih =>
      intro m hm
      rcases List.mem_cons.mp hm with rfl | hm
      · rw [hsale.2.2.2.2, Option.bind_some, hid]
      · exact ih m hm

/-- The movements of one order are found under its id, and under no other. -/
theorem movementsOf_sales {orderId : String} {o : Uuid} {lines : List (String × Int)}
    {ms : List InventoryMovement} (hid : readUuid orderId = some o)
    (h : List.Forall₂ (SaleOf orderId) lines ms) (o' : Uuid) :
    movementsOf o' ms = if o = o' then ms else [] := by
  have hsource := source_of_sale hid h
  rw [movementsOf]
  split_ifs with ho
  · rw [List.filter_eq_self]
    intro m hm
    simp [hsource m hm, ho]
  · rw [List.filter_eq_nil_iff]
    intro m hm
    simp [hsource m hm, ho]

/-! ## Every run -/

/-- The stock of the second database is accounted for by the orders sent to the kitchen since
the first, with `ms` as the movements written. -/
structure Accounted (d d' : Database) (ms : List InventoryMovement) : Prop where
  products : d'.products = d.products
  rows : ∀ sku, (d'.inventory.find sku).isSome = (d.inventory.find sku).isSome
  cooked : ∀ o, Cooked o d → Cooked o d'
  quantity : ∀ sku, d'.quantity sku = d.quantity sku - d'.orders.total (takenSince d sku)
  movements : d'.inventoryMovements.rows = d.inventoryMovements.rows ++ ms
  named : ∀ m ∈ ms, ∃ o, m.sourceId.bind readUuid = some o
  sent : ∀ o, SentSince d d' o → ∃ row orderId, d'.orders.find o = some row ∧
    readUuid orderId = some o ∧ List.Forall₂ (SaleOf orderId) (soldFor d row) (movementsOf o ms)
  unsent : ∀ o, ¬ SentSince d d' o → movementsOf o ms = []

theorem Accounted.start (d : Database) : Accounted d d [] where
  products := rfl
  rows _ := rfl
  cooked _ h := h
  quantity sku := by
    rw [Table.total_eq_zero, sub_zero]
    intro row hrow
    have hfind := Table.find_of_mem hrow
    simp [takenSince, cookedAt, hfind]
  movements := by rw [List.append_nil]
  named := by simp
  sent _ h := absurd h.1 h.2
  unsent _ _ := rfl

theorem movementsOf_append (o : Uuid) (ms ms' : List InventoryMovement) :
    movementsOf o (ms ++ ms') = movementsOf o ms ++ movementsOf o ms' :=
  List.filter_append ms ms'

/-- An order is sent to the kitchen: its lines are taken, and its sales written. -/
theorem Accounted.cook {d s s' : Database} {ms : List InventoryMovement} {o : Uuid}
    (h : Accounted d s ms) (hs : CookingStep o s s') (hproducts : s'.products = s.products)
    (hrows : ∀ sku, (s'.inventory.find sku).isSome = (s.inventory.find sku).isSome) :
    ∃ ms', Accounted d s' ms' := by
  obtain ⟨row, row', hfind, hst, hput, hrow⟩ := hs.order
  obtain ⟨row₂, items, orderId, sales, hfind₂, hitems, hid, hquantity, hmovements, hsales⟩ :=
    hs.stock
  obtain rfl : row = row₂ := Option.some.inj (hfind.symm.trans hfind₂)
  have hrowid : row'.id = o := by
    rw [hrow]
    exact (Table.find_some hfind).2
  subst hrowid
  have hnot := hs.not_cooked
  have hfresh : ¬ Cooked row'.id d := fun hc => hnot (h.cooked _ hc)
  have hraw : row.state.cooked = false := by
    rcases hst with hst | hst <;> rw [hst] <;> rfl
  -- what the order takes is read off the tables of the start
  have hlines : soldFor d row' = soldLines s items := by
    rw [← soldFor_congr h.products h.rows]
    have hsame : row'.items = row.items := by rw [hrow]
    rw [soldFor, hsame, hitems]
  have htaken : ∀ sku, takenSince d sku row' = taken (soldLines s items) sku := by
    intro sku
    have hcooked : row'.state.cooked = true := by
      rw [hrow]
      rfl
    have hat : cookedAt d row'.id = false := by
      rw [← Bool.not_eq_true, cookedAt_iff]
      exact hfresh
    simp [takenSince, hcooked, hat, hlines]
  refine ⟨ms ++ sales, ⟨hproducts.trans h.products, ?_, ?_, ?_, ?_, ?_, ?_, ?_⟩⟩
  · intro sku
    rw [hrows, h.rows]
  · intro o ho
    by_cases he : row'.id = o
    · exact he ▸ hs.cooked
    · exact (cooked_put_of_ne hput he).mpr (h.cooked o ho)
  · intro sku
    rw [hquantity, h.quantity, hput, Table.total_put hfind, takenSince_of_raw hraw, htaken]
    omega
  · rw [hmovements, h.movements, List.append_assoc]
  · intro m hm
    rcases List.mem_append.mp hm with hm | hm
    · exact h.named m hm
    · exact ⟨_, source_of_sale hid hsales m hm⟩
  · intro o ho
    by_cases he : row'.id = o
    · subst he
      refine ⟨row', orderId, ?_, hid, ?_⟩
      · rw [hput]
        exact Table.find_put_self _ _
      · rw [movementsOf_append, h.unsent _ fun hsent => hnot hsent.1, List.nil_append,
          movementsOf_sales hid hsales, if_pos rfl, hlines]
        exact hsales
    · have ho' : SentSince d s o := ⟨(cooked_put_of_ne hput he).mp ho.1, ho.2⟩
      obtain ⟨r, oid, hr, hoid, hall⟩ := h.sent o ho'
      refine ⟨r, oid, ?_, hoid, ?_⟩
      · rw [hput, Table.find_put_of_ne _ he]
        exact hr
      · rw [movementsOf_append, movementsOf_sales hid hsales, if_neg he, List.append_nil]
        exact hall
  · intro o ho
    have he : row'.id ≠ o := by
      rintro rfl
      exact ho ⟨hs.cooked, hfresh⟩
    have ho' : ¬ SentSince d s o := by
      intro hsent
      exact ho ⟨(cooked_put_of_ne hput he).mpr hsent.1, hsent.2⟩
    rw [movementsOf_append, h.unsent o ho', movementsOf_sales hid hsales, if_neg he,
      List.append_nil]

theorem Order.SameFood.refl (r : Order) : r.SameFood r := ⟨rfl, rfl, rfl⟩

theorem SameFood.grows {t t' : Table Order.id} (h : SameFood t t') :
    t.Grows Order.SameFood t' := by
  cases h with
  | same => exact .refl Order.SameFood.refl _
  | moved row row' hfind hfood =>
      refine .put Order.SameFood.refl fun old hold => ?_
      rw [hfood.id, hfind] at hold
      exact Option.some.inj hold ▸ hfood
  | placed row habs _ => exact .put_absent Order.SameFood.refl habs

/-- No order is sent to the kitchen, and the stock stays what it is. -/
theorem Accounted.keep {d s s' : Database} {ms : List InventoryMovement} (h : Accounted d s ms)
    (hfood : SameFood s.orders s'.orders) (hproducts : s'.products = s.products)
    (hrows : ∀ sku, (s'.inventory.find sku).isSome = (s.inventory.find sku).isSome)
    (hquantity : ∀ sku, s'.quantity sku = s.quantity sku)
    (hmovements : s'.inventoryMovements.rows = s.inventoryMovements.rows) :
    Accounted d s' ms where
  products := hproducts.trans h.products
  rows sku := (hrows sku).trans (h.rows sku)
  cooked o ho := (hfood.cooked o).mpr (h.cooked o ho)
  quantity sku := by rw [hquantity, h.quantity, hfood.total]
  movements := hmovements.trans h.movements
  named := h.named
  sent o ho := by
    obtain ⟨row, orderId, hfind, hid, hall⟩ := h.sent o ⟨(hfood.cooked o).mp ho.1, ho.2⟩
    obtain ⟨row', hfind', hsame⟩ := hfood.grows o row hfind
    have hlines : soldFor d row' = soldFor d row := by
      rw [soldFor, hsame.items, soldFor]
    exact ⟨row', orderId, hfind', hid, hlines ▸ hall⟩
  unsent o ho := h.unsent o fun hsent => ho ⟨(hfood.cooked o).mpr hsent.1, hsent.2⟩

section Commits

variable {cfg : Settings} {A : Call → CallAt → Prop} {R : Call → State → State → Prop} {c : Call}
variable {past : Past} {s : State} {ws : List Write} {d' : Database}

/-- A call that manages no stock sells lines, and none where it cooks no order. -/
theorem Commits.sells (hc : c.isStock = false) (h : Commits cfg A R c past s ws d') :
    ∃ orderId lines d₁, Sells orderId lines s.1 d₁ ∧ d'.inventory = d₁.inventory ∧
      d'.inventoryMovements = d₁.inventoryMovements ∧
      ((∀ o, ¬ StartsCooking o s.1 d') → lines = []) := by
  have hnone : d'.inventory = s.1.inventory → d'.inventoryMovements = s.1.inventoryMovements →
      ∃ orderId lines d₁, Sells orderId lines s.1 d₁ ∧ d'.inventory = d₁.inventory ∧
        d'.inventoryMovements = d₁.inventoryMovements ∧
        ((∀ o, ¬ StartsCooking o s.1 d') → lines = []) :=
    fun hi hm => ⟨"", [], s.1, .nil _, hi, hm, fun _ => rfl⟩
  cases h with
  | duplicate _ _ _ => exact hnone rfl rfl
  | recorded row _ _ => exact hnone rfl rfl
  | answered body _ id rest _ _ _ => exact hnone rfl rfl
  | customer body _ row _ => exact hnone rfl rfl
  | placed body _ id customerId items totalRub promoCode discountRub _ _ _ => exact hnone rfl rfl
  | moved row row' event st _ _ _ _ _ => exact hnone rfl rfl
  | cooked row row' orderId items lines d₁ ticket hfind _ _ htr hrow _ _ hsells _ _ _ =>
      refine ⟨orderId, lines, d₁, hsells, rfl, rfl, fun hno => absurd ⟨?_, ?_⟩ (hno row.id)⟩
      · rw [hfind]
        intro hst
        rw [Option.some.inj hst] at htr
        cases htr
      · have hid : row'.id = row.id := by rw [hrow]
        rw [← hid, Table.find_put_self, hrow]
        rfl
  | paymentCreated row order orders' _ _ _ _ _ _ => exact hnone rfl rfl
  | settled kind orderId row order orders' _ _ _ _ _ _ _ => exact hnone rfl rfl
  | ticketMoved row event st _ _ _ => exact hnone rfl rfl
  | stock hstock _ _ =>
      rw [hc] at hstock
      cases hstock

theorem Commits.accounted {d : Database} {ms : List InventoryMovement} (hc : c.isStock = false)
    (hkeys : ∀ z, Was A R c z s → ∀ sku, z.db.inventory.find sku = none →
      s.1.inventory.find sku = none)
    (h : Commits cfg A R c past s ws d') (ha : Accounted d s.1 ms) :
    ∃ ms', Accounted d d' ms' := by
  have hproducts : d'.products = s.1.products := h.evolves.products
  obtain ⟨orderId, lines, d₁, hsells, hinventory, hmovements, hnone⟩ := h.sells hc
  have hrows : ∀ sku, (d'.inventory.find sku).isSome = (s.1.inventory.find sku).isSome := by
    intro sku
    rw [hinventory, hsells.isSome]
  rcases h.kitchenStep with ⟨row, row', ticket, hfind, hraw, hrow, hput, -, -, -⟩ | ⟨hfood, -⟩
  · have hid : row'.id = row.id := by rw [hrow]
    have hstarts : StartsCooking row.id s.1 d' := by
      constructor
      · rw [hfind]
        intro hst
        rw [Option.some.inj hst] at hraw
        cases hraw
      · rw [← hid, hput, Table.find_put_self, hrow]
        rfl
    exact ha.cook (h.cooks hkeys hstarts) hproducts hrows
  · obtain rfl : lines = [] := by
      apply hnone
      intro o ho
      have hcook := h.cooks hkeys ho
      exact hcook.not_cooked ((hfood.cooked o).mp hcook.cooked)
    obtain ⟨sales, hsales, hall⟩ := hsells.movements
    cases hall
    refine ⟨ms, ha.keep hfood hproducts hrows (fun sku => ?_) ?_⟩
    · rw [Database.quantity, hinventory, ← Database.quantity, hsells.quantity]
      simp [taken]
    · rw [hmovements, hsales, List.append_nil]

end Commits

section Runs

variable {cfg : Settings} {d : Database} {m : Memory} {c : ShopConfig}

theorem ReachesWithoutStock.accounted (h : ReachesWithoutStock cfg (Config.start d m) c) :
    ∃ ms, Accounted d c.db ms := by
  refine Ok.runs_induction (P := fun c => ∃ ms, Accounted d c.db ms) (valid_noStockCalls cfg)
    (Ok.start trivial) (fun c a _ => allows_noStockCalls c a) ⟨[], .start d⟩ ?_ h
  intro c a c' hok _ _ _ hcaused ih
  obtain ⟨ms, hms⟩ := ih
  cases Changed.of_caused (K := noStockCalls cfg) (fun _ _ _ _ h => h) hcaused with
  | kept hd _ => exact ⟨ms, hd ▸ hms⟩
  | committed t txn ht _ hcommit _ _ =>
      refine hcommit.accounted (hok.calls t ht) (fun z hz => ?_) hms
      -- since the call looked a row up, no other call has added one
      refine hz.2.recOn (fun _ hn => hn) fun _ hstep ih sku hn => hstep.2 sku (ih sku hn)

/-- In every run of calls that manage no stock, from any database: the quantity of every sku is
what it was at the start less the pieces of it in the lines of all orders sent to the kitchen
since; the movements written are appended, and each names such an order; the movements of an
order sent since are the sales of its lines that have an inventory row, line by line, and an
order that is not cooked, or was so at the start, has written none. -/
theorem stock_is_start_less_orders (h : ReachesWithoutStock cfg (Config.start d m) c) :
    (∀ sku, c.db.quantity sku = d.quantity sku - c.db.orders.total (takenSince d sku)) ∧
      ∃ ms, c.db.inventoryMovements.rows = d.inventoryMovements.rows ++ ms ∧
        (∀ movement ∈ ms, ∃ o, SentSince d c.db o ∧ movement.sourceId.bind readUuid = some o) ∧
        ∀ o, (SentSince d c.db o → ∃ row orderId, c.db.orders.find o = some row ∧
            readUuid orderId = some o ∧
            List.Forall₂ (SaleOf orderId) (soldFor d row) (movementsOf o ms)) ∧
          (¬ SentSince d c.db o → movementsOf o ms = []) := by
  obtain ⟨ms, hms⟩ := h.accounted
  refine ⟨hms.quantity, ms, hms.movements, ?_, fun o => ⟨hms.sent o, hms.unsent o⟩⟩
  intro movement hmem
  obtain ⟨o, ho⟩ := hms.named movement hmem
  refine ⟨o, ?_, ho⟩
  by_contra hno
  have hin : movement ∈ movementsOf o ms := by
    apply List.mem_filter.mpr
    simp [hmem, ho]
  rw [hms.unsent o hno] at hin
  cases hin

end Runs

/-- An order of two pizzas is cooked: five less two are left. -/
theorem stock_is_start_less_orders_pizza :
    ∃ c, ReachesWithoutStock sampleSettings (Config.start { databaseWith
          [sampleOrder 1 .PAID "cash" [.obj [("sku", .str "pizza"), ("qty", .int 2)]]] [] with
          inventory := (stockWith [⟨"pizza", "Pizza", 5, .LOW_STOCK⟩]).inventory } {}) c ∧
      orderStates c = [(1, .COOKING)] ∧
      ∀ sku, c.db.quantity sku = (stockWith [⟨"pizza", "Pizza", 5, .LOW_STOCK⟩]).quantity sku -
        c.db.orders.total (takenSince { databaseWith
          [sampleOrder 1 .PAID "cash" [.obj [("sku", .str "pizza"), ("qty", .int 2)]]] [] with
          inventory := (stockWith [⟨"pizza", "Pizza", 5, .LOW_STOCK⟩]).inventory } sku) := by
  obtain ⟨c, hr, hc⟩ := exists_run_of_exec sampleSettings (fun k => k.isStock = false)
    (Config.start { databaseWith
      [sampleOrder 1 .PAID "cash" [.obj [("sku", .str "pizza"), ("qty", .int 2)]]] [] with
      inventory := (stockWith [⟨"pizza", "Pizza", 5, .LOW_STOCK⟩]).inventory } {})
    (.call (.transitionOrder (Uuid.text 1) .START_COOKING) :: runs 0 15)
    (f := orderStates) (b := [(1, .COOKING)]) (by decide) (by decide +kernel)
  exact ⟨c, hr, hc, (stock_is_start_less_orders hr).1⟩

end Sieshka
