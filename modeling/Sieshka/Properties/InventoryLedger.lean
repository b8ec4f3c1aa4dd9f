import Sieshka.Samples
import Sieshka.Specs.Shop
import Sieshka.Transactions.Ledger

/-!
# The inventory ledger

Every change of a quantity is paired with one movement of the same amount, and
a sale is marked `below_zero` exactly when it left less than nothing.
-/

namespace Sieshka

open Transactions Contract

/-- The stock of a sku, 0 when it has no row. -/
def Database.quantity (d : Database) (sku : String) : Int :=
  ((d.inventory.find sku).map Inventory.quantity).getD 0

/-- `inventory_movements` read as a ledger of the skus. -/
def movementBook : Book InventoryMovement String Int where
  account := InventoryMovement.sku
  amount := InventoryMovement.delta

/-- A sale that produced the quantity `q` is flagged as it should be. -/
def SaleFlag (m : InventoryMovement) (q : Int) : Prop :=
  m.reason = .SALE → (m.belowZero = true ↔ q < 0)

/-- The movements `ms` account for all that happened to the stock. -/
structure Audited (d d' : Database) (ms : List InventoryMovement) : Prop where
  movements : d'.inventoryMovements.rows = d.inventoryMovements.rows ++ ms
  quantities : movementBook.Explains ms d.quantity d'.quantity
  flags : movementBook.Marked SaleFlag ms d.quantity

/-- A change that leaves stock and movements alone. -/
theorem Audited.of_same {d d' : Database} (hi : d'.inventory = d.inventory)
    (hm : d'.inventoryMovements = d.inventoryMovements) : Audited d d' [] where
  movements := by rw [hm, List.append_nil]
  quantities := by
    have hq : d'.quantity = d.quantity := by
      funext sku
      rw [Database.quantity, hi]
      rfl
    exact hq ▸ .nil movementBook d.quantity
  flags := .nil _

theorem Audited.trans {d d' d'' : Database} {ms ms' : List InventoryMovement}
    (h : Audited d d' ms) (h' : Audited d' d'' ms') : Audited d d'' (ms ++ ms') where
  movements := by rw [h'.movements, h.movements, List.append_assoc]
  quantities := h.quantities.append h'.quantities
  flags := h.flags.append h.quantities h'.flags

theorem quantity_put {d d' : Database} {row : Inventory}
    (hd : d'.inventory = d.inventory.put row) (sku : String) :
    d'.quantity sku = if row.sku = sku then row.quantity else d.quantity sku := by
  rw [Database.quantity, hd, Table.find_put]
  by_cases h : row.sku = sku
  · rw [if_pos h, if_pos h]
    rfl
  · rw [if_neg h, if_neg h]
    rfl

/-- A row written with the quantity it had. -/
theorem quantity_put_same {d t : Database} {row : Inventory}
    (hd : t.inventory = d.inventory.put row) (hq : d.quantity row.sku = row.quantity) :
    t.quantity = d.quantity := by
  funext sku
  rw [quantity_put hd]
  split_ifs with h
  · rw [← h, hq]
  · rfl

theorem StockStep.audited {d d' : Database} (h : StockStep d d') : ∃ ms, Audited d d' ms := by
  cases h with
  | change stock m hs hm hsku hsale =>
      have hq : d.quantity stock.sku = stock.quantity := by
        rw [Database.quantity, hs]
        rfl
      refine ⟨[m], Table.rows_put_of_find_eq_none hm, fun sku => ?_, .singleton fun hr => ?_⟩
      · rw [quantity_put rfl, Book.total_singleton]
        by_cases h : stock.sku = sku
        · have he : movementBook.account m = sku := hsku.trans h
          rw [if_pos h, if_pos he, ← h, hq]
          rfl
        · have hne : movementBook.account m ≠ sku := fun he => h (hsku.symm.trans he)
          rw [if_neg h, if_neg hne, add_zero]
      · have hacc : movementBook.account m = stock.sku := hsku
        rw [hacc, hq]
        exact hsale hr
  | restate stock st hs =>
      refine ⟨[], by simp, ?_, .nil _⟩
      have hq := quantity_put_same (d := d)
        (t := { d with inventory := d.inventory.put { stock with state := st } }) rfl
        (by rw [Database.quantity, hs]; rfl)
      rw [hq]
      exact .nil movementBook d.quantity
  | create row habs h0 =>
      refine ⟨[], by simp, ?_, .nil _⟩
      have hq := quantity_put_same (d := d) (t := { d with inventory := d.inventory.put row }) rfl
        (by rw [Database.quantity, habs, h0]; rfl)
      rw [hq]
      exact .nil movementBook d.quantity

theorem StockSteps.audited {d d' : Database} (h : StockSteps d d') : ∃ ms, Audited d d' ms := by
  induction h with
  | refl => exact ⟨[], .of_same rfl rfl⟩
  | tail _ hs ih =>
      obtain ⟨ms, h₁⟩ := ih
      obtain ⟨ms', h₂⟩ := hs.audited
      exact ⟨ms ++ ms', h₁.trans h₂⟩

section Commits

variable {cfg : Settings} {A : Call → CallAt → Prop} {R : Call → State → State → Prop} {c : Call}
variable {past : Past} {s : State} {ws : List Write} {d' : Database}

/-- Every commit books what it does to the stock. -/
theorem Commits.audited (h : Commits cfg A R c past s ws d') : ∃ ms, Audited s.1 d' ms := by
  cases h with
  | duplicate _ _ _ => exact ⟨[], .of_same rfl rfl⟩
  | recorded row _ _ => exact ⟨[], .of_same rfl rfl⟩
  | answered body _ id rest _ _ _ => exact ⟨[], .of_same rfl rfl⟩
  | customer body _ row _ => exact ⟨[], .of_same rfl rfl⟩
  | placed body _ id customerId items totalRub promoCode discountRub _ _ _ =>
      exact ⟨[], .of_same rfl rfl⟩
  | moved row row' event st _ _ _ _ _ => exact ⟨[], .of_same rfl rfl⟩
  | cooked row row' orderId items lines d₁ ticket _ _ _ _ _ _ _ hsells _ _ _ =>
      obtain ⟨ms, hms⟩ := hsells.steps.audited
      exact ⟨ms ++ [], hms.trans (.of_same rfl rfl)⟩
  | paymentCreated row order orders' _ _ _ _ _ _ => exact ⟨[], .of_same rfl rfl⟩
  | settled kind orderId row order orders' _ _ _ _ _ _ _ => exact ⟨[], .of_same rfl rfl⟩
  | ticketMoved row event st _ _ _ => exact ⟨[], .of_same rfl rfl⟩
  | stock _ h _ => exact h.audited

end Commits

section Runs

variable {cfg : Settings} {d : Database} {m : Memory} {c : ShopConfig}

theorem Reaches.audited (h : Reaches cfg (Config.start d m) c) : ∃ ms, Audited d c.db ms := by
  induction h with
  | refl => exact ⟨[], .of_same rfl rfl⟩
  | step hr _ hs ih =>
      obtain ⟨ms, h₁⟩ := ih
      cases Reaches.changed hr hs with
      | kept hd _ => exact ⟨ms, hd ▸ h₁⟩
      | committed t txn _ _ h _ _ =>
          obtain ⟨ms', h₂⟩ := h.audited
          exact ⟨ms ++ ms', h₁.trans h₂⟩

/-- From any inventory and under any interleaving of any calls: the movements
written since are appended to `inventory_movements`, the quantity of every sku
has changed by the sum of its deltas among them, and a sale is marked
`below_zero` exactly when the quantity it produced is negative. -/
theorem inventory_ledger_conserved (h : Reaches cfg (Config.start d m) c) :
    ∃ ms, c.db.inventoryMovements.rows = d.inventoryMovements.rows ++ ms ∧
      (∀ sku, c.db.quantity sku - d.quantity sku =
        ((ms.filter fun e => e.sku = sku).map InventoryMovement.delta).sum) ∧
      ∀ pre e post, ms = pre ++ e :: post → e.reason = .SALE →
        (e.belowZero = true ↔ d.quantity e.sku +
          (((pre ++ [e]).filter fun e' => e'.sku = e.sku).map InventoryMovement.delta).sum < 0) := by
  obtain ⟨ms, hms⟩ := h.audited
  refine ⟨ms, hms.movements, fun sku => ?_, fun pre e post he hr => ?_⟩
  · have hsum : c.db.quantity sku = d.quantity sku + movementBook.total ms sku :=
      hms.quantities sku
    rw [hsum, add_sub_cancel_left]
    rfl
  · exact hms.flags pre e post he hr

end Runs

/-- Three pieces taken and four delivered. -/
theorem inventory_ledger_conserved_session :
    ∃ c, Reaches sampleSettings (Config.start (stockWith [⟨"pizza", "Pizza", 5, .LOW_STOCK⟩]) {}) c ∧
      c.db.quantity "pizza" = 6 ∧
      ∃ ms, c.db.inventoryMovements.rows = ms ∧
        ∀ sku, c.db.quantity sku - (stockWith [⟨"pizza", "Pizza", 5, .LOW_STOCK⟩]).quantity sku =
          ((ms.filter fun e => e.sku = sku).map InventoryMovement.delta).sum := by
  obtain ⟨c, hr, hc⟩ := System.Runs.exists_of_exec (shop sampleSettings) (fun _ _ => True)
    (Config.start (stockWith [⟨"pizza", "Pizza", 5, .LOW_STOCK⟩]) {})
    (.call (.stockSession [.decrement "pizza" 3, .increment "pizza" 4 none none none] true) ::
      (runs 0 2 ++ [.run 0 1] ++ runs 0 3 ++ [.run 0 2] ++ runs 0 3))
    (f := fun c => c.db.quantity "pizza") (b := 6) (fun _ _ _ => trivial) (by decide +kernel)
  obtain ⟨ms, h₁, h₂, -⟩ := inventory_ledger_conserved hr
  exact ⟨c, hr, hc, ms, h₁, h₂⟩

end Sieshka
