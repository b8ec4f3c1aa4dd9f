import Sieshka.Properties.InventoryLedger
import Sieshka.Properties.KitchenTickets

/-!
# Records are kept

Whatever calls overlap and wherever they stop, nothing that was on record is lost: a row is
never deleted, and what it says beside its state stays as it was written.
-/

namespace Sieshka

open Transactions Contract
open Relation (ReflTransGen)

/-! ## Later versions -/

/-- `s'` can be reached from `s` along the kitchen graph. -/
abbrev KitchenPath : KitchenState → KitchenState → Prop :=
  ReflTransGen fun s s' => ∃ e, kitchenTransitions s e = some s'

/-- A ticket of the same order, further along the kitchen graph. -/
structure KitchenTicket.Onward (r r' : KitchenTicket) : Prop where
  same : r'.orderId = r.orderId
  path : KitchenPath r.state r'.state

theorem KitchenTicket.Onward.refl (r : KitchenTicket) : r.Onward r := ⟨rfl, .refl⟩

theorem KitchenTicket.Onward.trans {r r' r'' : KitchenTicket} (h : r.Onward r')
    (h' : r'.Onward r'') : r.Onward r'' :=
  ⟨h'.same.trans h.same, h.path.trans h'.path⟩

theorem KitchenTicket.Moved.onward {r r' : KitchenTicket} (h : r.Moved r') : r.Onward r' := by
  obtain ⟨hsame, hst | hedge⟩ := h
  · refine ⟨hsame, ?_⟩
    rw [hst]
  · exact ⟨hsame, .single hedge⟩

/-- A row of the stock under the same name. -/
def Inventory.Named (r r' : Inventory) : Prop := r'.name = r.name

theorem Inventory.Named.refl (r : Inventory) : r.Named r := rfl

theorem Inventory.Named.trans {r r' r'' : Inventory} (h : r.Named r') (h' : r'.Named r'') :
    r.Named r'' :=
  Eq.trans h' h

/-- What is on record in `d` is on record in `d'`: customers as they are, orders and payments in
all but their state and trace, tickets of their orders, idempotency keys, the rows of the stock
under their names, and the movements of the stock in their order. -/
structure Retains (d d' : Database) : Prop where
  customers : d.customers.Grows Eq d'.customers
  orders : d.orders.Grows Order.Later d'.orders
  payments : d.payments.Grows Payment.Later d'.payments
  tickets : d.kitchenTickets.Grows KitchenTicket.Onward d'.kitchenTickets
  keys : d.idempotencyKeys.Grows (fun _ _ => True) d'.idempotencyKeys
  inventory : d.inventory.Grows Inventory.Named d'.inventory
  movements : d.inventoryMovements.rows <+: d'.inventoryMovements.rows

theorem Retains.refl (d : Database) : Retains d d where
  customers := .refl (fun _ => rfl) _
  orders := .refl Order.Later.refl _
  payments := .refl Payment.Later.refl _
  tickets := .refl KitchenTicket.Onward.refl _
  keys := .refl (fun _ => trivial) _
  inventory := .refl Inventory.Named.refl _
  movements := List.prefix_rfl

theorem Retains.trans {d d' d'' : Database} (h : Retains d d') (h' : Retains d' d'') :
    Retains d d'' where
  customers := h.customers.trans (fun _ _ _ h₁ h₂ => h₁.trans h₂) h'.customers
  orders := h.orders.trans (fun _ _ _ => Order.Later.trans) h'.orders
  payments := h.payments.trans (fun _ _ _ => Payment.Later.trans) h'.payments
  tickets := h.tickets.trans (fun _ _ _ => KitchenTicket.Onward.trans) h'.tickets
  keys := h.keys.trans (fun _ _ _ _ _ => trivial) h'.keys
  inventory := h.inventory.trans (fun _ _ _ => Inventory.Named.trans) h'.inventory
  movements := h.movements.trans h'.movements

/-! ## One commit -/

/-- A row of the stock is written under its name. -/
theorem inventory_put_named {d : Database} {stock row : Inventory}
    (hs : d.inventory.find stock.sku = some stock) (hsku : row.sku = stock.sku)
    (hname : row.name = stock.name) :
    d.inventory.Grows Inventory.Named (d.inventory.put row) := by
  refine .put Inventory.Named.refl fun old hold => ?_
  rw [hsku, hs] at hold
  obtain rfl := Option.some.inj hold
  exact hname

theorem StockStep.inventory_named {d d' : Database} (h : StockStep d d') :
    d.inventory.Grows Inventory.Named d'.inventory := by
  cases h with
  | change stock m hs _ _ _ => exact inventory_put_named hs rfl rfl
  | restate stock st hs => exact inventory_put_named hs rfl rfl
  | create row habs _ => exact .put_absent Inventory.Named.refl habs

theorem StockSteps.inventory_named {d d' : Database} (h : StockSteps d d') :
    d.inventory.Grows Inventory.Named d'.inventory := by
  induction h with
  | refl => exact .refl Inventory.Named.refl _
  | tail _ hs ih => exact ih.trans (fun _ _ _ => Inventory.Named.trans) hs.inventory_named

section Commits

variable {cfg : Settings} {A : Call → CallAt → Prop} {R : Call → State → State → Prop} {c : Call}
variable {past : Past} {s : State} {ws : List Write} {d' : Database}

theorem Commits.inventory_named (h : Commits cfg A R c past s ws d') :
    s.1.inventory.Grows Inventory.Named d'.inventory := by
  have hsame := Table.Grows.refl Inventory.Named.refl s.1.inventory
  cases h with
  | duplicate _ _ _ => exact hsame
  | recorded row _ _ => exact hsame
  | answered body _ id rest _ _ _ => exact hsame
  | customer body _ row _ => exact hsame
  | placed body _ id customerId items totalRub promoCode discountRub _ _ _ => exact hsame
  | moved row row' event st _ _ _ _ _ => exact hsame
  | cooked row row' orderId items lines d₁ ticket _ _ _ _ _ _ _ hsells _ _ _ =>
      exact hsells.steps.inventory_named
  | paymentCreated row order orders' _ _ _ _ _ _ => exact hsame
  | settled kind orderId row order orders' _ _ _ _ _ _ _ => exact hsame
  | ticketMoved row event st _ _ _ => exact hsame
  | stock _ h _ => exact h.inventory_named

theorem Commits.customers_kept (h : Commits cfg A R c past s ws d') :
    s.1.customers.Grows Eq d'.customers := by
  have hsame : s.1.customers.Grows Eq s.1.customers := .refl (fun _ => rfl) _
  cases h with
  | duplicate _ _ _ => exact hsame
  | recorded row _ _ => exact hsame
  | answered body _ id rest _ _ _ => exact hsame
  | customer body _ row habs => exact .put_absent (fun _ => rfl) habs
  | placed body _ id customerId items totalRub promoCode discountRub _ _ _ => exact hsame
  | moved row row' event st _ _ _ _ _ => exact hsame
  | cooked row row' orderId items lines d₁ ticket _ _ _ _ _ _ _ hsells _ _ _ =>
      have hcustomers : d₁.customers = s.1.customers := by rw [hsells.steps.same]
      rw [hcustomers]
      exact hsame
  | paymentCreated row order orders' _ _ _ _ _ _ => exact hsame
  | settled kind orderId row order orders' _ _ _ _ _ _ _ => exact hsame
  | ticketMoved row event st _ _ _ => exact hsame
  | stock _ h _ =>
      have hcustomers : d'.customers = s.1.customers := by rw [h.same]
      rw [hcustomers]
      exact hsame

/-- Every commit retains what is on record. -/
theorem Commits.retains (h : Commits cfg A R c past s ws d') : Retains s.1 d' where
  customers := h.customers_kept
  orders := h.evolves.orders
  payments := h.evolves.payments
  tickets := by
    intro id row hfind
    obtain ⟨row', hfind', hmoved⟩ := h.tickets_moved id row hfind
    exact ⟨row', hfind', hmoved.onward⟩
  keys := h.evolves.keys
  inventory := h.inventory_named
  movements := by
    obtain ⟨ms, hms⟩ := h.audited
    exact ⟨ms, hms.movements.symm⟩

end Commits

section Runs

variable {cfg : Settings} {d : Database} {m : Memory} {c c' : ShopConfig}

/-- Under any interleaving of any calls, failures and restarts, from any database: what is on
record at one moment is on record at every later one. -/
theorem records_kept (h : Reaches cfg (Config.start d m) c) (h' : Reaches cfg c c') :
    Retains c.db c'.db := by
  induction h' with
  | refl => exact .refl _
  | step hr _ hs ih =>
      have hreach := h.trans _ hr
      cases Reaches.changed hreach hs with
      | kept hdb _ => exact hdb ▸ ih
      | committed _ _ _ _ hcommit _ _ => exact ih.trans hcommit.retains

end Runs

/-- A paid order is sent to the kitchen; the process restarts on the way, and it is sent again. -/
theorem records_kept_cooking :
    ∃ c c', Reaches sampleSettings
        (Config.start (databaseWith [sampleOrder 1 .PAID "cash" []] []) {}) c ∧
      Reaches sampleSettings c c' ∧ orderStates c = [(1, .PAID)] ∧
      orderStates c' = [(1, .COOKING)] ∧ Retains c.db c'.db := by
  obtain ⟨c', hr, hc⟩ := System.Runs.exists_of_exec (shop sampleSettings) (fun _ _ => True)
    (Config.start (databaseWith [sampleOrder 1 .PAID "cash" []] []) {})
    (.call (.triggerEvent 1 .START_COOKING) :: .run 0 0 :: .restart ::
      .call (.triggerEvent 1 .START_COOKING) :: runs 1 11)
    (f := orderStates) (b := [(1, .COOKING)]) (fun _ _ _ => trivial) (by decide +kernel)
  exact ⟨_, c', .refl, hr, rfl, hc, records_kept .refl hr⟩

end Sieshka
