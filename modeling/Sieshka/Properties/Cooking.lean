import Sieshka.Properties.OrderGraph
import Sieshka.Properties.InventoryLedger

/-!
# Orders go to the kitchen once

A committed `START_COOKING` moves its order, inserts its ticket and takes its
stock, all at once, and no order is sent to the kitchen twice.
-/

namespace Sieshka

open Transactions Contract
open Relation (ReflTransGen)

/-! ## The sales of an order -/

/-- The lines of an order that take stock: their sku has an inventory row. -/
def soldLines (d : Database) (items : List Json) : List (String × Int) :=
  items.filterMap fun item =>
    match lineOf d.products item with
    | .ok (some line) => if (d.inventory.find line.1).isSome then some line else none
    | _ => none

/-- The number of pieces of a sku that the lines take. -/
def taken (lines : List (String × Int)) (sku : String) : Int :=
  ((lines.filter fun line => line.1 = sku).map Prod.snd).sum

/-- The movement of one line of an order. -/
def SaleOf (orderId : String) (line : String × Int) (m : InventoryMovement) : Prop :=
  m.sku = line.1 ∧ m.delta = -line.2 ∧ m.reason = .SALE ∧ m.sourceType = some "order" ∧
    m.sourceId = some orderId

section Sells

variable {orderId : String} {lines : List (String × Int)} {d d' : Database}

/-- Sales add no row to the inventory and remove none. -/
theorem Sells.isSome (h : Sells orderId lines d d') (sku : String) :
    (d'.inventory.find sku).isSome = (d.inventory.find sku).isSome := by
  induction h with
  | nil d => rfl
  | @snoc lines d d₁ stock qty id _ hs _ ih =>
      rw [← ih, Database.sell, Table.find_put]
      split_ifs with hsku
      · rw [← show stock.sku = sku from hsku, hs]
        rfl
      · rfl

/-- Only skus with an inventory row are sold. -/
theorem Sells.lines_isSome (h : Sells orderId lines d d') :
    ∀ line ∈ lines, (d.inventory.find line.1).isSome = true := by
  induction h with
  | nil d => simp
  | @snoc lines d d₁ stock qty id h hs _ ih =>
      intro line hline
      rcases List.mem_append.mp hline with hline | hline
      · exact ih line hline
      · obtain rfl := List.mem_singleton.mp hline
        rw [← h.isSome, hs]
        rfl

theorem taken_snoc (lines : List (String × Int)) (line : String × Int) (sku : String) :
    taken (lines ++ [line]) sku = taken lines sku + if line.1 = sku then line.2 else 0 := by
  by_cases h : line.1 = sku <;> simp [taken, h]

theorem Sells.quantity (h : Sells orderId lines d d') (sku : String) :
    d'.quantity sku = d.quantity sku - taken lines sku := by
  induction h with
  | nil d => simp [taken]
  | @snoc lines d d₁ stock qty id _ hs _ ih =>
      rw [taken_snoc, quantity_put (d := d₁) rfl]
      by_cases hsku : stock.sku = sku
      · have hq : d₁.quantity sku = stock.quantity := by
          rw [Database.quantity, ← hsku, hs]
          rfl
        rw [if_pos hsku, if_pos hsku]
        rw [hq] at ih
        change stock.quantity - qty = _
        omega
      · rw [if_neg hsku, if_neg hsku, ih, add_zero]

theorem Sells.movements (h : Sells orderId lines d d') :
    ∃ ms, d'.inventoryMovements.rows = d.inventoryMovements.rows ++ ms ∧
      List.Forall₂ (SaleOf orderId) lines ms := by
  induction h with
  | nil d => exact ⟨[], by simp, .nil⟩
  | @snoc lines d d₁ stock qty id _ _ hm ih =>
      obtain ⟨ms, hms, hall⟩ := ih
      let sale : InventoryMovement :=
        { id, sku := stock.sku, delta := -qty, reason := .SALE, sourceType := some "order"
          sourceId := some orderId, belowZero := stock.quantity - qty < 0 }
      have hsale : SaleOf orderId (stock.sku, qty) sale := ⟨rfl, rfl, rfl, rfl, rfl⟩
      refine ⟨ms ++ [sale], ?_, List.rel_append hall (.cons hsale .nil)⟩
      rw [Database.sell, Table.rows_put_of_find_eq_none hm, hms, List.append_assoc]

end Sells

/-- Where no inventory row has appeared since they were looked up, the lines
sold are those whose sku has a row. -/
theorem Reserves.eq_soldLines {A : Call → CallAt → Prop} {R : Call → State → State → Prop}
    {c : Call} {s : State} {items : List Json} {lines : List (String × Int)}
    (h : Reserves A R c s items lines)
    (hkeys : ∀ z, Was A R c z s → ∀ sku, z.db.inventory.find sku = none →
      s.1.inventory.find sku = none)
    (hsold : ∀ line ∈ lines, (s.1.inventory.find line.1).isSome = true) :
    lines = soldLines s.1 items := by
  induction h with
  | nil => rfl
  | skip _ hl ih => simp [soldLines, hl, ih hsold]
  | absent _ hl z hz habs ih =>
      have hnone := hkeys z hz _ habs
      simp [soldLines, hl, hnone, ih hsold]
  | sold _ hl ih =>
      have hlast := hsold _ (List.mem_append_right _ (List.mem_singleton_self _))
      have hrest := ih fun line hline => hsold line (List.mem_append_left _ hline)
      rw [soldLines, List.filterMap_append, ← soldLines, ← hrest]
      simp [hl, hlast]

/-! ## One transition to `COOKING` -/

/-- The order is not cooking in the first database and is in the second. -/
def StartsCooking (o : Uuid) (d d' : Database) : Prop :=
  (d.orders.find o).map Order.state ≠ some .COOKING ∧
    (d'.orders.find o).map Order.state = some .COOKING

instance (o : Uuid) (d d' : Database) : Decidable (StartsCooking o d d') :=
  inferInstanceAs (Decidable (_ ∧ _))

/-- All that a transition of an order to `COOKING` does: the order is moved, one
ticket is inserted, and every line that takes stock lowers it with one sale. -/
structure CookingStep (o : Uuid) (d d' : Database) : Prop where
  order : ∃ row row', d.orders.find o = some row ∧ (row.state = .PAID ∨ row.state = .CONFIRMED) ∧
    d'.orders = d.orders.put row' ∧
    row' = { row with state := .COOKING, traceId := row'.traceId }
  ticket : ∃ ticket, d'.kitchenTickets.rows = d.kitchenTickets.rows ++ [ticket] ∧
    ticket.orderId = o ∧ ticket.state = .NEW
  stock : ∃ row items orderId ms, d.orders.find o = some row ∧ row.items.iter = .ok items ∧
    readUuid orderId = some o ∧
    (∀ sku, d'.quantity sku = d.quantity sku - taken (soldLines d items) sku) ∧
    d'.inventoryMovements.rows = d.inventoryMovements.rows ++ ms ∧
    List.Forall₂ (SaleOf orderId) (soldLines d items) ms

theorem StartsCooking.of_put {o : Uuid} {d d' : Database} (h : StartsCooking o d d') (row : Order)
    (hput : d'.orders = d.orders.put row) : row.id = o ∧ row.state = .COOKING := by
  obtain ⟨h₁, h₂⟩ := h
  rw [hput, Table.find_put] at h₂
  split_ifs at h₂ with hid
  · exact ⟨hid, by simpa using h₂⟩
  · exact absurd h₂ h₁

theorem StartsCooking.of_same {o : Uuid} {d d' : Database} (h : StartsCooking o d d')
    (hsame : d'.orders = d.orders) : False :=
  h.1 (hsame ▸ h.2)

/-- A move in the session of a payment sends no order to the kitchen. -/
theorem StartsCooking.of_moves {o : Uuid} {d d' : Database} (h : StartsCooking o d d')
    {row : Order} {event : OrderEvent} {why : Prop} (hev : event ≠ .START_COOKING)
    (hmoves : Moves d.orders row event why d'.orders) : False := by
  generalize horders : d'.orders = t at hmoves
  cases hmoves with
  | @moved st htr =>
      have hst : st = .COOKING := (h.of_put _ horders).2
      exact hev (startCooking_of_cooking (hst ▸ htr))
  | kept _ => exact h.of_same horders

section Commits

variable {cfg : Settings} {A : Call → CallAt → Prop} {R : Call → State → State → Prop} {c : Call}
variable {past : Past} {s : State} {ws : List Write} {d' : Database}

/-- A commit that sends an order to the kitchen does all that belongs to it. -/
theorem Commits.cooks (h : Commits cfg A R c past s ws d') {o : Uuid}
    (hkeys : ∀ z, Was A R c z s → ∀ sku, z.db.inventory.find sku = none →
      s.1.inventory.find sku = none)
    (ho : StartsCooking o s.1 d') : CookingStep o s.1 d' := by
  cases h with
  | duplicate _ _ _ => exact (ho.of_same rfl).elim
  | recorded row _ _ => exact (ho.of_same rfl).elim
  | answered body _ id rest _ _ _ => exact (ho.of_same rfl).elim
  | customer body _ row _ => exact (ho.of_same rfl).elim
  | placed body _ id customerId items totalRub promoCode discountRub _ _ _ =>
      have hst := (ho.of_put _ rfl).2
      cases hst
  | moved row row' event st _ _ htr hev hrow =>
      have hst : st = .COOKING := by
        rw [← (ho.of_put _ rfl).2, hrow]
      exact absurd (startCooking_of_cooking (hst ▸ htr)) hev
  | cooked row row' orderId items lines d₁ ticket hfind _ hid htr hrow hitems hlines hsells habs
      horder hnew =>
      have hsame := hsells.steps.same
      have horders : d₁.orders = s.1.orders := by rw [hsame]
      have htickets : d₁.kitchenTickets = s.1.kitchenTickets := by rw [hsame]
      obtain rfl : row.id = o := by
        rw [← (ho.of_put row' (by rw [horders])).1, hrow]
      obtain rfl := hlines.eq_soldLines hkeys hsells.lines_isSome
      obtain ⟨ms, hms, hall⟩ := hsells.movements
      refine ⟨⟨row, row', hfind, ?_, by rw [horders], hrow⟩, ⟨ticket, ?_, horder, hnew⟩,
        row, items, orderId, ms, hfind, hitems, hid, hsells.quantity, hms, hall⟩
      · revert htr
        cases row.state <;> simp [orderTransitions]
      · rw [htickets]
        exact Table.rows_put_of_find_eq_none habs
  | paymentCreated row order orders' _ _ _ _ _ hmoves =>
      exact (ho.of_moves (by simp) hmoves).elim
  | settled kind orderId row order orders' _ _ _ _ _ _ hmoves =>
      exact (ho.of_moves (by cases kind <;> simp [Settlement.event]) hmoves).elim
  | ticketMoved row event st _ _ _ => exact (ho.of_same rfl).elim
  | stock _ h _ => exact (ho.of_same (by rw [h.same])).elim

end Commits

/-! ## Orders that have been cooked -/

/-- `COOKING` and all that can follow it. -/
def OrderState.cooked : OrderState → Bool
  | COOKING => true
  | PACKING => true
  | COURIER_ASSIGNED => true
  | DELIVERING => true
  | DELIVERED => true
  | CLOSED => true
  | _ => false

theorem OrderState.cooked_of_transition (s : OrderState) (e : OrderEvent) (s' : OrderState)
    (h : orderTransitions s e = some s') (hs : s.cooked = true) : s'.cooked = true := by
  cases s <;> cases e <;> simp only [orderTransitions, reduceCtorEq, Option.some.injEq] at h <;>
    first
    | (subst h; rfl)
    | cases hs

theorem Order.Later.cooked {r r' : Order} (h : r.Later r') (hr : r.state.cooked = true) :
    r'.state.cooked = true :=
  OrderPath.stays (P := fun st => st.cooked = true) OrderState.cooked_of_transition h.path hr

/-- The order is stored and has been cooked. -/
def Cooked (o : Uuid) (d : Database) : Prop :=
  ∃ row, d.orders.find o = some row ∧ row.state.cooked = true

theorem Cooked.grows {o : Uuid} {d d' : Database} (h : Cooked o d)
    (hg : d.orders.Grows Order.Later d'.orders) : Cooked o d' := by
  obtain ⟨row, hfind, hst⟩ := h
  obtain ⟨row', hfind', hl⟩ := hg _ _ hfind
  exact ⟨row', hfind', hl.cooked hst⟩

theorem CookingStep.cooked {o : Uuid} {d d' : Database} (h : CookingStep o d d') : Cooked o d' := by
  obtain ⟨row, row', hfind, -, hput, hrow⟩ := h.order
  have hid : row'.id = o := by
    rw [hrow]
    exact (Table.find_some hfind).2
  refine ⟨row', ?_, by rw [hrow]; rfl⟩
  rw [hput, ← hid]
  exact Table.find_put_self _ _

theorem CookingStep.not_cooked {o : Uuid} {d d' : Database} (h : CookingStep o d d') :
    ¬ Cooked o d := by
  rintro ⟨row', hfind', hc⟩
  obtain ⟨row, -, hfind, hst, -⟩ := h.order
  obtain rfl := Option.some.inj (hfind.symm.trans hfind')
  rcases hst with hst | hst <;> simp [hst, OrderState.cooked] at hc

/-! ## Runs without changes of the menu's stock -/

/-- No row has been added to the inventory. -/
def NoNewStock (d d' : Database) : Prop :=
  ∀ sku, d.inventory.find sku = none → d'.inventory.find sku = none

/-- What a call that runs one transition has answered and committed. -/
def Attempted (c : Call) (r : Except PyError Answer) (y : CallAt) : Prop :=
  match c with
  | .transitionOrder _ _ | .handleEvent _ _ =>
      (∃ st, r = .ok (.transition (transitioned st))) ∧ y.past.length = 1 ∨
        (∀ res, r = .ok (.transition res) → res.success = false) ∧ y.past = []
  | _ => True

/-- The order a call of `transition_order` or `handle_event` wants to cook. -/
def Call.cooks : Call → Option Uuid
  | .transitionOrder orderId .START_COOKING => readUuid orderId
  | .handleEvent orderId .START_COOKING => readUuid orderId
  | _ => none

theorem Attempted.of_cooks {c : Call} {o : Uuid} {r : Except PyError Answer} {y : CallAt}
    (hc : c.cooks = some o) (h : Attempted c r y) :
    (∃ st, r = .ok (.transition (transitioned st))) ∧ y.past.length = 1 ∨
      (∀ res, r = .ok (.transition res) → res.success = false) ∧ y.past = [] := by
  cases c with
  | transitionOrder orderId e => exact h
  | handleEvent orderId e => exact h
  | _ => simp [Call.cooks] at hc

/-- Runs of calls that manage no stock. -/
def noStockCalls (cfg : Settings) : ShopContract :=
  { shopContract cfg (fun c => c.isStock = false) (fun _ _ => True)
      (fun _ s s' => Evolves s s' ∧ NoNewStock s.1 s'.1) fun _ _ => True with
    post := Attempted }

theorem NoNewStock.of_same {d d' : Database} (h : d'.inventory = d.inventory) : NoNewStock d d' :=
  fun _ hn => by rw [h]; exact hn

theorem Commits.noNewStock {cfg : Settings} {A : Call → CallAt → Prop}
    {R : Call → State → State → Prop} {c : Call} {past : Past} {s : State} {ws : List Write}
    {d' : Database} (hc : c.isStock = false) (h : Commits cfg A R c past s ws d') :
    NoNewStock s.1 d' := by
  cases h with
  | duplicate _ _ _ => exact .of_same rfl
  | recorded row _ _ => exact .of_same rfl
  | answered body _ id rest _ _ _ => exact .of_same rfl
  | customer body _ row _ => exact .of_same rfl
  | placed body _ id customerId items totalRub promoCode discountRub _ _ _ => exact .of_same rfl
  | moved row row' event st _ _ _ _ _ => exact .of_same rfl
  | cooked row row' orderId items lines d₁ ticket _ _ _ _ _ _ _ hsells _ _ _ =>
      intro sku hn
      have h := hsells.isSome sku
      rw [hn] at h
      simpa using h
  | paymentCreated row order orders' _ _ _ _ _ _ => exact .of_same rfl
  | settled kind orderId row order orders' _ _ _ _ _ _ _ => exact .of_same rfl
  | ticketMoved row event st _ _ _ => exact .of_same rfl
  | stock hs _ _ =>
      rw [hc] at hs
      cases hs

theorem isShop_noStockCalls (cfg : Settings) : IsShop cfg (noStockCalls cfg) where
  guar _ _ _ _ _ _ h := ⟨h, trivial⟩
  rely _ _ _ h := h.1

theorem Attempted.of_outcome {cfg : Settings} {K : ShopContract} {c : Call} {x y : CallAt}
    {r : Except PyError Answer} (hx : x.past = []) (h : Outcome cfg K x r y c) :
    Attempted c r y := by
  have htried : ∀ orderId event, Transitioned K c orderId event r x y →
      (∃ st, r = .ok (.transition (transitioned st))) ∧ y.past.length = 1 ∨
        (∀ res, r = .ok (.transition res) → res.success = false) ∧ y.past = [] := by
    intro orderId event h
    cases h with
    | made st hr h =>
        obtain ⟨p, hp⟩ := h.past
        exact Or.inl ⟨⟨st, hr⟩, by simp [hp, hx]⟩
    | refused res hr hres h =>
        refine Or.inr ⟨fun res' hr' => ?_, h.past.trans hx⟩
        obtain rfl : res = res' := by
          rw [hr] at hr'
          cases hr'
          rfl
        exact hres
    | broke e hr h =>
        refine Or.inr ⟨fun res' hr' => ?_, h.past.trans hx⟩
        rw [hr] at hr'
        cases hr'
  cases c with
  | transitionOrder orderId event => exact htried orderId event h
  | handleEvent orderId event => exact htried orderId event h
  | _ => exact trivial

theorem valid_noStockCalls (cfg : Settings) : (noStockCalls cfg).Valid (shop cfg) := by
  refine valid_shop (isShop_noStockCalls cfg) (fun c c' past s s' hc _ _ _ h => ?_)
    (fun v d m m' h _ => ⟨trivial, fun _ => ⟨evolves_providerMove h, fun _ hn => hn⟩⟩)
    (fun _ _ _ => trivial) (fun c d m r y _ _ _ h => .of_outcome rfl h) fun c r y s _ h => ?_
  · refine ⟨Does.evolves h, ?_⟩
    cases h with
    | committed txn _ h => exact h.noNewStock hc
    | remembered _ => exact fun _ hn => hn
  · exact h

/-! ## Every run -/

/-- A commit of a call that wants to cook an order cooks it. -/
theorem Commits.startsCooking {cfg : Settings} {A : Call → CallAt → Prop}
    {R : Call → State → State → Prop} {c : Call} {past : Past} {s : State} {ws : List Write}
    {d' : Database} {o : Uuid} (hc : c.cooks = some o) (h : Commits cfg A R c past s ws d') :
    StartsCooking o s.1 d' := by
  have hmay : ∀ row event, May cfg c past s.1 row event → row.id = o ∧ event = .START_COOKING := by
    intro row event hm
    cases c with
    | transitionOrder orderId e =>
        cases e <;> simp only [Call.cooks, reduceCtorEq] at hc
        obtain ⟨hid, rfl⟩ := hm
        exact ⟨Option.some.inj (hid.symm.trans hc), rfl⟩
    | handleEvent orderId e =>
        cases e <;> simp only [Call.cooks, reduceCtorEq] at hc
        obtain ⟨hid, rfl⟩ := hm
        exact ⟨Option.some.inj (hid.symm.trans hc), rfl⟩
    | _ => simp [Call.cooks] at hc
  cases h with
  | cooked row row' orderId items lines d₁ ticket hfind hm _ htr hrow _ _ hsells _ _ _ =>
      obtain ⟨rfl, -⟩ := hmay _ _ hm
      have horders : d₁.orders = s.1.orders := by rw [hsells.steps.same]
      have hid : row'.id = row.id := by rw [hrow]
      refine ⟨?_, ?_⟩
      · rw [hfind]
        intro hst
        simp [Option.some.inj hst, orderTransitions] at htr
      · rw [← hid, horders, Table.find_put_self, hrow]
        rfl
  | moved row row' event st _ hm _ hev _ => exact absurd (hmay _ _ hm).2 hev
  | duplicate row hk _ => cases c <;> simp [Call.cooks, MayRecord] at hc hk
  | recorded row hk _ => cases c <;> simp [Call.cooks, MayRecord] at hc hk
  | answered body he _ _ _ _ _ => subst he; cases hc
  | customer body he _ _ => subst he; cases hc
  | placed body he _ _ _ _ _ _ _ _ _ => subst he; cases hc
  | paymentCreated row order orders' _ _ _ hm _ _ =>
      cases c <;> simp [Call.cooks, MayPay] at hc hm
  | settled kind orderId row order orders' _ _ hm _ _ _ _ =>
      cases c <;> simp [Call.cooks, MaySettle] at hc hm
  | ticketMoved row event st _ hm _ => cases c <;> simp [Call.cooks, MayMove] at hc hm
  | stock hs _ _ => cases c <;> simp [Call.cooks, Call.isStock] at hc hs

section Runs

variable {cfg : Settings} {d : Database} {m : Memory} {c c' : ShopConfig}

/-- The runs of calls that manage no stock. -/
abbrev ReachesWithoutStock (cfg : Settings) (c c' : ShopConfig) : Prop :=
  (shop cfg).Runs (fun _ => Begins fun k => k.isStock = false) c c'

theorem allows_noStockCalls (c : ShopConfig) (a : Action Call ProviderMove)
    (h : Begins (fun k => k.isStock = false) a) :
    (noStockCalls cfg).Allows (S := shop cfg) c a :=
  allows_of_begins (fun _ _ => trivial) (fun _ _ => trivial) (fun _ _ => trivial) c a h

theorem ReachesWithoutStock.ok (h : ReachesWithoutStock cfg (Config.start d m) c) :
    (noStockCalls cfg).Ok c :=
  (Ok.start trivial).runs (valid_noStockCalls cfg) (fun c a _ => allows_noStockCalls c a) h

/-- At most one commit has sent the order to the kitchen, and it has done all
that belongs to it. -/
structure CookedOnce (o : Uuid) (c : ShopConfig) : Prop where
  once : c.Once (StartsCooking o) (Cooked o)
  steps : ∀ p ∈ c.commits, StartsCooking o p.2.1 p.2.2 → CookingStep o p.2.1 p.2.2

theorem CookedOnce.step {o : Uuid} (h : CookedOnce o c)
    (hs : Changed cfg (noStockCalls cfg).assume (noStockCalls cfg).rely c c') :
    CookedOnce o c' := by
  cases hs with
  | kept hd hc => exact ⟨by rw [Config.Once, hd, hc]; exact h.once, hc ▸ h.steps⟩
  | committed t txn ht _ hcommit _ hc =>
      have hcooks : StartsCooking o c.db c'.db → CookingStep o c.db c'.db :=
        hcommit.cooks fun z hz => hz.2.recOn (fun _ h => h) fun _ hr ih sku hn => hr.2 sku (ih sku hn)
      refine ⟨h.once.commit hc (fun hd => hd.grows hcommit.evolves.orders)
        fun hq => ⟨(hcooks hq).not_cooked, (hcooks hq).cooked⟩, fun p hp => ?_⟩
      rcases List.mem_cons.mp (hc.subset hp) with rfl | hp
      · exact hcooks
      · exact h.steps p hp

theorem ReachesWithoutStock.cookedOnce (o : Uuid)
    (h : ReachesWithoutStock cfg (Config.start d m) c) : CookedOnce o c :=
  Ok.runs_induction (valid_noStockCalls cfg) (Ok.start trivial)
    (fun c a _ => allows_noStockCalls c a)
    ⟨by simp [Config.Once, Config.start, Config.commits], by simp [Config.start, Config.commits]⟩
    (fun _ _ _ _ _ _ _ hcaused ih => ih.step (.of_caused (fun _ _ _ _ h => h) hcaused)) h

/-- A call that wants to cook an order has cooked it and nothing else, or has
committed nothing; it has answered accordingly. -/
structure AllOrNothing (o : Uuid) (t : ShopThread) : Prop where
  commits : t.commits = [] ∨ ∃ p, t.commits = [p] ∧ CookingStep o p.1 p.2
  answered : ∀ res, t.dead = false → t.prog = .ret (.transition res) →
    (res.success = true ↔ t.commits ≠ [])
  raised : ∀ e, t.dead = false → t.prog = .raise e → t.commits = []

theorem ReachesWithoutStock.allOrNothing {o : Uuid}
    (h : ReachesWithoutStock cfg (Config.start d m) c) {t : ShopThread} (ht : t ∈ c.threads)
    (hk : t.call.cooks = some o) : AllOrNothing o t := by
  have hok := h.ok
  have honce := h.cookedOnce o
  have hstarts : ∀ p ∈ t.commits, StartsCooking o p.1 p.2 :=
    recorded_induction (fun _ _ _ h => h) (hok.recorded t ht) (P := fun past => ∀ p ∈ past,
      StartsCooking o p.1 p.2) (by simp) fun past s txn d' _ hcommit ih p hp => by
        rcases List.mem_append.mp hp with hp | hp
        · exact ih p hp
        · obtain rfl := List.mem_singleton.mp hp
          exact hcommit.startsCooking hk
  have hsub : (t.commits.map fun p => (t.call, p)).Sublist c.commits := by
    obtain ⟨pre, post, hts⟩ := List.append_of_mem ht
    rw [Config.commits, hts, List.flatMap_append, List.flatMap_cons]
    exact (List.sublist_append_left _ _).trans (List.sublist_append_right _ _)
  -- all of the call's commits cook the order, and at most one commit does
  have hlen : t.commits.length ≤ 1 := by
    have hle := (hsub.countP_le (p := fun p => StartsCooking o p.2.1 p.2.2)).trans honce.once.1
    rw [List.countP_map, List.countP_eq_length.mpr] at hle
    · exact hle
    · intro p hp
      simpa using hstarts p hp
  refine ⟨?_, fun res hdead hp => ?_, fun e hdead hp => ?_⟩
  · rcases List.eq_nil_or_concat' t.commits with hc | ⟨before, p, hc⟩
    · exact Or.inl hc
    · obtain rfl : before = [] := by
        rw [hc, List.length_append, List.length_singleton] at hlen
        exact List.eq_nil_of_length_eq_zero (by omega)
      have hp : p ∈ t.commits := by rw [hc]; exact List.mem_singleton_self p
      exact Or.inr ⟨p, hc, honce.steps (t.call, p)
        (hsub.subset (List.mem_map_of_mem hp)) (hstarts p hp)⟩
  · have hsafe := hok.safe t ht hdead
    rw [hp] at hsafe
    rcases Attempted.of_cooks hk hsafe with ⟨⟨st, hst⟩, hone⟩ | ⟨hno, hnone⟩
    · cases hst
      have hne : t.commits ≠ [] := fun he => by simp [Thread.state, he] at hone
      exact ⟨fun _ => hne, fun _ => rfl⟩
    · have hnone : t.commits = [] := hnone
      simp [hno res rfl, hnone]
  · have hsafe := hok.safe t ht hdead
    rw [hp] at hsafe
    rcases Attempted.of_cooks hk hsafe with ⟨⟨st, hst⟩, -⟩ | ⟨-, hnone⟩
    · cases hst
    · exact hnone

/-- For every stored order, from any database and under any interleaving of
calls that leave the stock list alone: at most one commit sends the order to
the kitchen; one that does moves it to `COOKING`, inserts one ticket in `NEW`
and takes every line with an inventory row from the stock with one sale; and a
`START_COOKING` call has done just that or has committed nothing, where the
database changes by commits only. -/
theorem start_cooking_all_or_nothing (o : Uuid)
    (h : ReachesWithoutStock cfg (Config.start d m) c) :
    c.commits.countP (fun p => StartsCooking o p.2.1 p.2.2) ≤ 1 ∧
    (∀ p ∈ c.commits, StartsCooking o p.2.1 p.2.2 → CookingStep o p.2.1 p.2.2) ∧
    (∀ t ∈ c.threads, t.call.cooks = some o → AllOrNothing o t) ∧
    ∀ a c', (shop cfg).step c a = some c' → c'.db = c.db ∨
      ∃ i n t t', a = .run i n ∧ c.threads[i]? = some t ∧ c'.threads[i]? = some t' ∧
        t'.call = t.call ∧ t'.commits = t.commits ++ [(c.db, c'.db)] :=
  have honce := h.cookedOnce o
  ⟨honce.once.1, honce.steps, fun _ ht hk => h.allOrNothing ht hk,
    fun _ _ hs => System.db_of_step hs⟩

end Runs

/-- Of two calls that want to cook one order of two pizzas, one has. -/
theorem start_cooking_all_or_nothing_two :
    ∃ c, ReachesWithoutStock sampleSettings (Config.start { databaseWith
          [sampleOrder 1 .PAID "cash" [.obj [("sku", .str "pizza"), ("qty", .int 2)]]] [] with
          inventory := (stockWith [⟨"pizza", "Pizza", 5, .LOW_STOCK⟩]).inventory } {}) c ∧
      (orderStates c, c.db.quantity "pizza") = ([(1, .COOKING)], 3) ∧
      c.commits.countP (fun p => StartsCooking 1 p.2.1 p.2.2) ≤ 1 := by
  obtain ⟨c, hr, hc⟩ := exists_run_of_exec sampleSettings (fun k => k.isStock = false)
    (Config.start { databaseWith
      [sampleOrder 1 .PAID "cash" [.obj [("sku", .str "pizza"), ("qty", .int 2)]]] [] with
      inventory := (stockWith [⟨"pizza", "Pizza", 5, .LOW_STOCK⟩]).inventory } {})
    (.call (.transitionOrder (Uuid.text 1) .START_COOKING) ::
      .call (.handleEvent (Uuid.text 1) .START_COOKING) :: (runs 1 2 ++ runs 0 15 ++ runs 1 5))
    (f := fun c => (orderStates c, c.db.quantity "pizza")) (b := ([(1, .COOKING)], 3))
    (by decide) (by decide +kernel)
  exact ⟨c, hr, hc, (start_cooking_all_or_nothing 1 hr).1⟩

end Sieshka
