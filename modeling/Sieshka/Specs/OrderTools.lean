import Sieshka.Specs.Sessions

/-!
# What the tools do on their session

One rule for each tool: the writes it leaves pending, the rows it has pinned,
and what it has seen when it raises instead.
-/

namespace Sieshka

open Transactions Contract
open Relation (ReflTransGen)

section Tools

variable {K : ShopContract} {c : Call} {x : CallAt}

/-! ## Orders -/

/-- The order is stored, if at all, in none of the states in `P`. -/
def NotIn (d : Database) (id : Uuid) (P : OrderState → Prop) : Prop :=
  ∀ row, d.orders.find id = some row → ¬ P row.state

/-- An order row under a lock: found in a state in `P`, or seen in another. -/
theorem wp_lockOrder {id : Uuid} {P : OrderState → Prop}
    {Q : Except PyError (Option Order) → CallAt → Prop} (hx : x.txn.failed = false)
    (hw : Untouched x (.order id))
    (hok : ∀ y row, K.Extends c x y → y.txn.failed = false → y.txn.writes = x.txn.writes →
      P row.state → y.Pins (fun d => d.orders.find id = some row) → Q (.ok (some row)) y)
    (hno : ∀ y r, K.Extends c x y → y.txn.failed = false → y.txn.writes = x.txn.writes →
      K.Saw c x (fun z => NotIn z.db id P) y → (∀ row, r = some row → ¬ P row.state) →
      Q (.ok r) y)
    (he : ∀ y, K.Struck c x y → Q (.error .dbapiError) y) :
    K.wp c (orders.findForUpdate id) Q x := by
  refine orders.wp_findForUpdate hx (fun s hs ha hnone => ?_) (fun s row hs ha hrow hpin => ?_) he
  · have hdb : s.1.orders.find id = none := (hw.order s.1).symm.trans hnone
    refine hno _ _ (.now hs) hx rfl (.now hs ha fun row hrow => ?_) (by simp)
    rw [CallState.now_db, hdb] at hrow
    cases hrow
  · have hlocked := (Extends.now hs).trans (.locked [orders.lock id])
    have hdb : s.1.orders.find id = some row := (hw.order s.1).symm.trans hrow
    by_cases hst : P row.state
    · exact hok _ row hlocked hx rfl hst (hpin.mono fun d hd => (hw.order d).symm.trans hd)
    · refine hno _ _ hlocked hx rfl ?_ fun row' hrow' => by
        obtain rfl := Option.some.inj hrow'
        exact hst
      refine .follows (.now hs ha fun row' hrow' => ?_) (Extends.locked _).toFollows
      rw [CallState.now_db, hdb] at hrow'
      obtain rfl := Option.some.inj hrow'
      exact hst

theorem wp_transitionOrderState {orderId : String} {id : Uuid} {fromState toState : OrderState}
    {Q : Except PyError String → CallAt → Prop} (hx : x.txn.failed = false)
    (hid : readUuid orderId = some id) (hw : Untouched x (.order id))
    (hok : ∀ y row, K.Extends c x y → y.txn.failed = false →
      y.txn.writes = x.txn.writes ++ [.order { row with state := toState }] →
      row.state = fromState → y.Pins (fun d => d.orders.find id = some row) → Q (.ok "OK") y)
    (hno : ∀ y e, K.Extends c x y → y.txn.failed = false → y.txn.writes = x.txn.writes →
      K.Saw c x (fun z => NotIn z.db id (· = fromState)) y → Q (.error e) y)
    (he : ∀ y, K.Struck c x y → Q (.error .dbapiError) y) :
    K.wp c (transitionOrderState orderId fromState toState) Q x := by
  rw [transitionOrderState, wp_bind]
  refine wp_uuid (fun id' hid' => ?_) fun h => by rw [hid] at h; cases h
  obtain rfl : id' = id := Option.some.inj (hid'.symm.trans hid)
  simp only [wp_bind]
  refine wp_lockOrder hx hw (P := (· = fromState)) (fun y row hy hyx hyw hst hpin => ?_)
    (fun y r hy hyx hyw hsaw hr => ?_) he
  · simp only [hst, ne_eq, not_true_eq_false, if_false, wp_bind]
    refine orders.wp_update_pinned hyx (fun _ => rfl) (r := row) (hpin.mono fun d hd => ?_)
      (fun z hz hzx hzw => ?_) fun z hz => he z (.of_follows hy.toFollows hz)
    · exact (Untouched.order (by rw [Untouched, hyw]; exact hw) d).trans hd
    · exact hok z row (hy.trans hz) hzx (by rw [hzw, hyw]; rfl) hst (hz.pins hpin)
  · cases r with
    | none => exact hno y _ hy hyx hyw hsaw
    | some row =>
        simp only [ne_eq, hr row rfl, not_false_eq_true, if_true]
        exact hno y _ hy hyx hyw hsaw

/-! ## Kitchen tickets -/

theorem wp_createKitchenTicket {orderId : String} {id : Uuid}
    {Q : Except PyError String → CallAt → Prop} (hx : x.txn.failed = false)
    (hid : readUuid orderId = some id)
    (hok : ∀ y ticket, K.Extends c x y → y.txn.failed = false →
      y.txn.writes = x.txn.writes ++ [.kitchenTicket ticket] → ticket.orderId = id →
      ticket.state = .NEW →
      y.Pins (fun d => (x.txn.view d).kitchenTickets.find ticket.id = none) →
      Q (.ok ticket.id.text) y)
    (he : ∀ y, K.Struck c x y → Q (.error .dbapiError) y) :
    K.wp c (createKitchenTicket orderId) Q x := by
  rw [createKitchenTicket, wp_bind]
  refine wp_uuid (fun id' hid' => ?_) fun h => by rw [hid] at h; cases h
  obtain rfl : id' = id := Option.some.inj (hid'.symm.trans hid)
  simp only [wp_bind]
  refine wp_uuid4 fun s new hs ha => ?_
  have hnow : K.Extends c x (x.now s) := .now hs
  refine kitchenTickets.wp_insert hx (fun s' hs' ha' _ hpin => ?_)
    fun y hy => he y (.of_follows hnow.toFollows hy)
  exact hok _ ⟨new, id', .NEW⟩ (hnow.trans ((Extends.now hs').trans (.wrote _))) hx rfl rfl rfl hpin

theorem wp_writeOrderStateCooking {orderId : String} {id : Uuid} {ticket : KitchenTicket}
    {Q : Except PyError String → CallAt → Prop} (hx : x.txn.failed = false)
    (hid : readUuid orderId = some id) (hw : Untouched x (.order id))
    (horder : ticket.orderId = id)
    (hticket : x.Pins (fun d => (x.txn.view d).kitchenTickets.find ticket.id = some ticket))
    (hok : ∀ y row, K.Extends c x y → y.txn.failed = false →
      y.txn.writes =
        x.txn.writes ++ [.order { row with state := .COOKING }, .kitchenTicket ticket] →
      orderTransitions row.state .START_COOKING = some .COOKING →
      y.Pins (fun d => d.orders.find id = some row) → Q (.ok "OK") y)
    (hno : ∀ y e, K.Extends c x y → y.txn.failed = false →
      K.Saw c x (fun z => NotIn z.db id fun st => orderTransitions st .START_COOKING ≠ none) y →
      Q (.error e) y)
    (he : ∀ y, K.Struck c x y → Q (.error .dbapiError) y) :
    K.wp c (writeOrderStateCooking orderId ticket.id.text) Q x := by
  have hiff : ∀ st, orderTransitions st .START_COOKING ≠ none ↔ ¬(st ≠ .PAID ∧ st ≠ .CONFIRMED) := by
    intro st
    cases st <;> simp [orderTransitions]
  rw [writeOrderStateCooking, wp_bind]
  refine wp_uuid (fun id' hid' => ?_) fun h => by rw [hid] at h; cases h
  obtain rfl : id' = id := Option.some.inj (hid'.symm.trans hid)
  simp only [wp_bind]
  refine wp_lockOrder hx hw (P := fun st => orderTransitions st .START_COOKING ≠ none)
    (fun y row hy hyx hyw hst hpin => ?_) (fun y r hy hyx hyw hsaw hr => ?_) he
  · simp only [if_neg ((hiff row.state).mp hst), wp_bind]
    refine orders.wp_update_pinned hyx (fun _ => rfl) (r := row) (hpin.mono fun d hd => ?_)
      (fun z hz hzx hzw => ?_) fun z hz => he z (.of_follows hy.toFollows hz)
    · exact (Untouched.order (by rw [Untouched, hyw]; exact hw) d).trans hd
    · refine wp_uuid (fun k hk => ?_) fun h => by simp at h
      obtain rfl : ticket.id = k := by simpa using hk
      have hxz := hy.trans hz
      refine kitchenTickets.wp_update_pinned hzx (fun _ => rfl) (r := ticket)
        ((hxz.pins hticket).mono fun d hd => ?_) (fun w hw' hwx hww => ?_)
        fun w hw' => he w (.of_follows hxz.toFollows hw')
      · rw [Txn.view_of_writes (t := x.txn) (hzw.trans (by rw [hyw]))]
        exact hd
      · subst horder
        refine hok w row (hxz.trans hw') hwx (by rw [hww, hzw, hyw, List.append_assoc]; rfl) ?_
          ((hz.trans hw').pins hpin)
        have := hst
        revert this
        cases row.state <;> simp [orderTransitions]
  · cases r with
    | none => exact hno y _ hy hyx hsaw
    | some row =>
        simp only [if_pos (not_not.mp (mt (hiff row.state).mpr (hr row rfl)))]
        exact hno y _ hy hyx hsaw

/-! ## Stock -/

/-- The sku had a row at the start of the session if it has one in it. -/
theorem Sells.find_none {orderId sku : String} {lines : List (String × Int)} {d d' : Database}
    (h : Sells orderId lines d d') (hn : d'.inventory.find sku = none) :
    d.inventory.find sku = none := by
  induction h with
  | nil d => exact hn
  | @snoc lines d d₁ stock qty id _ hs _ ih =>
      rw [Database.sell, Table.find_put] at hn
      split_ifs at hn with hsku
      exact ih hn

theorem Reserves.later {A : Call → CallAt → Prop} {R : Call → State → State → Prop} {s s' : State}
    {items : List Json} {lines : List (String × Int)} (h : Reserves A R c s items lines)
    (hs : ReflTransGen (R c) s s') (hp : s'.1.products = s.1.products) :
    Reserves A R c s' items lines := by
  induction h with
  | nil => exact .nil
  | skip _ hl ih => exact .skip ih (hp ▸ hl)
  | absent _ hl z hz habs ih => exact .absent ih (hp ▸ hl) z ⟨hz.1, hz.2.trans hs⟩ habs
  | sold _ hl ih => exact .sold ih (hp ▸ hl)

/-- A write of the stock tables. -/
def Write.isStock : Write → Prop
  | inventory _ => True
  | inventoryMovement _ => True
  | _ => False

/-- Where the loop over an order's items stands: the items it has handled, the
lines it has sold, and nothing but these sales pending. -/
structure Reserving (K : ShopContract) (c : Call) (orderId : String) (items : List Json)
    (lines : List (String × Int)) (y : CallAt) : Prop where
  live : y.txn.failed = false
  stock : ∀ w ∈ y.txn.writes, w.isStock
  sells : y.Pins fun d => Sells orderId lines d (y.txn.view d)
  reserves : Reserves K.assume K.rely c (y.db, y.mem) items lines

namespace Reserving

variable {orderId : String} {items : List Json} {lines : List (String × Int)} {y : CallAt}

theorem untouched (h : Reserving K c orderId items lines y) (id : Uuid) :
    Untouched y (.order id) := by
  intro hm
  obtain ⟨w, hw, hl⟩ := List.mem_map.mp hm
  have := h.stock w hw
  cases w <;> simp_all [Write.isStock, Write.lock]

end Reserving

theorem wp_recordMovement {sku : String} {delta : Int} {reason : MovementReason}
    {sourceType sourceId : Option String} {belowZero : Bool}
    {Q : Except PyError Unit → CallAt → Prop} (hx : x.txn.failed = false)
    (hok : ∀ y id, K.Extends c x y → y.txn.failed = false →
      y.txn.writes = x.txn.writes ++
        [.inventoryMovement ⟨id, sku, delta, reason, sourceType, sourceId, belowZero⟩] →
      y.Pins (fun d => (x.txn.view d).inventoryMovements.find id = none) → Q (.ok ()) y)
    (he : ∀ y, K.Struck c x y → Q (.error .dbapiError) y) :
    K.wp c (recordMovement sku delta reason sourceType sourceId belowZero) Q x := by
  rw [recordMovement, wp_bind]
  refine wp_uuid4 fun s id hs ha => ?_
  have hnow : K.Extends c x (x.now s) := .now hs
  refine inventoryMovements.wp_insert hx (fun s' hs' ha' _ hpin => ?_)
    fun y hy => he y (.of_follows hnow.toFollows hy)
  exact hok _ id (hnow.trans ((Extends.now hs').trans (.wrote _))) hx rfl hpin

/-- Writing a stock row the session has pinned, and the movement that goes with it. -/
theorem wp_changeStock {α : Type} {next : Async α} {taken : Bool} {sku : String} {stock : Inventory}
    {f : Inventory → Inventory} {delta : Int} {reason : MovementReason}
    {sourceType sourceId : Option String} {belowZero : Bool}
    {Q : Except PyError α → CallAt → Prop} (hx : x.txn.failed = false)
    (hkey : ∀ r, (f r).sku = r.sku)
    (hpin : x.Pins (fun d => (x.txn.view d).inventory.find sku = some stock))
    (hok : ∀ y id, K.Extends c x y → y.txn.failed = false →
      y.txn.writes = x.txn.writes ++ [.inventory (f stock),
        .inventoryMovement ⟨id, sku, delta, reason, sourceType, sourceId, belowZero⟩] →
      y.Pins (fun d => (x.txn.view d).inventory.find sku = some stock ∧
        (x.txn.view d).inventoryMovements.find id = none) → K.wp c next Q y)
    (he : ∀ y, K.Struck c x y → Q (.error .dbapiError) y) :
    K.wp c (do
      inventory.updateIf taken sku f
      recordMovement sku delta reason sourceType sourceId belowZero
      next) Q x := by
  simp only [wp_bind]
  refine inventory.wp_updateIf_pinned hx hkey hpin (fun y hy hyx hyw => ?_) he
  refine wp_recordMovement hyx (fun z id hz hzx hzw hnew => ?_)
    fun z hz => he z (.of_follows hy.toFollows hz)
  refine hok z id (hy.trans hz) hzx (by rw [hzw, hyw, List.append_assoc]; rfl) fun d hd =>
    ⟨(hy.trans hz).pins hpin d hd, ?_⟩
  have h : (y.txn.view d).inventoryMovements.find id = none := hnew d hd
  rw [Txn.view_of_writes hyw] at h
  exact h

/-- A stock row under its lock, or none. -/
theorem wp_lockStock {sku : String} {Q : Except PyError (Option Inventory) → CallAt → Prop}
    (hx : x.txn.failed = false)
    (hnone : ∀ s, K.Later c x s → K.assume c (x.now s) →
      (x.txn.view s.1).inventory.find sku = none → Q (.ok none) (x.now s))
    (hsome : ∀ y stock, K.Extends c x y → y.txn.failed = false →
      y.txn.writes = x.txn.writes → stock.sku = sku →
      y.Pins (fun d => (x.txn.view d).inventory.find sku = some stock) → Q (.ok (some stock)) y)
    (he : ∀ y, K.Struck c x y → Q (.error .dbapiError) y) :
    K.wp c (inventory.findForUpdate sku) Q x :=
  inventory.wp_findForUpdate hx hnone
    (fun _ stock hs _ hstock hpin => hsome _ stock ((Extends.now hs).trans (.locked _)) hx rfl
      (Table.find_some hstock).2 hpin) he

section Reserve

variable {orderId : String} {items : List Json} {lines : List (String × Int)}

/-- Selling one line. -/
theorem wp_reserveSku {sku : String} {qty : Int} {Q : Except PyError Bool → CallAt → Prop}
    (hx : x.txn.failed = false)
    (hnone : ∀ s, K.Later c x s → K.assume c (x.now s) →
      (x.txn.view s.1).inventory.find sku = none → Q (.ok false) (x.now s))
    (hsome : ∀ y stock id b, K.Extends c x y → y.txn.failed = false → stock.sku = sku →
      y.txn.writes = x.txn.writes ++ [.inventory { stock with quantity := stock.quantity - qty },
        .inventoryMovement ⟨id, sku, -qty, .SALE, some "order", some orderId,
          stock.quantity - qty < 0⟩] →
      y.Pins (fun d => (x.txn.view d).inventory.find sku = some stock ∧
        (x.txn.view d).inventoryMovements.find id = none) → Q (.ok b) y)
    (he : ∀ y, K.Struck c x y → Q (.error .dbapiError) y) :
    K.wp c (reserveSku orderId sku qty) Q x := by
  rw [reserveSku, wp_bind]
  refine wp_lockStock hx hnone (fun y stock hy hyx hyw hsku hpin => ?_) he
  have hview := view_congr hyw
  refine wp_changeStock hyx (fun _ => rfl) (hpin.mono fun d hd => by rw [hview]; exact hd)
    (fun z id hz hzx hzw hpins => ?_) fun z hz => he z (.of_follows hy.toFollows hz)
  refine hsome z stock id _ (hy.trans hz) hzx hsku (by rw [hzw, hyw]) (hpins.mono fun d hd => ?_)
  rw [hview] at hd
  exact hd

theorem wp_resolveSku {sku productId : Json} {Q : Except PyError Json → CallAt → Prop}
    (hx : x.txn.failed = false)
    (hok : ∀ y v, K.Extends c x y → y.txn = x.txn → skuOf y.db.products sku productId = .ok v →
      Q (.ok v) y)
    (hno : ∀ y e, K.Extends c x y → y.txn = x.txn → skuOf y.db.products sku productId = .error e →
      Q (.error e) y)
    (he : ∀ y, K.Struck c x y → Q (.error .dbapiError) y) :
    K.wp c (resolveSku sku productId) Q x := by
  rw [resolveSku]
  by_cases hs : sku.truthy = true
  · rw [if_pos hs]
    exact hok x sku .refl rfl (by rw [skuOf, if_pos hs])
  · rw [if_neg hs]
    by_cases hp : productId.truthy = true
    · rw [if_pos hp, wp_bind]
      cases hid : productId.toUuid with
      | error e =>
          exact hno x e .refl rfl (by rw [skuOf, if_neg hs, if_pos hp, hid]; rfl)
      | ok id =>
          simp only [ofExcept_ok, wp_ret, wp_bind]
          refine wp_select hx (fun s hl ha => ?_) he
          refine hok _ _ (.now hl) rfl ?_
          rw [skuOf, if_neg hs, if_pos hp, hid, view_products]
          rfl
    · rw [if_neg hp]
      exact hok x sku .refl rfl (by rw [skuOf, if_neg hs, if_neg hp])

theorem Reserving.of_extends {cfg : Settings} (hK : IsShop cfg K) {y : CallAt}
    (h : Reserving K c orderId items lines x) (hy : K.Extends c x y) (htxn : y.txn = x.txn) :
    Reserving K c orderId items lines y where
  live := htxn ▸ h.live
  stock := htxn ▸ h.stock
  sells := by rw [htxn]; exact hy.pins h.sells
  reserves := h.reserves.later hy.since (hK.evolves hy.since).products

/-- One round of the loop. -/
theorem wp_reserveItem {cfg : Settings} (hK : IsShop cfg K) {item : Json}
    {Q : Except PyError Bool → CallAt → Prop} (h : Reserving K c orderId items lines x)
    (hok : ∀ y b lines', K.Extends c x y → Reserving K c orderId (items ++ [item]) lines' y →
      Q (.ok b) y)
    (hno : ∀ y e, K.Extends c x y → (∀ l, lineOf y.db.products item ≠ .ok l) → Q (.error e) y)
    (he : ∀ y, K.Struck c x y → Q (.error .dbapiError) y) :
    K.wp c (reserveItem orderId item) Q x := by
  rw [reserveItem, wp_bind]
  cases hf : itemFields item with
  | error e => exact hno x e .refl fun l => by simp [lineOf, hf]
  | ok fields =>
      obtain ⟨sku, qty, productId⟩ := fields
      simp only [ofExcept_ok, wp_ret, wp_bind]
      refine wp_resolveSku h.live (fun y v hy htxn hv => ?_)
        (fun y e hy _ hv => hno y e hy fun l => by simp [lineOf, hf, hv]) he
      have hr := h.of_extends hK hy htxn
      by_cases htruthy : v.truthy = true
      · simp only [if_pos htruthy]
        cases v with
        | str sku =>
            have hline : lineOf y.db.products item = .ok (some (sku, qty)) := by
              simp [lineOf, hf, hv, htruthy]
            refine wp_reserveSku hr.live (fun s hs ha hnone => ?_)
              (fun z stock id b hz hzx hsku hzw hpins => ?_)
              fun z hz => he z (.of_follows hy.toFollows hz)
            · have hnow : K.Extends c y (y.now s) := .now hs
              have hr' := hr.of_extends hK hnow rfl
              have hline' : lineOf (y.now s).db.products item = .ok (some (sku, qty)) := by
                rw [(hK.evolves hnow.since).products]
                exact hline
              exact hok _ _ lines (hy.trans hnow) { hr' with
                reserves := .absent hr'.reserves hline' (y.now s) ⟨ha, .refl⟩
                  ((hs.pinned hr.sells).find_none hnone) }
            · refine hok _ _ (lines ++ [(sku, qty)]) (hy.trans hz) ⟨hzx, ?_, ?_, ?_⟩
              · intro w hw
                rw [hzw] at hw
                simp only [List.mem_append, List.mem_cons, List.not_mem_nil, or_false] at hw
                rcases hw with hw | rfl | rfl
                · exact hr.stock w hw
                · trivial
                · trivial
              · intro d hd
                obtain ⟨hs, hm⟩ := hpins d hd
                rw [Txn.view_of_writes hzw]
                subst hsku
                exact .snoc (hz.pins hr.sells d hd) hs hm
              · have hp := (hK.evolves hz.since).products
                exact .sold (hr.reserves.later hz.since hp) (by rw [hp]; exact hline)
        | null => exact hno y _ hy fun l => by simp [lineOf, hf, hv, htruthy]
        | bool b => exact hno y _ hy fun l => by simp [lineOf, hf, hv, htruthy]
        | int n => exact hno y _ hy fun l => by simp [lineOf, hf, hv, htruthy]
        | float q => exact hno y _ hy fun l => by simp [lineOf, hf, hv, htruthy]
        | nan => exact hno y _ hy fun l => by simp [lineOf, hf, hv, htruthy]
        | inf negative => exact hno y _ hy fun l => by simp [lineOf, hf, hv, htruthy]
        | arr l => exact hno y _ hy fun l => by simp [lineOf, hf, hv, htruthy]
        | obj l => exact hno y _ hy fun l => by simp [lineOf, hf, hv, htruthy]
      · simp only [if_neg htruthy]
        have hline : lineOf y.db.products item = .ok none := by simp [lineOf, hf, hv, htruthy]
        exact hok y _ lines hy { hr with reserves := .skip hr.reserves hline }

/-- The loop: it has handled all items, or stops at one that is no order line. -/
theorem wp_reserveItems {cfg : Settings} (hK : IsShop cfg K) {rest : List Json} {acc : Bool}
    {Q : Except PyError Bool → CallAt → Prop} (h : Reserving K c orderId items lines x)
    (hok : ∀ y b lines', K.Extends c x y → Reserving K c orderId (items ++ rest) lines' y →
      Q (.ok b) y)
    (hno : ∀ y e item, K.Extends c x y → item ∈ rest →
      (∀ l, lineOf y.db.products item ≠ .ok l) → Q (.error e) y)
    (he : ∀ y, K.Struck c x y → Q (.error .dbapiError) y) :
    K.wp c (reserveItems orderId rest acc) Q x := by
  induction rest generalizing items lines x acc with
  | nil => exact hok x acc lines .refl (by rw [List.append_nil]; exact h)
  | cons item rest ih =>
      rw [reserveItems, wp_bind]
      refine wp_reserveItem hK h (fun y b lines' hy hr => ?_)
        (fun y e hy hl => hno y e item hy List.mem_cons_self hl) he
      refine ih hr (fun z b lines'' hz hr' => ?_)
        (fun z e item' hz hm hl => hno z e item' (hy.trans hz) (List.mem_cons_of_mem _ hm) hl)
        fun z hz => he z (.of_follows hy.toFollows hz)
      exact hok z b lines'' (hy.trans hz) (by rw [List.append_cons]; exact hr')

/-- The items of the order are no list, or one of them is no order line. -/
def Unreservable (d : Database) (id : Uuid) : Prop :=
  ∀ row items, d.orders.find id = some row → row.items.iter = .ok items →
    ∃ item ∈ items, ∀ l, lineOf d.products item ≠ .ok l

theorem wp_reserveInventoryItems {cfg : Settings} (hK : IsShop cfg K) {id : Uuid}
    {Q : Except PyError Int → CallAt → Prop} (hx : x.txn.failed = false)
    (hempty : x.txn.writes = []) (hid : readUuid orderId = some id)
    (hok : ∀ y n row items lines, K.Extends c x y → Reserving K c orderId items lines y →
      K.Saw c x (fun z => z.db.orders.find id = some row) y → row.items.iter = .ok items →
      Q (.ok n) y)
    (hno : ∀ y e, K.Extends c x y → K.Saw c x (fun z => Unreservable z.db id) y → Q (.error e) y)
    (he : ∀ y, K.Struck c x y → Q (.error .dbapiError) y) :
    K.wp c (reserveInventoryItems orderId) Q x := by
  rw [reserveInventoryItems, wp_bind]
  refine wp_uuid (fun id' hid' => ?_) fun h => by rw [hid] at h; cases h
  obtain rfl : id' = id := Option.some.inj (hid'.symm.trans hid)
  simp only [wp_bind]
  refine wp_select hx (fun s hs ha => ?_) he
  have hnow : K.Extends c x (x.now s) := .now hs
  have hview : x.txn.view s.1 = s.1 := by rw [Txn.view, hempty]; rfl
  rw [hview]
  cases hrow : s.1.orders.find id' with
  | none =>
      refine hno _ _ hnow (.now hs ha fun row items h => ?_)
      rw [CallState.now_db, hrow] at h
      cases h
  | some row =>
      simp only [wp_bind]
      cases hitems : row.items.iter with
      | error e =>
          refine hno _ _ hnow (.now hs ha fun row' items h hi => ?_)
          rw [CallState.now_db, hrow] at h
          obtain rfl := Option.some.inj h
          rw [hitems] at hi
          cases hi
      | ok items =>
          have hstart : Reserving K c orderId [] [] (x.now s) := by
            refine ⟨hx, by simp [hempty], fun d _ => ?_, .nil⟩
            simp only [CallState.now_txn, Txn.view, hempty]
            exact .nil d
          simp only [ofExcept_ok, wp_ret]
          refine wp_reserveItems hK hstart (fun y b lines hy hr => ?_)
            (fun y e item hy hm hl => ?_) fun y hy => he y (.of_follows hnow.toFollows hy)
          · have hsaw : K.Saw c x (fun z => z.db.orders.find id' = some row) y :=
              .follows (.now hs ha hrow) hy.toFollows
            exact hok y _ row items lines (hnow.trans hy) hr hsaw hitems
          · refine hno y e (hnow.trans hy) (.follows (.now hs ha fun row' items' h hi => ?_)
              hy.toFollows)
            rw [CallState.now_db, hrow] at h
            obtain rfl := Option.some.inj h
            obtain rfl : items = items' := Except.ok.inj (hitems.symm.trans hi)
            refine ⟨item, hm, ?_⟩
            rw [← (hK.evolves hy.since).products]
            exact hl

end Reserve

end Tools

end Sieshka
