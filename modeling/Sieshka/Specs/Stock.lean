import Sieshka.Specs.Transitions

/-!
# Stock outside an order

The inventory tools and the sessions that run them: whatever they commit is a
sequence of single changes of the stock.
-/

namespace Sieshka

open Transactions Contract
open Relation (ReflTransGen)

section Specs

variable {K : ShopContract} {c : Call} {x y z : CallAt}

/-- The session has changed the database as the relation `T` says. -/
structure Stocking (T : Database → Database → Prop) (y : CallAt) : Prop where
  live : y.txn.failed = false
  steps : y.Pins fun d => T d (y.txn.view d)

variable {T T' : Database → Database → Prop}

theorem Stocking.start (hx : x.txn = {}) (hT : ∀ d, T d d) : Stocking T x where
  live := by rw [hx]
  steps := by
    intro d _
    rw [hx]
    exact hT d

/-- The session goes on by more writes. -/
theorem Stocking.step {ws : List Write} (h : Stocking T x) (hy : K.Extends c x y)
    (hlive : y.txn.failed = false) (hw : y.txn.writes = x.txn.writes ++ ws)
    (hstep : y.Pins fun d => T d (x.txn.view d) → T' d (ws.foldl RowStore.put (x.txn.view d))) :
    Stocking T' y where
  live := hlive
  steps := by
    intro d hd
    rw [Txn.view_of_writes hw]
    exact hstep d hd (hy.pins h.steps d hd)

theorem Stocking.extends (h : Stocking T x) (hy : K.Extends c x y)
    (htxn : y.txn.writes = x.txn.writes) (hlive : y.txn.failed = false) : Stocking T y where
  live := hlive
  steps := by
    intro d hd
    rw [view_congr htxn]
    exact hy.pins h.steps d hd

/-- What a tool leaves of the session when it returns. -/
def Stocks (T : Database → Database → Prop) (α : Type) (r : Except PyError α) (y : CallAt) : Prop :=
  ∀ a, r = .ok a → Stocking T y

theorem Stocks.error {α : Type} (e : PyError) (y : CallAt) : Stocks T α (.error e) y := by
  intro a h
  cases h

theorem Stocks.ok {α : Type} {a : α} (h : Stocking T y) : Stocks T α (.ok a) y := fun _ _ => h

/-- A quantity changed with its movement. -/
theorem wp_stockChange {α : Type} {next : Async α} {taken : Bool} {sku : String} {stock : Inventory}
    {f : Inventory → Inventory} {delta : Int} {reason : MovementReason}
    {sourceType sourceId : Option String} {belowZero : Bool}
    {Q : Except PyError α → CallAt → Prop} (hx : Stocking T x)
    (hkey : ∀ r, (f r).sku = r.sku) (hsku : stock.sku = sku)
    (hf : f stock = { stock with quantity := stock.quantity + delta })
    (hsale : reason = .SALE → (belowZero = true ↔ stock.quantity + delta < 0))
    (hpin : x.Pins (fun d => (x.txn.view d).inventory.find sku = some stock))
    (hT : ∀ d v v', T d v → v.inventory.find sku = some stock → StockStep v v' →
      v'.inventory = v.inventory.put { stock with quantity := stock.quantity + delta } → T' d v')
    (h : ∀ y, Stocking T' y → K.wp c next Q y) (he : ∀ y e, Q (.error e) y) :
    K.wp c (do
      inventory.updateIf taken sku f
      recordMovement sku delta reason sourceType sourceId belowZero
      next) Q x := by
  subst hsku
  refine wp_changeStock hx.live hkey hpin (fun y id hy hlive hw hpins => ?_) fun y _ => he y _
  refine h y (hx.step hy hlive hw (hpins.mono fun d hd ht => ?_))
  have hchange := StockStep.change (d := x.txn.view d) stock
    ⟨id, stock.sku, delta, reason, sourceType, sourceId, belowZero⟩ hd.1 hd.2 rfl hsale
  rw [hf]
  exact hT d _ _ ht hd.1 hchange rfl

/-- A stock row under its lock; without one the tool gives up or raises. -/
theorem wp_stockRow {α : Type} {sku : String} {next : Option Inventory → Async α}
    {Q : Except PyError α → CallAt → Prop} (hx : Stocking T x)
    (hnone : ∀ y, Stocking T y → K.wp c (next none) Q y)
    (hsome : ∀ y stock, Stocking T y → stock.sku = sku →
      y.Pins (fun d => (y.txn.view d).inventory.find sku = some stock) →
      K.wp c (next (some stock)) Q y) (he : ∀ y e, Q (.error e) y) :
    K.wp c (inventory.findForUpdate sku >>= next) Q x := by
  rw [wp_bind]
  refine wp_lockStock hx.live (fun s hs _ _ => hnone _ (hx.extends (.now hs) rfl hx.live))
    (fun y stock hy hlive hw hsku hpin => ?_) fun y _ => he y _
  refine hsome y stock (hx.extends hy hw hlive) hsku (hpin.mono fun d hd => ?_)
  rw [view_congr hw]
  exact hd

theorem stocks_ret {α : Type} {a : α} (hx : Stocking T x) : K.wp c (.ret a) (Stocks T α) x := .ok hx

theorem stocks_raise {α : Type} {e : PyError} : K.wp c (.raise e) (Stocks T α) x := .error e x

/-- A parameter that is taken changes nothing. -/
theorem wp_param {α : Type} {taken : Bool} {next : Async α} {Q : Except PyError α → CallAt → Prop}
    (h : K.wp c next Q x) (he : ∀ e, Q (.error e) x) :
    K.wp c (do bindParam taken; next) Q x := by
  cases taken with
  | true => exact h
  | false => exact he _

/-- Sequencing of tools. -/
theorem stocks_bind {α β : Type} {p : Async α} {next : α → Async β}
    (hp : K.wp c p (Stocks T α) x) (h : ∀ a y, Stocking T y → K.wp c (next a) (Stocks T' β) y) :
    K.wp c (p >>= next) (Stocks T' β) x := by
  rw [wp_bind]
  refine wp_mono (fun r y hr => ?_) hp
  cases r with
  | ok a => exact h a y (hr a rfl)
  | error e => exact .error e y

/-- A stock row rewritten without a movement: a new state, or the same quantity. -/
theorem wp_stockRestate {α : Type} {next : Async α} {sku : String} {stock : Inventory}
    {f : Inventory → Inventory} (hx : Stocking T x) (hkey : ∀ r, (f r).sku = r.sku)
    (hsku : stock.sku = sku) (st : InventoryState) (hf : f stock = { stock with state := st })
    (hpin : x.Pins (fun d => (x.txn.view d).inventory.find sku = some stock))
    (hT : ∀ d v v', T d v → v.inventory.find sku = some stock → StockStep v v' →
      v'.inventory = v.inventory.put { stock with state := st } → T' d v')
    (h : ∀ y, Stocking T' y → K.wp c next (Stocks T' α) y) :
    K.wp c (do inventory.update sku f; next) (Stocks T' α) x := by
  subst hsku
  rw [wp_bind]
  refine inventory.wp_update_pinned hx.live hkey hpin (fun y hy hlive hw => ?_)
    fun y _ => .error _ y
  refine h y (hx.step hy hlive hw ((hy.pins hpin).mono fun d hd ht => ?_))
  rw [hf]
  exact hT d _ _ ht hd (StockStep.restate (d := x.txn.view d) stock st hd) rfl

/-! ## The tools -/

/-- A quantity is changed by `delta`. -/
def Adds (sku : String) (delta : Int) (d d' : Database) : Prop :=
  ∃ stock, d.inventory.find sku = some stock ∧ StockStep d d' ∧
    d'.inventory = d.inventory.put { stock with quantity := stock.quantity + delta }

theorem wp_decrementInventory {sku : String} {quantity : Int} (hx : Stocking T x)
    (hT : ∀ d v v', T d v → Adds sku (-quantity) v v' → T d v') :
    K.wp c (decrementInventory sku quantity) (Stocks T Int) x := by
  refine wp_stockRow hx (fun y hy => stocks_ret hy) (fun y stock hy hsku hpin => ?_)
    fun y e => .error e y
  dsimp only
  split_ifs
  · exact stocks_ret hy
  · exact wp_stockChange hy (fun _ => rfl) hsku rfl (fun h => by cases h) hpin
      (fun d v v' ht hfind hs hput => hT d v v' ht ⟨stock, hfind, hs, hput⟩)
      (fun z hz => stocks_ret hz) fun y e => .error e y

theorem wp_incrementInventory {sku : String} {quantity : Int} {reason : Option MovementReason}
    {sourceType sourceId : Option String} (hx : Stocking T x)
    (hT : ∀ d v v', T d v → Adds sku quantity v v' → T' d v') :
    K.wp c (incrementInventory sku quantity reason sourceType sourceId) (Stocks T' String) x := by
  apply wp_param _ fun e => .error e x
  refine wp_stockRow hx (fun y _ => stocks_raise) (fun y stock hy hsku hpin => ?_)
    fun y e => .error e y
  apply wp_param _ fun e => .error e y
  refine wp_stockChange hy (fun _ => rfl) hsku rfl (fun h => ?_) hpin
    (fun d v v' ht hfind hs hput => hT d v v' ht ⟨stock, hfind, hs, hput⟩)
    (fun z hz => stocks_ret hz) fun y e => .error e y
  split_ifs at h

/-- A quantity is set. -/
def Sets (sku : String) (quantity : Int) (d d' : Database) : Prop :=
  ∃ stock, d.inventory.find sku = some stock ∧ StockStep d d' ∧
    d'.inventory = d.inventory.put { stock with quantity := quantity }

theorem wp_setInventoryQuantity {sku : String} {quantity : Int} (hx : Stocking T x)
    (hT : ∀ d v v', T d v → Sets sku quantity v v' → T' d v') :
    K.wp c (setInventoryQuantity sku quantity) (Stocks T' String) x := by
  refine wp_stockRow hx (fun y _ => stocks_raise) (fun y stock hy hsku hpin => ?_)
    fun y e => .error e y
  have hq : stock.quantity + (quantity - stock.quantity) = quantity := by omega
  dsimp only
  split_ifs with hdelta
  · refine wp_stockChange hy (fun _ => rfl) hsku ?_ (fun h => by cases h) hpin
      (fun d v v' ht hfind hs hput => hT d v v' ht ⟨stock, hfind, hs, ?_⟩)
      (fun z hz => stocks_ret hz) fun y e => .error e y
    · rw [hq]
    · rw [hput, hq]
  · have hsame : quantity = stock.quantity := by omega
    refine wp_stockRestate hy (fun _ => rfl) hsku stock.state ?_ hpin
      (fun d v v' ht hfind hs hput => hT d v v' ht ⟨stock, hfind, hs, ?_⟩)
      fun z hz => stocks_ret hz
    · rw [hsame]
    · rw [hput, hsame]

/-- The state of a stock row is computed from its quantity. -/
def Restates (sku : String) (d d' : Database) : Prop :=
  ∃ stock, d.inventory.find sku = some stock ∧ StockStep d d' ∧
    d'.inventory = d.inventory.put { stock with state := stateOfQuantity stock.quantity }

theorem wp_setInventoryState {sku : String} (hx : Stocking T x)
    (hT : ∀ d v v', T d v → Restates sku v v' → T' d v') :
    K.wp c (setInventoryState sku) (Stocks T' String) x := by
  refine wp_stockRow hx (fun y _ => stocks_raise) (fun y stock hy hsku hpin => ?_)
    fun y e => .error e y
  exact wp_stockRestate hy (fun _ => rfl) hsku _ rfl hpin
    (fun d v v' ht hfind hs hput => hT d v v' ht ⟨stock, hfind, hs, hput⟩)
    fun z hz => stocks_ret hz

theorem stocks_reserveSku {orderId sku : String} {qty : Int}
    (hT : ∀ d v v', T d v → StockStep v v' → T d v') (hx : Stocking T x) :
    K.wp c (reserveSku orderId sku qty) (Stocks T Bool) x := by
  refine wp_stockRow hx (fun y hy => stocks_ret hy) (fun y stock hy hsku hpin => ?_)
    fun y e => .error e y
  exact wp_stockChange hy (fun _ => rfl) hsku rfl (fun _ => by simp [Int.sub_eq_add_neg]) hpin
    (fun d v v' ht _ hs _ => hT d v v' ht hs) (fun z hz => stocks_ret hz) fun y e => .error e y

theorem stocks_select {α : Type} {f : Database → α} (hx : Stocking T x) :
    K.wp c (Prog.select f) (Stocks T α) x :=
  wp_select hx.live (fun _ hs _ => .ok (hx.extends (.now hs) rfl hx.live)) fun y _ => .error _ y

theorem stocks_ofExcept {α : Type} {r : Except PyError α} (hx : Stocking T x) :
    K.wp c (ofExcept r) (Stocks T α) x := by
  cases r with
  | ok a => exact stocks_ret hx
  | error e => exact stocks_raise

theorem stocks_reserveItem {orderId : String} {item : Json}
    (hT : ∀ d v v', T d v → StockStep v v' → T d v') (hx : Stocking T x) :
    K.wp c (reserveItem orderId item) (Stocks T Bool) x := by
  refine stocks_bind (stocks_ofExcept hx) fun fields y hy => ?_
  obtain ⟨sku, qty, productId⟩ := fields
  have hsku : K.wp c (resolveSku sku productId) (Stocks T Json) y := by
    rw [resolveSku]
    split_ifs
    · exact stocks_ret hy
    · exact stocks_bind (stocks_ofExcept hy) fun id z hz =>
        stocks_bind (stocks_select hz) fun _ w hw => stocks_ret hw
    · exact stocks_ret hy
  refine stocks_bind hsku fun v z hz => ?_
  split_ifs
  · cases v with
    | str sku => exact stocks_reserveSku hT hz
    | null => exact stocks_raise
    | bool b => exact stocks_raise
    | int n => exact stocks_raise
    | float q => exact stocks_raise
    | nan => exact stocks_raise
    | inf negative => exact stocks_raise
    | arr l => exact stocks_raise
    | obj l => exact stocks_raise
  · exact stocks_ret hz

theorem stocks_reserveItems {orderId : String} {items : List Json} {acc : Bool}
    (hT : ∀ d v v', T d v → StockStep v v' → T d v') (hx : Stocking T x) :
    K.wp c (reserveItems orderId items acc) (Stocks T Bool) x := by
  induction items generalizing x acc with
  | nil => exact stocks_ret hx
  | cons item rest ih => exact stocks_bind (stocks_reserveItem hT hx) fun _ y hy => ih hy

theorem stocks_reserveInventoryItems {orderId : String}
    (hT : ∀ d v v', T d v → StockStep v v' → T d v') (hx : Stocking T x) :
    K.wp c (reserveInventoryItems orderId) (Stocks T Int) x := by
  refine stocks_bind (stocks_ofExcept hx) fun id y hy => ?_
  refine stocks_bind (stocks_select hy) fun found z hz => ?_
  cases found with
  | none => exact stocks_raise
  | some row =>
      exact stocks_bind (stocks_ofExcept hz) fun items w hw =>
        stocks_bind (stocks_reserveItems hT hw) fun _ u hu => stocks_ret hu

/-! ## The sessions -/

/-- What a session of the call may commit: changes of the stock that come to what
the call is for. -/
def StockSession (c : Call) (d d' : Database) : Prop := StockSteps d d' ∧ StockDone c d d'

theorem Stocking.commits {cfg : Settings} (h : Stocking (StockSession c) x)
    (hc : c.isStock = true) {s : State} (hs : K.Later c x s) :
    Commits cfg K.assume K.rely c x.past s x.txn.writes (x.txn.view s.1) :=
  .stock hc (hs.pinned h.steps).1 (hs.pinned h.steps).2

/-- A session that commits a change of the stock and returns. -/
theorem stocks_commit {α : Type} {cfg : Settings} (hK : IsShop cfg K) (hc : K.calls c)
    (hstock : c.isStock = true) {a : α} {Q : Except PyError α → CallAt → Prop}
    (hx : Stocking (StockSession c) x) (h : ∀ y r, y.txn = {} → Q r y) :
    K.wp c (Prog.commitSession >>= fun _ => .ret a)
      (fun r y => ∀ s, K.Later c y s → K.assume c (y.now s) → Q r (y.now s).closed) x :=
  wp_commit hK hc hx.live (fun _ hs => hx.commits hstock hs) (fun _ y _ _ hy => h y _ hy.txn)
    fun _ _ _ _ _ => h _ _ rfl

theorem stocks_runStockTool {tool : StockTool} (hx : Stocking StockSteps x) :
    K.wp c (runStockTool tool) (Stocks StockSteps Unit) x := by
  have hT : ∀ d v v', StockSteps d v → StockStep v v' → StockSteps d v' :=
    fun _ _ _ h hs => h.tail hs
  cases tool with
  | decrement sku quantity =>
      exact stocks_bind (wp_decrementInventory hx fun d v v' h ⟨_, _, hs, _⟩ => hT d v v' h hs)
        fun _ _ hy => stocks_ret hy
  | increment sku quantity reason sourceType sourceId =>
      exact stocks_bind (wp_incrementInventory hx fun d v v' h ⟨_, _, hs, _⟩ => hT d v v' h hs)
        fun _ _ hy => stocks_ret hy
  | setQuantity sku quantity =>
      exact stocks_bind (wp_setInventoryQuantity hx fun d v v' h ⟨_, _, hs, _⟩ => hT d v v' h hs)
        fun _ _ hy => stocks_ret hy
  | setState sku =>
      exact stocks_bind (wp_setInventoryState hx fun d v v' h ⟨_, _, hs, _⟩ => hT d v v' h hs)
        fun _ _ hy => stocks_ret hy
  | reserve orderId =>
      exact stocks_bind (stocks_reserveInventoryItems hT hx) fun _ _ hy => stocks_ret hy

theorem stocks_runStockTools {tools : List StockTool} (hx : Stocking StockSteps x) :
    K.wp c (runStockTools tools) (Stocks StockSteps Unit) x := by
  induction tools generalizing x with
  | nil => exact stocks_ret hx
  | cons tool rest ih => exact stocks_bind (stocks_runStockTool hx) fun _ _ hy => ih hy

/-- A session that is left open to its end by tools. -/
theorem wp_stockTools {α β : Type} {tools : Async α} {next : α → Async β}
    {Q : Except PyError β → CallAt → Prop} (htools : K.wp c tools (Stocks T α) x)
    (hnext : ∀ a y, Stocking T y → K.wp c (next a) (fun r y => ∀ s, K.Later c y s →
      K.assume c (y.now s) → Q r (y.now s).closed) y)
    (h : ∀ y r, y.txn = {} → Q r y) : K.wp c (Prog.withSession (tools >>= next)) Q x := by
  refine wp_withSession ?_
  rw [wp_bind]
  refine wp_mono (fun r y hr => ?_) htools
  cases r with
  | ok a => exact hnext a y (hr a rfl)
  | error e => exact fun s _ _ => h _ _ rfl

theorem wp_stockSession {cfg : Settings} (hK : IsShop cfg K) {tools : List StockTool}
    {commit : Bool} (hc : K.calls (.stockSession tools commit))
    {Q : Except PyError Unit → CallAt → Prop} (hx : x.txn = {}) (h : ∀ y r, y.txn = {} → Q r y) :
    K.wp (.stockSession tools commit) (stockSession tools commit) Q x := by
  refine wp_stockTools (stocks_runStockTools (.start hx fun _ => .refl)) (fun _ y hy => ?_) h
  cases commit with
  | true =>
      have hcommit : Prog.commitSession = (Prog.commitSession >>= fun _ => .ret () : Async Unit) := rfl
      rw [if_pos rfl, hcommit]
      exact stocks_commit hK hc rfl ⟨hy.live, hy.steps.mono fun _ hd => ⟨hd, trivial⟩⟩ h
  | false => exact fun s _ _ => h _ _ rfl

/-- A new row without stock. -/
theorem OnlyNewStock.create {d v : Database} (h : OnlyNewStock d v) {row : Inventory}
    (hq : row.quantity = 0) (hst : row.state = .OUT_OF_STOCK) :
    v.inventory.find row.sku = none →
      OnlyNewStock d { v with inventory := v.inventory.put row } := by
  intro habs sku
  by_cases hsku : row.sku = sku
  · subst hsku
    exact Or.inr ⟨row, Table.find_put_self _ _, hq, hst⟩
  · have hput := Table.find_put_of_ne v.inventory (r := row) hsku
    rw [show ({ v with inventory := v.inventory.put row } : Database).inventory.find sku =
      v.inventory.find sku from hput]
    exact h sku

theorem stocks_syncRows {rows : List (String × String)}
    (hx : Stocking (StockSession .syncFromMenu) x) :
    K.wp c (syncRows rows) (Stocks (StockSession .syncFromMenu) Nat) x := by
  induction rows generalizing x with
  | nil => exact stocks_ret hx
  | cons row rest ih =>
      refine stocks_bind ?_ fun new y hy => stocks_bind (ih hy) fun _ z hz => stocks_ret hz
      refine inventory.wp_insertIfAbsent hx.live
        (fun s _ hs _ _ => .ok (hx.extends (.now hs) rfl hx.live)) (fun s hs _ hpin => ?_)
        fun y _ => .error _ y
      refine .ok (hx.step ((Extends.now hs).trans (.wrote _)) hx.live rfl
        (hpin.mono fun d hd ht => ⟨ht.1.tail (.create _ hd rfl), ht.2.create rfl rfl hd⟩))

theorem wp_syncFromMenu {cfg : Settings} (hK : IsShop cfg K) (hc : K.calls .syncFromMenu)
    {Q : Except PyError InventorySyncResult → CallAt → Prop}
    (hx : x.txn = {}) (h : ∀ y r, y.txn = {} → Q r y) : K.wp .syncFromMenu syncFromMenu Q x := by
  have hstart : Stocking (StockSession .syncFromMenu) x := .start hx fun _ => ⟨.refl, fun _ => Or.inl rfl⟩
  refine wp_stockTools (stocks_select hstart) (fun rows y hy => ?_) h
  rw [wp_bind]
  refine wp_mono (fun r z hr => ?_) (stocks_syncRows hy)
  cases r with
  | ok created => exact stocks_commit hK hc rfl (hr created rfl) h
  | error e => exact fun s _ _ => h _ _ rfl

/-- The session has set the quantity of a row. -/
def HasSet (sku : String) (quantity : Int) (d d' : Database) : Prop :=
  StockSteps d d' ∧ ∃ stock, d.inventory.find sku = some stock ∧
    d'.inventory = d.inventory.put { stock with quantity := quantity }

/-- A quantity that is set, with its state computed after it. -/
theorem HasSet.restate {sku : String} {quantity : Int} {d v v' : Database}
    (h : HasSet sku quantity d v) (hr : Restates sku v v') :
    StockSession (.setQuantity sku quantity) d v' := by
  obtain ⟨hsteps, stock, hfind, hput⟩ := h
  obtain ⟨stock', hfind', hs, hput'⟩ := hr
  have hsku : stock.sku = sku := (Table.find_some hfind).2
  subst hsku
  refine ⟨hsteps.tail hs, stock, hfind, ?_⟩
  have hself : v.inventory.find stock.sku = some { stock with quantity := quantity } := by
    rw [hput]
    exact Table.find_put_self _ _
  rw [hfind'] at hself
  obtain rfl := Option.some.inj hself
  rw [hput', hput]
  exact Table.put_put rfl

theorem wp_setQuantity {cfg : Settings} (hK : IsShop cfg K) {sku : String} {quantity : Int}
    (hc : K.calls (.setQuantity sku quantity))
    {Q : Except PyError Inventory → CallAt → Prop} (hx : x.txn = {})
    (h : ∀ y r, y.txn = {} → Q r y) :
    K.wp (.setQuantity sku quantity) (setQuantity sku quantity) Q x := by
  have hclose : ∀ y (r : Except PyError Inventory) s, K.Later (.setQuantity sku quantity) y s →
      K.assume (.setQuantity sku quantity) (y.now s) → Q r (y.now s).closed :=
    fun y r s _ _ => h _ r rfl
  refine wp_stockTools (T := HasSet sku quantity)
    (wp_setInventoryQuantity (T := fun d d' => d' = d) (.start hx fun _ => rfl)
      fun d v v' hd ⟨stock, hfind, hs, hput⟩ => ?_) (fun _ y hy => ?_) h
  · subst hd
    exact ⟨.single hs, stock, hfind, hput⟩
  rw [wp_bind]
  refine wp_mono (fun r z hr => ?_) (wp_setInventoryState hy fun d v v' hv hr => hv.restate hr)
  cases r with
  | error e => exact hclose z _
  | ok _ =>
      have hz := hr _ rfl
      dsimp only
      rw [wp_bind]
      refine wp_commitSession hz.live (fun s hs ha => ?_) fun y _ => hclose y _
      obtain ⟨hg, hi⟩ := hK.guar (.setQuantity sku quantity) z.past s _ hc hs.inv
        (.committed z.txn ha (hz.commits rfl hs))
      refine ⟨hg, hi, ?_⟩
      dsimp only
      rw [wp_bind]
      refine inventory.wp_find rfl (fun s' hs' _ => ?_) fun y _ => hclose y _
      dsimp only
      cases (inventory.table _).find sku with
      | none => exact hclose _ _
      | some row => exact hclose _ _

/-! ## The restock agent -/

theorem stocks_validateApplyRestockCommand {command : Json} (hx : Stocking T x) :
    K.wp c (validateApplyRestockCommand command) (Stocks T Int) x := by
  rw [validateApplyRestockCommand]
  split
  · exact stocks_ret hx
  · apply wp_param _ fun e => .error e x
    exact stocks_bind (stocks_select hx) fun _ y hy => stocks_ret hy

theorem stocks_applyRestockCommand {command : Json} (hx : Stocking (fun d d' => d' = d) x) :
    K.wp c (applyRestockCommand command) (Stocks (StockSession (.applyRestock command)) String)
      x := by
  rw [applyRestockCommand]
  cases hfields : requiredApplyFields command with
  | none => exact stocks_raise
  | some fields =>
      obtain ⟨sku, quantity⟩ := fields
      refine wp_incrementInventory hx fun d v v' hd ⟨stock, hfind, hs, hput⟩ => ?_
      subst hd
      exact ⟨.single hs, sku, quantity, stock, hfields, hfind, hput⟩

/-- The program of a restock command: where its terminal tool has run, the stock
is added. -/
theorem stocks_programApplyRestock {command : Json} (hx : Stocking (fun d d' => d' = d) x) :
    K.wp c (vmRun restockTools programApplyRestock [(.command, .command command)])
      (fun r y => ∀ t v, r = .ok t → t.success = true → lookup t.outputs .apply_command = some v →
        Stocking (StockSession (.applyRestock command)) y) x := by
  change K.wp c (runFrom restockTools programApplyRestock [(.command, .command command)] 4
    .validate_command []) _ x
  refine wp_runFrom_next programApplyRestock[0] rfl rfl ?_
  change K.wp c (validateApplyRestockCommand command >>= fun valid => .ret (Value.number valid)) _ x
  rw [wp_bind]
  refine wp_mono (fun r y hr => ?_) (stocks_validateApplyRestockCommand hx)
  cases r with
  | error e => exact fun t v ht hs => by cases ht; simp [VmTrace.success] at hs
  | ok n =>
      have hy := hr n rfl
      change K.wp c (runFrom restockTools programApplyRestock [(.command, .command command)] 2
        (if decide (n < 1) = true then .report_invalid else .apply_command)
        [(.validate_command, .number n), (.validation_result, .number n)]) _ y
      by_cases hn : decide (n < 1) = true
      · rw [if_pos hn]
        refine wp_runFrom_last programApplyRestock[3] rfl rfl ?_
        intro t v ht _ hv
        cases ht
        cases hv
      · rw [if_neg hn]
        refine wp_runFrom_last programApplyRestock[2] rfl rfl ?_
        change K.wp c (applyRestockCommand command >>= fun ok => .ret (Value.text ok)) _ y
        rw [wp_bind]
        refine wp_mono (fun r z hr => ?_) (stocks_applyRestockCommand hy)
        cases r with
        | error e => exact fun t v ht hs => by cases ht; simp [VmTrace.success] at hs
        | ok ok => exact fun t v _ _ _ => hr ok rfl

theorem wp_applyRestock {cfg : Settings} (hK : IsShop cfg K) {command : Json}
    (hc : K.calls (.applyRestock command)) {Q : Except PyError Bool → CallAt → Prop}
    (hx : x.txn = {}) (h : ∀ y r, y.txn = {} → Q r y) :
    K.wp (.applyRestock command) (applyRestock command) Q x := by
  have hclose : ∀ y (r : Except PyError Bool) s, K.Later (.applyRestock command) y s →
      K.assume (.applyRestock command) (y.now s) → Q r (y.now s).closed := fun y r s _ _ => h _ r rfl
  refine wp_withSession ?_
  rw [wp_bind]
  refine wp_mono (fun r y hr => ?_) (stocks_programApplyRestock (.start hx fun _ => rfl))
  cases r with
  | error e => exact hclose y _
  | ok trace =>
      dsimp only
      split_ifs with hs
      · cases hv : lookup trace.outputs .apply_command with
        | none => exact hclose y _
        | some v => exact stocks_commit hK hc rfl (hr trace v rfl hs hv) h
      · exact hclose y _

end Specs

end Sieshka
