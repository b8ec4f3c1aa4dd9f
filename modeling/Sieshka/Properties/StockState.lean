import Sieshka.Properties.Cooking

/-!
# Stock states that go stale

`set_quantity` and `sync_from_menu` write the state that belongs to a quantity.
A sale and a restock write the quantity alone, so the state stays right as long
as they do not take a quantity over a threshold.
-/

namespace Sieshka

open Transactions Contract

/-- Every inventory row has the state that belongs to its quantity. -/
def Agrees (d : Database) : Prop :=
  ∀ stock ∈ d.inventory.rows, stock.state = stateOfQuantity stock.quantity

instance (d : Database) : Decidable (Agrees d) := inferInstanceAs (Decidable (∀ _ ∈ _, _))

/-- The state of the row is right after a change by `delta` as well. -/
def KeepsState (stock : Inventory) (delta : Int) : Prop :=
  stateOfQuantity (stock.quantity + delta) = stateOfQuantity stock.quantity

instance (stock : Inventory) (delta : Int) : Decidable (KeepsState stock delta) :=
  inferInstanceAs (Decidable (_ = _))

theorem Agrees.of_find {d : Database} (h : Agrees d) {sku : String} {stock : Inventory}
    (hs : d.inventory.find sku = some stock) : stock.state = stateOfQuantity stock.quantity :=
  h stock (Table.find_some hs).1

theorem Agrees.of_same {d d' : Database} (h : Agrees d) (hi : d'.inventory = d.inventory) :
    Agrees d' := by
  rw [Agrees, hi]
  exact h

theorem Agrees.put {d d' : Database} (h : Agrees d) {row : Inventory}
    (hput : d'.inventory = d.inventory.put row) (hrow : row.state = stateOfQuantity row.quantity) :
    Agrees d' := by
  intro stock hstock
  rw [hput] at hstock
  rcases Table.mem_put hstock with rfl | hold
  · exact hrow
  · exact h stock hold

/-! ## The calls that write stock -/

/-- `sync_from_menu`, `set_quantity`, `apply_restock` and `START_COOKING`. -/
def Call.writesStock (k : Call) : Bool :=
  match k with
  | .stockSession _ _ => false
  | _ => k.isStock || k.cooks.isSome

/-- The call is a `sync_from_menu`. -/
def Call.isSync : Call → Bool
  | .syncFromMenu => true
  | _ => false

/-- `sync_from_menu` is not in progress together with a `START_COOKING`. -/
def Call.apartInStock (k k' : Call) : Prop :=
  (k.isSync = true → k'.cooks = none) ∧ (k'.isSync = true → k.cooks = none)

instance (k k' : Call) : Decidable (k.apartInStock k') := inferInstanceAs (Decidable (_ ∧ _))

/-- The sku a restock command adds to, and how much. -/
def Call.restocks : Call → Option (String × Int)
  | .applyRestock command => requiredApplyFields command
  | _ => none

/-- The quantities the call changes without their state may change so: a restock
by its quantity, and a `START_COOKING` by all that its order takes. -/
def Call.KeepsStates (d : Database) (k : Call) : Prop :=
  (∀ fields ∈ k.restocks, ∀ stock ∈ d.inventory.find fields.1, KeepsState stock fields.2) ∧
    ∀ row ∈ k.cooks.bind d.orders.find, ∀ items ∈ row.items.iter.toOption,
      ∀ stock ∈ d.inventory.rows, KeepsState stock (-taken (soldLines d items) stock.sku)

instance (d : Database) (k : Call) : Decidable (k.KeepsStates d) :=
  inferInstanceAs (Decidable (_ ∧ _))

theorem Call.KeepsStates.of_cooks {k : Call} {d : Database} {o : Uuid} (h : k.KeepsStates d)
    (ho : k.cooks = some o) {row : Order} (hrow : d.orders.find o = some row) {items : List Json}
    (hitems : row.items.iter = .ok items) :
    ∀ stock ∈ d.inventory.rows, KeepsState stock (-taken (soldLines d items) stock.sku) := by
  have hopt : items ∈ row.items.iter.toOption := by
    rw [hitems]
    rfl
  exact h.2 row (by rw [ho]; exact hrow) items hopt

/-- What a sale does to every row. -/
theorem Sells.find {orderId : String} {lines : List (String × Int)} {d d' : Database}
    (h : Sells orderId lines d d') (sku : String) :
    d'.inventory.find sku = (d.inventory.find sku).map fun stock =>
      { stock with quantity := stock.quantity + -taken lines sku } := by
  induction h with
  | nil d => simp [taken]
  | @snoc lines d d₁ stock qty id _ hs _ ih =>
      rw [taken_snoc, Database.sell, Table.find_put]
      by_cases hsku : stock.sku = sku
      · rw [if_pos hsku, if_pos hsku]
        rw [← hsku, hs] at ih
        obtain ⟨old, hold, heq⟩ := Option.map_eq_some_iff.mp ih.symm
        have hq := congrArg Inventory.quantity heq
        have hrow : ({ old with quantity := stock.quantity } : Inventory) = stock := by
          rw [← hq]
          exact heq
        rw [← hsku, hold, Option.map_some, neg_add, ← add_assoc]
        change some { stock with quantity := stock.quantity - qty } =
          some { old with quantity := old.quantity + -taken lines stock.sku + -qty }
        rw [show old.quantity + -taken lines stock.sku = stock.quantity from hq]
        exact congrArg (fun r : Inventory => some { r with quantity := stock.quantity + -qty })
          hrow.symm
      · rw [if_neg hsku, if_neg hsku, ih, add_zero]

theorem Sells.agrees {orderId : String} {lines : List (String × Int)} {d d' : Database}
    (h : Sells orderId lines d d') (hd : Agrees d)
    (hkeep : ∀ stock ∈ d.inventory.rows, KeepsState stock (-taken lines stock.sku)) :
    Agrees d' := by
  intro stock hstock
  have hfind := h.find stock.sku
  rw [Table.find_of_mem hstock] at hfind
  obtain ⟨old, hold, heq⟩ := Option.map_eq_some_iff.mp hfind.symm
  obtain ⟨hmem, hsku⟩ := Table.find_some hold
  have hk := hkeep old hmem
  rw [hsku] at hk
  rw [← heq]
  exact (hd old hmem).trans hk.symm

/-! ## Runs of these calls -/

/-- Runs of calls that write stock. -/
def stockCalls (cfg : Settings) : ShopContract :=
  { shopContract cfg (fun c => c.writesStock = true) (fun _ _ => True)
      (fun c s s' => Evolves s s' ∧ (c.cooks.isSome = true → NoNewStock s.1 s'.1))
      fun _ _ => True with
    apart := Call.apartInStock }

theorem NoNewStock.put {d d' : Database} {stock row : Inventory}
    (hput : d'.inventory = d.inventory.put row) (hs : d.inventory.find row.sku = some stock) :
    NoNewStock d d' := by
  intro sku hn
  have hne : row.sku ≠ sku := fun he => by rw [← he, hs] at hn; cases hn
  rw [hput, Table.find_put_of_ne _ hne, hn]

section Commits

variable {cfg : Settings} {A : Call → CallAt → Prop} {R : Call → State → State → Prop} {c : Call}
variable {past : Past} {s : State} {ws : List Write} {d' : Database}

/-- A commit of a call that manages the stock does what the call is for. -/
theorem Commits.stockDone (hc : c.isStock = true) (h : Commits cfg A R c past s ws d') :
    StockDone c s.1 d' := by
  cases h with
  | stock _ _ hdone => exact hdone
  | duplicate row hk _ => cases c <;> simp [Call.isStock, MayRecord] at hc hk
  | recorded row hk _ => cases c <;> simp [Call.isStock, MayRecord] at hc hk
  | answered body he _ _ _ _ _ => subst he; cases hc
  | customer body he _ _ => subst he; cases hc
  | placed body he _ _ _ _ _ _ _ _ _ => subst he; cases hc
  | moved row row' event st _ hm _ _ _ => cases c <;> simp [Call.isStock, May] at hc hm
  | cooked row row' orderId items lines d₁ ticket _ hm _ _ _ _ _ _ _ _ _ =>
      cases c <;> simp [Call.isStock, May] at hc hm
  | paymentCreated row order orders' _ _ _ hm _ _ =>
      cases c <;> simp [Call.isStock, MayPay] at hc hm
  | settled kind orderId row order orders' _ _ hm _ _ _ _ =>
      cases c <;> simp [Call.isStock, MaySettle] at hc hm
  | ticketMoved row event st _ hm _ => cases c <;> simp [Call.isStock, MayMove] at hc hm

/-- Only `sync_from_menu` adds rows to the inventory. -/
theorem Commits.noNewStock_of_ne_sync (hc : c.writesStock = true) (hne : c ≠ .syncFromMenu)
    (h : Commits cfg A R c past s ws d') : NoNewStock s.1 d' := by
  cases hstock : c.isStock with
  | false => exact h.noNewStock hstock
  | true =>
      have hdone := h.stockDone hstock
      cases c with
      | syncFromMenu => exact absurd rfl hne
      | setQuantity sku quantity =>
          obtain ⟨stock, hs, hput⟩ := hdone
          obtain rfl := (Table.find_some hs).2
          exact .put hput hs
      | applyRestock command =>
          obtain ⟨sku, quantity, stock, -, hs, hput⟩ := hdone
          obtain rfl := (Table.find_some hs).2
          exact .put hput hs
      | _ => simp [Call.isStock, Call.writesStock] at hstock hc

/-- A commit of a call that keeps the states keeps them right. -/
theorem Commits.agrees (hc : c.writesStock = true) (hk : c.KeepsStates s.1)
    (hkeys : c.cooks.isSome = true → ∀ z, Was A R c z s → ∀ sku,
      z.db.inventory.find sku = none → s.1.inventory.find sku = none)
    (h : Commits cfg A R c past s ws d') (hd : Agrees s.1) : Agrees d' := by
  cases hstock : c.isStock with
  | true =>
      have hdone := h.stockDone hstock
      cases c with
      | syncFromMenu =>
          intro stock hmem
          have hfind := Table.find_of_mem hmem
          rcases hdone stock.sku with hsame | ⟨row, hrow, hq, hst⟩
          · exact hd.of_find (hsame.symm.trans hfind)
          · obtain rfl := Option.some.inj (hrow.symm.trans hfind)
            rw [hst, hq]
            rfl
      | setQuantity sku quantity =>
          obtain ⟨stock, -, hput⟩ := hdone
          exact hd.put hput rfl
      | applyRestock command =>
          obtain ⟨sku, quantity, stock, hfields, hs, hput⟩ := hdone
          exact hd.put hput ((hd.of_find hs).trans (hk.1 (sku, quantity) hfields stock hs).symm)
      | _ => simp [Call.isStock, Call.writesStock] at hstock hc
  | false =>
      have hcooks : c.cooks.isSome = true := by
        cases c <;> simp_all [Call.isStock, Call.writesStock]
      obtain ⟨o, ho⟩ := Option.isSome_iff_exists.mp hcooks
      have hstarts := h.startsCooking ho
      cases h with
      | cooked row row' orderId items lines d₁ ticket hfind _ _ _ hrow hitems hlines hsells _ _ _ =>
          obtain rfl : row.id = o := by
            rw [← (hstarts.of_put row' (by rw [hsells.steps.same])).1, hrow]
          obtain rfl := hlines.eq_soldLines (hkeys hcooks) hsells.lines_isSome
          exact (hsells.agrees hd (hk.of_cooks ho hfind hitems)).of_same rfl
      | stock hs _ _ =>
          rw [hstock] at hs
          cases hs
      | duplicate _ _ _ => exact hd
      | recorded row _ _ => exact hd.of_same rfl
      | answered body _ id rest _ _ _ => exact hd.of_same rfl
      | customer body _ row _ => exact hd.of_same rfl
      | placed body _ id customerId items totalRub promoCode discountRub _ _ _ => exact hd.of_same rfl
      | moved row row' event st _ _ _ _ _ => exact hd.of_same rfl
      | paymentCreated row order orders' _ _ _ _ _ _ => exact hd.of_same rfl
      | settled kind orderId row order orders' _ _ _ _ _ _ _ => exact hd.of_same rfl
      | ticketMoved row event st _ _ _ => exact hd.of_same rfl

end Commits

section Runs

variable {cfg : Settings} {d : Database} {m : Memory} {c c' : ShopConfig}

theorem isShop_stockCalls (cfg : Settings) : IsShop cfg (stockCalls cfg) where
  guar _ _ _ _ _ _ h := ⟨h, trivial⟩
  rely _ _ _ h := h.1

theorem valid_stockCalls (cfg : Settings) : (stockCalls cfg).Valid (shop cfg) := by
  refine valid_shop (isShop_stockCalls cfg) (fun c c' past s s' hc _ hap _ h => ?_)
    (fun v d m m' h _ => ⟨trivial, fun _ => ⟨evolves_providerMove h, fun _ _ hn => hn⟩⟩)
    (fun _ _ _ => trivial) (fun _ _ _ _ _ _ _ _ _ => trivial) fun _ _ _ _ _ _ => trivial
  refine ⟨Does.evolves h, fun hcooks => ?_⟩
  have hne : c ≠ .syncFromMenu := by
    rintro rfl
    rw [hap.1 rfl] at hcooks
    cases hcooks
  cases h with
  | committed txn _ h => exact h.noNewStock_of_ne_sync hc hne
  | remembered _ => exact fun _ hn => hn

/-- The steps of a run of calls that write stock: a `sync_from_menu` waits for
the `START_COOKING` calls in progress and they for it. -/
def StockStepOk (c : ShopConfig) : Action Call ProviderMove → Prop
  | .call k => k.writesStock = true ∧
      ∀ t ∈ c.threads, t.inProgress = true → k.apartInStock t.call
  | _ => True

/-- The step commits no change of a quantity that needs another state. -/
def KeepsStates (c : ShopConfig) : Action Call ProviderMove → Prop
  | .run i _ => ∀ t ∈ c.threads[i]?, t.committing = true → t.call.KeepsStates c.db
  | _ => True

instance (c : ShopConfig) (a : Action Call ProviderMove) : Decidable (StockStepOk c a) :=
  match a with
  | .call _ => inferInstanceAs (Decidable (_ ∧ _))
  | .run _ _ | .fault _ | .kill _ | .restart | .world _ => isTrue trivial

instance (c : ShopConfig) (a : Action Call ProviderMove) : Decidable (KeepsStates c a) :=
  match a with
  | .run i _ => inferInstanceAs (Decidable (∀ t ∈ c.threads[i]?, _ → _))
  | .call _ | .fault _ | .kill _ | .restart | .world _ => isTrue trivial

theorem allows_stockCalls (c : ShopConfig) (a : Action Call ProviderMove) (h : StockStepOk c a) :
    (stockCalls cfg).Allows (S := shop cfg) c a := by
  cases a with
  | call k => exact ⟨h.1, fun t ht hp => ⟨h.2 t ht hp, (h.2 t ht hp).2, (h.2 t ht hp).1⟩⟩
  | run i n => exact fun _ _ => ⟨trivial, fun _ => trivial⟩
  | fault i => exact fun _ _ => ⟨trivial, trivial⟩
  | kill i => exact trivial
  | restart => exact trivial
  | world v => exact trivial

/-- A step that commits no change across a threshold keeps the states right. -/
theorem agrees_of_step {a : Action Call ProviderMove} (hc : (stockCalls cfg).Ok c)
    (ha : KeepsStates c a) (hs : (shop cfg).step c a = some c') (hd : Agrees c.db) :
    Agrees c'.db := by
  rcases committed_of_step (fun _ _ _ _ h => h) hc (fun _ _ => trivial) hs with
    hsame | ⟨i, n, t, txn, rfl, ht, hcom, h⟩
  · rw [hsame]
    exact hd
  · refine h.agrees (hc.calls t (List.mem_of_getElem? ht)) (ha t ht hcom) (fun hcooks z hz => ?_) hd
    exact hz.2.recOn (fun _ h => h) fun _ hr ih sku hn => hr.2 hcooks sku (ih sku hn)

/-- From an inventory in which every state belongs to its quantity, and as long
as no restock and no sale of an order takes a quantity over a threshold, every
state belongs to its quantity after every commit of `sync_from_menu`,
`set_quantity`, `apply_restock` and `START_COOKING`. -/
theorem stock_states_agree (hd : Agrees d)
    (h : (shop cfg).Runs (fun c a => StockStepOk c a ∧ KeepsStates c a) (Config.start d m) c) :
    Agrees c.db := by
  induction h with
  | refl => exact hd
  | step hr ha hs ih =>
      have hok := (Ok.start trivial).runs (valid_stockCalls cfg)
        (fun c a _ h => allows_stockCalls c a h.1) hr
      exact agrees_of_step hok ha.2 hs ih

end Runs

/-- An order of two pizzas of five. -/
def samplePizzaOrder : Database :=
  { databaseWith [sampleOrder 1 .PAID "cash" [.obj [("sku", .str "pizza"), ("qty", .int 2)]]] [] with
    inventory := (stockWith [⟨"pizza", "Pizza", 5, .LOW_STOCK⟩]).inventory }

/-- Two of five pizzas are sold: three are left, and they are `LOW_STOCK` still. -/
theorem stock_state_goes_stale :
    ¬ ∀ d m c, Agrees d → (shop sampleSettings).Runs StockStepOk (Config.start d m) c →
      Agrees c.db := by
  intro hall
  obtain ⟨c, hr, hc⟩ := exists_run_of_execIf sampleSettings StockStepOk
    (Config.start samplePizzaOrder {})
    (.call (.transitionOrder (Uuid.text 1) .START_COOKING) :: runs 0 15)
    (f := fun c => (c.db.inventory.rows, decide (Agrees c.db)))
    (v := ([⟨"pizza", "Pizza", 3, .LOW_STOCK⟩], false)) (by decide +kernel)
  have hno := of_decide_eq_false (Prod.mk.inj hc).2
  exact hno (hall samplePizzaOrder {} c (by decide) hr)

/-- After the quantity is set to twenty-four the same order crosses no threshold. -/
theorem stock_states_agree_set :
    ∃ c, (shop sampleSettings).Runs (fun c a => StockStepOk c a ∧ KeepsStates c a)
        (Config.start samplePizzaOrder {}) c ∧
      c.db.inventory.rows = [⟨"pizza", "Pizza", 22, .AVAILABLE⟩] ∧ Agrees c.db := by
  obtain ⟨c, hr, hc⟩ := exists_run_of_execIf sampleSettings
    (fun c a => StockStepOk c a ∧ KeepsStates c a) (Config.start samplePizzaOrder {})
    (.call (.setQuantity "pizza" 24) :: runs 0 2 ++ .run 0 1 :: runs 0 6 ++
      .call (.transitionOrder (Uuid.text 1) .START_COOKING) :: runs 1 15)
    (f := fun c => c.db.inventory.rows) (v := [⟨"pizza", "Pizza", 22, .AVAILABLE⟩])
    (by decide +kernel)
  exact ⟨c, hr, hc, stock_states_agree (by decide) hr⟩

end Sieshka
