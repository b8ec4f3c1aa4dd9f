import Sieshka.Services.OrderService
import Sieshka.Samples
import Sieshka.Transactions.Checks

/-!
# Orders with items that cannot be read

`create_order` stores any list of dictionaries and reads it back only after its
commit. An item that is no `OrderItem` and whose `price_rub` or `qty` is no integer
makes it raise with the order committed, and every list with this order with it.
-/

namespace Sieshka

open Transactions Prog

variable (cfg : Settings) (E₀ : Engine Database Write) (s : Quiet Database Memory)

/-! ## Reading items -/

/-- `_coerce_items` has a record for the item. -/
def coercible : Json → Bool
  | .obj fields => (cfg.orderItem fields).isSome ||
      (Json.get fields "price_rub" (.int 0)).toInt.isOk &&
        (Json.get fields "qty" (.int 1)).toInt.isOk
  | _ => true

theorem serial_coerceItem (raw : Json) : ∃ r, (coerceItem cfg raw).serial E₀ s = (r, s) ∧
    r.isOk = coercible cfg raw := by
  cases raw with
  | obj fields =>
      cases hitem : cfg.orderItem fields with
      | some item =>
          refine ⟨.ok item, ?_, ?_⟩
          · simp [coerceItem, hitem, serial]
          · simp [coercible, hitem, Except.isOk, Except.toBool]
      | none =>
          cases hprice : (Json.get fields "price_rub" (.int 0)).toInt with
          | error e =>
              refine ⟨.error e, ?_, ?_⟩
              · simp [coerceItem, hitem, hprice, uuid4, serial, andThen]
              · simp [coercible, hitem, hprice, Except.isOk, Except.toBool]
          | ok price =>
              cases hqty : (Json.get fields "qty" (.int 1)).toInt with
              | error e =>
                  refine ⟨.error e, ?_, ?_⟩
                  · simp [coerceItem, hitem, hprice, hqty, uuid4, serial, andThen]
                  · simp [coercible, hitem, hprice, hqty, Except.isOk, Except.toBool]
              | ok qty =>
                  refine ⟨.ok ⟨BitVec.ofNat 128 (E₀.supply s.view), jsonText cfg
                    (Json.get fields "sku" (Json.get fields "product_id" (.str "unknown"))),
                    price, qty⟩, ?_, ?_⟩
                  · simp [coerceItem, hitem, hprice, hqty, uuid4, serial, andThen]
                  · simp [coercible, hitem, hprice, hqty, Except.isOk, Except.toBool]
  | null => exact ⟨.ok _, rfl, rfl⟩
  | bool b => exact ⟨.ok _, rfl, rfl⟩
  | int n => exact ⟨.ok _, rfl, rfl⟩
  | float q => exact ⟨.ok _, rfl, rfl⟩
  | nan => exact ⟨.ok _, rfl, rfl⟩
  | inf negative => exact ⟨.ok _, rfl, rfl⟩
  | str s => exact ⟨.ok _, rfl, rfl⟩
  | arr elements => exact ⟨.ok _, rfl, rfl⟩

/-- Items are read without a statement, one record for each. -/
theorem serial_coerceItems (items : List Json) :
    ∃ r, (coerceItems cfg items).serial E₀ s = (r, s) ∧ r.isOk = items.all (coercible cfg) ∧
      ∀ read, r = .ok read → read.length = items.length := by
  induction items with
  | nil => exact ⟨.ok [], rfl, rfl, fun read h => by cases h; rfl⟩
  | cons raw rest ih =>
      obtain ⟨r, hr, hok⟩ := serial_coerceItem cfg E₀ s raw
      obtain ⟨q, hq, hall, hlen⟩ := ih
      cases r with
      | error e =>
          refine ⟨.error e, ?_, ?_, fun read h => by cases h⟩
          · rw [coerceItems, bind_eq, serial_andThen, hr]
            rfl
          · rw [List.all_cons, ← hok]
            rfl
      | ok item =>
          cases q with
          | error e =>
              refine ⟨.error e, ?_, ?_, fun read h => by cases h⟩
              · simp only [coerceItems, bind_eq, serial_andThen, hr, hq]
                rfl
              · rw [List.all_cons, ← hok, ← hall]
                rfl
          | ok read =>
              refine ⟨.ok (item :: read), ?_, ?_, fun read' h => ?_⟩
              · simp only [coerceItems, bind_eq, serial_andThen, hr, hq]
                rfl
              · rw [List.all_cons, ← hok, ← hall]
                rfl
              · obtain rfl := Except.ok.inj h
                rw [List.length_cons, List.length_cons, hlen read rfl]

/-- What `coerceItems` returns, when every item can be read. -/
theorem returns_coerceItems {items : List Json} (h : items.all (coercible cfg) = true) :
    ∃ read, (coerceItems cfg items).Returns E₀ s read s ∧ read.length = items.length := by
  obtain ⟨r, hr, hok, hlen⟩ := serial_coerceItems cfg E₀ s items
  cases r with
  | error e =>
      rw [h] at hok
      cases hok
  | ok read => exact ⟨read, hr, hlen read rfl⟩

/-! ## The three readers -/

/-- What is read of a row is the row, with a record for each of its items. -/
structure Reads (row : Order) (read : OrderRead) : Prop where
  id : read.id = row.id
  customerId : read.customerId = row.customerId
  state : read.state = row.state
  deliveryAddress : read.deliveryAddress = row.deliveryAddress
  items : ∃ stored, row.items = .arr stored ∧ read.items.length = stored.length

/-- Every item of the row can be read. -/
def Readable (row : Order) : Prop :=
  ∃ stored, row.items = .arr stored ∧ stored.all (coercible cfg) = true

theorem returns_readOrders (rows : List (Order × Option Customer))
    (h : ∀ p ∈ rows, Readable cfg p.1) :
    ∃ reads, (readOrders cfg rows).Returns E₀ s reads s ∧
      List.Forall₂ Reads (rows.map Prod.fst) reads := by
  induction rows with
  | nil => exact ⟨[], rfl, .nil⟩
  | cons p rest ih =>
      obtain ⟨row, customer⟩ := p
      obtain ⟨stored, hstored, hall⟩ := h _ List.mem_cons_self
      obtain ⟨read, hread, hlen⟩ := returns_coerceItems cfg E₀ s hall
      obtain ⟨reads, hreads, hrest⟩ := ih fun p hp => h p (List.mem_cons_of_mem _ hp)
      dsimp only at hstored
      refine ⟨fetchedOrder row customer read :: reads, ?_,
        .cons ⟨rfl, rfl, rfl, rfl, stored, hstored, hlen⟩ hrest⟩
      simp only [readOrders, hstored, Json.iter, ofExcept_ok, bind_eq, andThen, returns_andThen]
      exact ⟨read, s, hread, reads, s, hreads, rfl⟩

/-- Every reader returns what matches, when every item of every order can be read. -/
def BoardsRead (d : Database) (m : Memory) : Prop :=
  (∀ stateFilter, ∀ list ∈ [fetchOrders cfg stateFilter, listOrders cfg stateFilter],
    ∃ reads s', list.Returns E₀ (.start d m) reads s' ∧
      List.Forall₂ Reads (matchingOrders stateFilter d) reads) ∧
  ∀ id, ∃ found s', (getOrder cfg id).Returns E₀ (.start d m) found s' ∧
    Option.Rel Reads (d.orders.find id) found

theorem boardsRead {d : Database} (m : Memory) (h : ∀ row ∈ d.orders.rows, Readable cfg row) :
    BoardsRead cfg E₀ d m := by
  have hfetch : ∀ stateFilter, ∃ reads s',
      (fetchOrders cfg stateFilter).Returns E₀ (.start d m) reads s' ∧
        List.Forall₂ Reads (matchingOrders stateFilter d) reads := by
    intro stateFilter
    obtain ⟨reads, hreads, hall⟩ := returns_readOrders cfg E₀ (Quiet.start d m)
      (((matchingOrders stateFilter d).map fun row => (row, customerOf d row))) fun p hp => by
          obtain ⟨row, hrow, rfl⟩ := List.mem_map.mp hp
          exact h row (List.mem_of_mem_filter (List.mem_reverse.mp hrow))
    refine ⟨reads, (Quiet.start d m).closed, ?_, by simpa [Function.comp_def] using hall⟩
    simp only [fetchOrders, bind_eq, returns_withSession, returns_andThen, returns_select]
    exact ⟨_, ⟨_, _, ⟨rfl, rfl, rfl⟩, hreads⟩, rfl⟩
  refine ⟨fun stateFilter list hlist => ?_, fun id => ?_⟩
  · simp only [List.mem_cons, List.not_mem_nil, or_false] at hlist
    rcases hlist with rfl | rfl
    · exact hfetch stateFilter
    · exact hfetch stateFilter
  · cases hrow : d.orders.find id with
    | none =>
        refine ⟨none, (Quiet.start d m).closed, ?_, .none⟩
        simp only [getOrder, bind_eq, returns_withSession, returns_andThen, returns_select]
        refine ⟨Quiet.start d m, ⟨none, Quiet.start d m, ⟨rfl, ?_, rfl⟩, by simp⟩, rfl⟩
        simp [Quiet.start, hrow]
    | some row =>
        obtain ⟨stored, hstored, hall⟩ := h row (Table.find_some hrow).1
        obtain ⟨read, hread, hlen⟩ := returns_coerceItems cfg E₀
          (Quiet.start d m) hall
        refine ⟨some (gotOrder row (customerOf d row) read), (Quiet.start d m).closed, ?_,
          .some ⟨rfl, rfl, rfl, rfl, stored, hstored, hlen⟩⟩
        simp only [getOrder, bind_eq, returns_withSession, returns_andThen, returns_select]
        refine ⟨Quiet.start d m,
          ⟨some (row, customerOf d row), Quiet.start d m, ⟨rfl, ?_, rfl⟩, ?_⟩, rfl⟩
        · simp [Quiet.start, hrow]
        · simp only [hstored, Json.iter, ofExcept_ok, andThen, returns_andThen]
          exact ⟨read, _, hread, rfl⟩

/-! ## The orders that are made -/

/-- A `create_order` that has committed its row, and what it has come to. -/
structure Creation where
  data : OrderCreate
  row : Order
  result : Except PyError OrderRead

/-- The databases that any calls of `create_order` and checkouts lead to, whatever
is written between them to other tables and to other columns of the orders. -/
inductive OrdersMade : List Creation → Database → Prop
  | none {d} (h : d.orders.rows = []) : OrdersMade [] d
  | created {made d m r s row} (E₀ : Engine Database Write) (data : OrderCreate)
      (h : OrdersMade made d) (hr : (createOrder cfg data).serial E₀ (.start d m) = (r, s))
      (hnew : d.orders.find row.id = .none) (hrow : s.db.orders.find row.id = some row) :
      OrdersMade (made ++ [⟨data, row, r⟩]) s.db
  | checkedOut {made d m r s} (E₀ : Engine Database Write) (body : CheckoutRequest)
      (customerId : Uuid) (items : List OrderItem) (totalRub : Int) (promoCode : Option String)
      (discountRub : Int) (h : OrdersMade made d)
      (hr : (createOrderFromCheckout body customerId items totalRub promoCode discountRub).serial
        E₀ (.start d m) = (r, s)) : OrdersMade made s.db
  | changed {made d d'} (h : OrdersMade made d)
      (hd : ∀ id, Option.Rel (fun row row' => row'.items = row.items) (d.orders.find id)
        (d'.orders.find id)) : OrdersMade made d'

/-- What `create_order` comes to, from the row it is about to insert. -/
theorem serial_createOrder (data : OrderCreate) (d : Database) (m : Memory) :
    ∃ id r s, (createOrder cfg data).serial E₀ (.start d m) = (r, s) ∧
      (s.db = d ∨ d.orders.find id = none ∧
        s.db = { d with orders := d.orders.put (createdOrder id data) } ∧
        (r.isOk = data.items.all fun fields => coercible cfg (.obj fields)) ∧
        ∀ read, r = .ok read → Reads (createdOrder id data) read) := by
  let id : Uuid := BitVec.ofNat 128 (E₀.supply d)
  have huuid : ∀ f : Uuid → Async OrderRead, (uuid4.andThen f raise).serial E₀ (.start d m) =
      (f id).serial E₀ (.start d m) := fun _ => rfl
  rcases hserial : (createOrder cfg data).serial E₀ (.start d m) with ⟨r, s⟩
  refine ⟨id, r, s, rfl, ?_⟩
  simp only [createOrder, serial_withSession, bind_eq, huuid] at hserial
  rw [serial_andThen] at hserial
  rw [orders.serial_insert rfl] at hserial
  split_ifs at hserial with hins
  · have hcommit : (commitSession : Async Unit).serial E₀
        ((Quiet.start d m).wrote [orders.write (createdOrder id data)]) =
        (.ok (), Quiet.start { d with orders := d.orders.put (createdOrder id data) } m) := rfl
    have hitems : (createdOrder id data).items.iter = .ok (data.items.map .obj) := rfl
    obtain ⟨q, hq, hok, hlen⟩ := serial_coerceItems cfg E₀
      (Quiet.start { d with orders := d.orders.put (createdOrder id data) } m)
      (data.items.map .obj)
    rw [List.all_map] at hok
    dsimp only at hserial
    rw [serial_andThen, hcommit] at hserial
    simp only [hitems, ofExcept_ok, andThen] at hserial
    rw [serial_andThen, hq] at hserial
    cases q with
    | error e =>
        obtain ⟨rfl, rfl⟩ := Prod.mk.inj hserial
        exact Or.inr ⟨hins.1, rfl, hok, fun read h => by cases h⟩
    | ok items =>
        obtain ⟨rfl, rfl⟩ := Prod.mk.inj hserial
        refine Or.inr ⟨hins.1, rfl, hok, fun read h => ?_⟩
        obtain rfl := Except.ok.inj h
        exact ⟨rfl, rfl, rfl, rfl, _, rfl, hlen items rfl⟩
  · obtain ⟨rfl, rfl⟩ := Prod.mk.inj hserial
    exact Or.inl rfl

/-- What a checkout comes to, from the row it is about to insert. -/
theorem serial_createOrderFromCheckout (body : CheckoutRequest) (customerId : Uuid)
    (items : List OrderItem) (totalRub : Int) (promoCode : Option String) (discountRub : Int)
    (d : Database) (m : Memory) :
    ∃ id r s, (createOrderFromCheckout body customerId items totalRub promoCode
        discountRub).serial E₀ (.start d m) = (r, s) ∧
      (s.db = d ∨ d.orders.find id = none ∧ s.db = { d with
        orders := d.orders.put
          (checkoutOrder id body customerId items totalRub promoCode discountRub) }) := by
  let id : Uuid := BitVec.ofNat 128 (E₀.supply d)
  have huuid : ∀ f : Uuid → Async Uuid, (uuid4.andThen f raise).serial E₀ (.start d m) =
      (f id).serial E₀ (.start d m) := fun _ => rfl
  rcases hserial : (createOrderFromCheckout body customerId items totalRub promoCode
    discountRub).serial E₀ (.start d m) with ⟨r, s⟩
  refine ⟨id, r, s, rfl, ?_⟩
  simp only [createOrderFromCheckout, serial_withSession, bind_eq, huuid] at hserial
  rw [serial_andThen, orders.serial_insert rfl] at hserial
  split_ifs at hserial with hins
  · obtain ⟨rfl, rfl⟩ := Prod.mk.inj hserial
    exact Or.inr ⟨hins.1, rfl⟩
  · obtain ⟨rfl, rfl⟩ := Prod.mk.inj hserial
    exact Or.inl rfl

theorem coercible_dump (item : OrderItem) : coercible cfg item.dump = true := by
  simp [coercible, OrderItem.dump, Json.get, Json.toInt, Except.isOk, Except.toBool]

namespace OrdersMade

variable {cfg} {made : List Creation} {d : Database}

/-- The items of every order are those of a `create_order` or of a checkout. -/
theorem items (h : OrdersMade cfg made d) : ∀ row ∈ d.orders.rows,
    (∃ p ∈ made, row.items = .arr (p.data.items.map .obj)) ∨
      ∃ items : List OrderItem, row.items = .arr (items.map OrderItem.dump) := by
  induction h with
  | none h => simp [h]
  | @created made d m r s row E₀ data _ hr hnew hrow ih =>
      obtain ⟨id, r', s', hr', hcases⟩ := serial_createOrder cfg E₀ data d m
      obtain ⟨rfl, rfl⟩ := Prod.mk.inj (hr.symm.trans hr')
      intro row' hmem
      have hlift : (∃ p ∈ made, row'.items = .arr (p.data.items.map .obj)) →
          ∃ p ∈ made ++ [⟨data, row, r⟩], row'.items = .arr (p.data.items.map .obj) :=
        fun ⟨p, hp, hitems⟩ => ⟨p, List.mem_append_left _ hp, hitems⟩
      rcases hcases with hd | ⟨-, hd, -⟩
      · rw [hd] at hmem
        exact (ih row' hmem).imp_left hlift
      · rw [hd] at hmem
        rcases Table.mem_put hmem with rfl | hmem
        · exact Or.inl ⟨⟨data, row, r⟩, by simp, rfl⟩
        · exact (ih row' hmem).imp_left hlift
  | @checkedOut made d m r s E₀ body customerId items totalRub promoCode discountRub _ hr ih =>
      obtain ⟨id, r', s', hr', hcases⟩ := serial_createOrderFromCheckout E₀ body customerId items
        totalRub promoCode discountRub d m
      obtain ⟨rfl, rfl⟩ := Prod.mk.inj (hr.symm.trans hr')
      intro row' hmem
      rcases hcases with hd | ⟨-, hd⟩
      · rw [hd] at hmem
        exact ih row' hmem
      · rw [hd] at hmem
        rcases Table.mem_put hmem with rfl | hmem
        · exact Or.inr ⟨items, rfl⟩
        · exact ih row' hmem
  | @changed made d d' _ hd ih =>
      intro row' hmem
      have hrel := hd row'.id
      rw [Table.find_of_mem hmem] at hrel
      cases hold : d.orders.find row'.id with
      | none =>
          rw [hold] at hrel
          cases hrel
      | some row =>
          rw [hold] at hrel
          cases hrel with
          | some hitems =>
              rw [hitems]
              exact ih row (Table.find_some hold).1

/-- A committed `create_order` returns exactly when it can read its items. -/
theorem results (h : OrdersMade cfg made d) : ∀ p ∈ made,
    (∃ read, p.result = .ok read ∧ Reads p.row read) ↔
      ∀ fields ∈ p.data.items, coercible cfg (.obj fields) = true := by
  induction h with
  | none h => simp
  | @created made d m r s row E₀ data _ hr hnew hrow ih =>
      intro p hp
      rcases List.mem_append.mp hp with hp | hp
      · exact ih p hp
      obtain rfl := List.mem_singleton.mp hp
      obtain ⟨id, r', s', hr', hcases⟩ := serial_createOrder cfg E₀ data d m
      obtain ⟨rfl, rfl⟩ := Prod.mk.inj (hr.symm.trans hr')
      rcases hcases with hd | ⟨-, hd, hok, hreads⟩
      · rw [hd, hnew] at hrow
        cases hrow
      · have hrow' : row = createdOrder id data := by
          rw [hd] at hrow
          by_cases hid : id = row.id
          · have hself := Table.find_put_self d.orders (createdOrder id data)
            rw [show (createdOrder id data).id = row.id from hid] at hself
            exact Option.some.inj (hrow.symm.trans hself)
          · have hother := Table.find_put_of_ne d.orders
              (show (createdOrder id data).id ≠ row.id from hid)
            rw [hother, hnew] at hrow
            cases hrow
        rw [← List.all_eq_true, ← hok]
        dsimp only
        constructor
        · rintro ⟨read, rfl, -⟩
          rfl
        · intro hr
          cases r with
          | error e => cases hr
          | ok read => exact ⟨read, rfl, hrow' ▸ hreads read rfl⟩
  | checkedOut E₀ body customerId items totalRub promoCode discountRub h hr ih => exact ih
  | changed h hd ih => exact ih

end OrdersMade

/-- Every `create_order` that commits its row returns it, and every list and lookup
of orders returns what matches, exactly when every item that `create_order` was
given is an `OrderItem`, or has a `price_rub` and a `qty` that `int()` takes. -/
theorem orders_read_iff {made : List Creation} {d : Database} (m : Memory)
    (h : OrdersMade cfg made d) :
    ((∀ p ∈ made, ∃ read, p.result = .ok read ∧ Reads p.row read) ∧ BoardsRead cfg E₀ d m) ↔
      ∀ p ∈ made, ∀ fields ∈ p.data.items, coercible cfg (.obj fields) = true := by
  constructor
  · intro hall p hp
    exact (h.results p hp).mp (hall.1 p hp)
  · intro hall
    refine ⟨fun p hp => (h.results p hp).mpr (hall p hp), boardsRead cfg E₀ m fun row hrow => ?_⟩
    rcases h.items row hrow with ⟨p, hp, hitems⟩ | ⟨items, hitems⟩
    · refine ⟨_, hitems, List.all_eq_true.mpr fun raw hraw => ?_⟩
      obtain ⟨fields, hfields, rfl⟩ := List.mem_map.mp hraw
      exact hall p hp fields hfields
    · refine ⟨_, hitems, List.all_eq_true.mpr fun raw hraw => ?_⟩
      obtain ⟨item, -, rfl⟩ := List.mem_map.mp hraw
      exact coercible_dump cfg item

/-! ## A price with kopecks -/

/-- An order of one item, with its price as a text. -/
def pricedAs (price : String) : OrderCreate where
  customerId := 7
  items := [[("sku", .str "tea"), ("price_rub", .str price), ("qty", .int 1)]]
  deliveryAddress := ""

/-- A price with kopecks raises after the commit. -/
theorem kopecks_hide_order :
    ¬ ∀ cfg E₀ m made d, OrdersMade cfg made d →
      (∀ p ∈ made, ∃ read, p.result = .ok read ∧ Reads p.row read) ∧ BoardsRead cfg E₀ d m := by
  intro hall
  have hnone : OrdersMade sampleSettings [] emptyDatabase := .none rfl
  have hmade := hnone.created (numbered 1) (pricedAs "12.50") (m := {}) rfl
    (show _ from rfl) (show _ = some (createdOrder 1 (pricedAs "12.50")) from rfl)
  have hread := (hall _ (numbered 1) {} _ _ hmade).1 _ List.mem_cons_self
  have hbad := (hmade.results _ List.mem_cons_self).mp hread _ List.mem_cons_self
  revert hbad
  decide +kernel

/-- An order of a checkout item and a whole price are read. -/
theorem orders_read_iff_whole_price :
    ∃ made d, OrdersMade sampleSettings made d ∧ made.length = 1 ∧
      (∀ p ∈ made, ∃ read, p.result = .ok read ∧ Reads p.row read) ∧
      BoardsRead sampleSettings (numbered 2) d {} := by
  have hnone : OrdersMade sampleSettings [] emptyDatabase := .none rfl
  have hmade := hnone.created (numbered 1) (pricedAs "12") (m := {}) rfl
    (show _ from rfl) (show _ = some (createdOrder 1 (pricedAs "12")) from rfl)
  refine ⟨_, _, hmade, rfl, (orders_read_iff sampleSettings (numbered 2) {} hmade).mpr ?_⟩
  decide +kernel

end Sieshka
