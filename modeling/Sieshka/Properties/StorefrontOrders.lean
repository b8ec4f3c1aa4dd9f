import Sieshka.Properties.CheckoutColumns
import Sieshka.Properties.MenuAvailability
import Sieshka.Transactions.Columns

/-!
# What the storefront shows and what the checkout accepts

The checkout reads the price of a product and the fee of a zone by their ids and asks for
nothing else. So it keeps to what the storefront shows where the catalog hides nothing that
has a price.
-/

namespace Sieshka

open Transactions Prog MenuService

/-! ## The specification -/

/-- A product as the checkout reads it. -/
def MenuProduct.stored (p : MenuProduct) : Product where
  id := p.id
  name := p.name
  priceRub := p.priceRub
  sku := p.sku
  isActive := p.isActive

/-- A zone as the checkout reads it. -/
def Zone.stored (z : Zone) : DeliveryZone where
  id := z.id
  deliveryFeeRub := z.deliveryFeeRub

/-- The method a checkout is for: all but a pickup is a delivery. -/
def CheckoutRequest.method (body : CheckoutRequest) : FulfillmentMethod :=
  if body.deliveryMode = "pickup" then .pickup else .delivery

namespace Catalog

/-- The database with the products, the stock and the zones of the catalog. -/
def stored (c : Catalog) (d : Database) : Database :=
  { d with
    products := c.products.map MenuProduct.stored fun _ => rfl
    inventory := c.inventory
    deliveryZones := c.zones.map Zone.stored fun _ => rfl }

/-- The product is on sale: active, not out of stock, and in a category that is active, of
the current period and in scope for the method; its own period is the current one too. -/
def Open (c : Catalog) (currentPeriod : SchedulePeriod) (method : FulfillmentMethod)
    (p : MenuProduct) : Prop :=
  p.isActive = true ∧ (∀ stock ∈ c.stockOf p, 0 < stock.quantity) ∧
    ∃ cat, p.categoryId = some cat.id ∧ c.categories.find cat.id = some cat ∧
      cat.isActive = true ∧ cat.fulfillmentScope.Covers method ∧
      cat.timePeriod.Covers currentPeriod ∧
      (p.timePeriodOverride.getD cat.timePeriod).Covers currentPeriod

/-- Every product with a price is on sale for pickup and, where there are zones, for
delivery, and every zone is active. -/
structure AllOpen (c : Catalog) (currentPeriod : SchedulePeriod) : Prop where
  pickup : ∀ p ∈ c.products.rows, p.priceRub.isSome → c.Open currentPeriod .pickup p
  delivery : ∀ p ∈ c.products.rows, p.priceRub.isSome → ∀ z ∈ c.zones.rows,
    z.isActive = true ∧ c.Open currentPeriod .delivery p

end Catalog

/-- The checkout accepts the request: it passes the checks of the route, and its order is
placed. -/
structure Accepts (cfg : Settings) (E₀ : Engine Database Write) (d : Database) (m : Memory)
    (body : CheckoutRequest) : Prop where
  paymentMethod : body.paymentMethod ∈ ["yookassa_sbp", "yookassa_sberbank", "cash"]
  zoneId : body.deliveryMode ≠ "pickup" → body.zoneId ≠ none
  items : body.items ≠ []
  placed : ∃ r s', (placeOrder cfg body).Returns E₀ (.start d m) r s'

/-- The menu shows what the request orders as available, and its zone is offered. -/
structure Offered (textLe : String → String → Bool) (currentPeriod : SchedulePeriod)
    (c : Catalog) (body : CheckoutRequest) : Prop where
  items : ∀ ci ∈ body.items,
    ShownAvailable (getMenu textLe currentPeriod body.method c) ci.productId
  zone : body.deliveryMode ≠ "pickup" → ∃ z ∈ getDeliveryZones c, body.zoneId = some z.id

/-- Only what is offered is accepted. -/
def AcceptsOnlyOffered (cfg : Settings) (E₀ : Engine Database Write) (textLe : String → String → Bool)
    (currentPeriod : SchedulePeriod) (c : Catalog) : Prop :=
  ∀ d m body, Accepts cfg E₀ (c.stored d) m body → Offered textLe currentPeriod c body

/-! ## What the checkout asks for -/

section Checkout

variable {cfg : Settings} {E₀ : Engine Database Write} {d : Database} {m : Memory}
  {body : CheckoutRequest}

/-- The items of a checkout have prices. -/
theorem priced_of_returns {cis : List CheckoutItem} {items : List OrderItem}
    {s' : Quiet Database Memory}
    (h : (resolveCheckoutItems cis).Returns E₀ (.start d m) items s') :
    s' = .start d m ∧ ∀ ci ∈ cis, ∃ p, d.products.find ci.productId = some p ∧
      p.priceRub.isSome = true := by
  induction cis generalizing items with
  | nil =>
      obtain ⟨-, rfl⟩ := (returns_ret _).mp h
      exact ⟨rfl, fun ci hci => by cases hci⟩
  | cons ci rest ih =>
      rw [resolveCheckoutItems] at h
      simp only [bind_eq, pure_eq, returns_andThen, returns_getProductSnapshot] at h
      obtain ⟨_, _, ⟨rfl, rfl⟩, h⟩ := h
      cases hproduct : d.products.find ci.productId with
      | none => simp [hproduct] at h
      | some product =>
          cases hprice : product.priceRub with
          | none => simp [hproduct, productSnapshot, hprice] at h
          | some price =>
              simp only [hproduct, Option.map_some, productSnapshot, Option.bind_some, hprice,
                returns_andThen, returns_ret] at h
              obtain ⟨resolved, s₂, hrest, rfl, rfl⟩ := h
              obtain ⟨hend, hpriced⟩ := ih hrest
              refine ⟨hend, List.forall_mem_cons.mpr ⟨⟨product, hproduct, ?_⟩, hpriced⟩⟩
              rw [hprice]
              rfl

/-- The zone of an order is a zone. -/
theorem zone_of_returns {customerId : Uuid} {items : List OrderItem} {totalRub discountRub : Int}
    {promoCode : Option String} {id : Uuid} {s' : Quiet Database Memory}
    (h : (createOrderFromCheckout body customerId items totalRub promoCode discountRub).Returns E₀
      (.start d m) id s') {zone : Uuid} (hzone : body.zoneId = some zone) :
    (d.deliveryZones.find zone).isSome = true := by
  simp only [createOrderFromCheckout, uuid4, bind_eq, andThen, pure_eq, returns_withSession,
    returns_choose, returns_andThen, orders.returns_insert] at h
  obtain ⟨_, ⟨_, _, ⟨-, -, hcheck, -⟩, -⟩, -⟩ := h
  rw [hzone] at hcheck
  exact hcheck

/-- What an order that is placed has asked for: prices for its items and a zone that is
there. -/
theorem stored_of_placeOrder {r : Uuid × Int} {s' : Quiet Database Memory}
    (h : (placeOrder cfg body).Returns E₀ (.start d m) r s') :
    (∀ ci ∈ body.items, ∃ p, d.products.find ci.productId = some p ∧
      p.priceRub.isSome = true) ∧
      ∀ zone, body.zoneId = some zone → (d.deliveryZones.find zone).isSome = true := by
  simp only [placeOrder, bind_eq, returns_andThen] at h
  obtain ⟨customer, s₁, hcustomer, items, s₂, hitems, effect, s₃, heffect, h⟩ := h
  obtain ⟨customers, rfl⟩ := end_of_findOrCreateByPhone hcustomer
  obtain ⟨rfl, hpriced⟩ := priced_of_returns hitems
  obtain ⟨s₄, hresolved, rfl⟩ := (returns_withSession _).mp heffect
  obtain rfl := (applied_of_returns rfl hresolved).1
  refine ⟨hpriced, ?_⟩
  intro zone hzone
  have hread : (withSession (select fun (d : Database) =>
      d.deliveryZones.find zone) : Async (Option DeliveryZone)).Returns E₀
      (.start { d with customers := customers } m) (d.deliveryZones.find zone)
      (.start { d with customers := customers } m) := by
    rw [returns_withSession]
    exact ⟨_, (returns_select _).mpr ⟨rfl, rfl, rfl⟩, rfl⟩
  rw [hzone] at h
  simp only [pure_eq, andThen, returns_andThen, returns_ret] at h
  obtain ⟨row, s₂, hrow, id, s₃, hcreate, -⟩ := h
  obtain ⟨-, rfl⟩ := hread.unique hrow
  exact zone_of_returns hcreate hzone

/-- The database with the key of a request recorded. -/
def keyed (d : Database) (body : CheckoutRequest) : Database :=
  { d with idempotencyKeys :=
      d.idempotencyKeys.put { key := checkoutKey body, payload := .obj (checkoutPayload body) } }

/-- A key that is new is recorded. -/
theorem recorded_of_new (hfresh : d.idempotencyKeys.find (checkoutKey body) = none) {new : Bool}
    {s' : Quiet Database Memory}
    (h : (checkAndRecord (checkoutKey body) (.obj (checkoutPayload body))).Returns E₀
      (.start d m) new s') : new = true ∧ s' = .start (keyed d body) m := by
  simp only [checkAndRecord, bind_eq, pure_eq, returns_andThen, returns_withSession,
    idempotencyKeys.returns_insertIfAbsent, returns_commitSession, returns_ret] at h
  obtain ⟨_, ⟨inserted, _, ⟨-, hinserted, -, rfl⟩, -, _, rfl, rfl, rfl⟩, rfl⟩ := h
  have hnone : (idempotencyKeys.table (Quiet.start d m).view).find (checkoutKey body) = none :=
    hfresh
  rw [hnone] at hinserted
  obtain rfl : new = true := hinserted
  exact ⟨rfl, rfl⟩

/-- A request that is answered, and that was not sent before, is accepted. -/
theorem accepts_of_checkout (hfresh : d.idempotencyKeys.find (checkoutKey body) = none)
    {response : CheckoutResponse} {s' : Quiet Database Memory}
    (h : (checkout cfg body).Returns E₀ (.start d m) response s') :
    Accepts cfg E₀ (keyed d body) m body := by
  simp only [checkout, throw_eq, returns_ite, returns_raise, and_false, false_or, bind_eq,
    returns_andThen] at h
  obtain ⟨hmethod, hzone, hitems, new, s₁, hrecorded, hrest⟩ := h
  obtain ⟨rfl, rfl⟩ := recorded_of_new hfresh hrecorded
  rcases hrest with ⟨-, r, s₂, hplaced, -⟩ | ⟨hne, -⟩
  · constructor
    · simp only [List.mem_cons, List.not_mem_nil, or_false]
      tauto
    · intro hmode hnone
      exact hzone ⟨hmode, hnone⟩
    · intro hnil
      exact hitems (by rw [hnil]; rfl)
    · exact ⟨r, s₂, hplaced⟩
  · exact absurd rfl hne

end Checkout

/-! ## What the storefront shows -/

section Storefront

variable {textLe : String → String → Bool} {currentPeriod : SchedulePeriod} {c : Catalog}
  {method : FulfillmentMethod}

/-- The menu shows a product with a price as available where it is on sale. -/
theorem shownAvailable_iff_open {p : MenuProduct} (hp : p ∈ c.products.rows)
    (hprice : p.priceRub.isSome = true) :
    ShownAvailable (getMenu textLe currentPeriod method c) p.id ↔
      c.Open currentPeriod method p := by
  have hfind := Table.mem_rows_iff.mp hp
  rw [shownAvailable_iff]
  constructor
  · rintro ⟨q, cat, ⟨hq, hof, hcat, hactive, hscope⟩, ⟨hsold, -, hstock⟩, hperiod, hown⟩
    rw [hfind] at hq
    obtain rfl := Option.some.inj hq
    exact ⟨hsold, hstock, cat, hof, hcat, hactive, hscope, hperiod, hown⟩
  · rintro ⟨hsold, hstock, cat, hof, hcat, hactive, hscope, hperiod, hown⟩
    exact ⟨p, cat, ⟨hfind, hof, hcat, hactive, hscope⟩, ⟨hsold, hprice, hstock⟩, hperiod, hown⟩

theorem mem_getDeliveryZones {z : Zone} :
    z ∈ getDeliveryZones c ↔ z ∈ c.zones.rows ∧ z.isActive = true := by
  simp [getDeliveryZones, Table.mem_filter]

theorem find_stored_products (d : Database) (id : Uuid) :
    (c.stored d).products.find id = (c.products.find id).map MenuProduct.stored :=
  Table.find_map c.products MenuProduct.stored (fun _ => rfl) id

theorem find_stored_zones (d : Database) (id : Uuid) :
    (c.stored d).deliveryZones.find id = (c.zones.find id).map Zone.stored :=
  Table.find_map c.zones Zone.stored (fun _ => rfl) id

/-- Where everything with a price is on sale, only what is offered is accepted. -/
theorem offered_of_accepts {cfg : Settings} {E₀ : Engine Database Write} {d : Database}
    {m : Memory} {body : CheckoutRequest} (hopen : c.AllOpen currentPeriod)
    (h : Accepts cfg E₀ (c.stored d) m body) : Offered textLe currentPeriod c body := by
  obtain ⟨r, s', hplaced⟩ := h.placed
  obtain ⟨hpriced, hzones⟩ := stored_of_placeOrder hplaced
  have hzone : body.deliveryMode ≠ "pickup" → ∃ z ∈ c.zones.rows, body.zoneId = some z.id := by
    intro hmode
    obtain ⟨zone, hzone⟩ := Option.ne_none_iff_exists'.mp (h.zoneId hmode)
    have hfound := hzones zone hzone
    rw [find_stored_zones, Option.isSome_map] at hfound
    obtain ⟨z, hz⟩ := Option.isSome_iff_exists.mp hfound
    obtain ⟨hmem, rfl⟩ := Table.find_some hz
    exact ⟨z, hmem, hzone⟩
  have hproduct : ∀ ci ∈ body.items, ∃ p ∈ c.products.rows, p.id = ci.productId ∧
      p.priceRub.isSome = true := by
    intro ci hci
    obtain ⟨row, hrow, hprice⟩ := hpriced ci hci
    rw [find_stored_products] at hrow
    obtain ⟨p, hp, rfl⟩ := Option.map_eq_some_iff.mp hrow
    obtain ⟨hmem, hid⟩ := Table.find_some hp
    exact ⟨p, hmem, hid, hprice⟩
  constructor
  · intro ci hci
    obtain ⟨p, hp, hid, hprice⟩ := hproduct ci hci
    rw [← hid, shownAvailable_iff_open hp hprice, CheckoutRequest.method]
    split_ifs with hmode
    · exact hopen.pickup p hp hprice
    · obtain ⟨z, hz, -⟩ := hzone hmode
      exact (hopen.delivery p hp hprice z hz).2
  · intro hmode
    obtain ⟨z, hz, hid⟩ := hzone hmode
    obtain ⟨ci, hci⟩ := List.exists_mem_of_ne_nil _ h.items
    obtain ⟨p, hp, -, hprice⟩ := hproduct ci hci
    exact ⟨z, mem_getDeliveryZones.mpr ⟨hz, (hopen.delivery p hp hprice z hz).1⟩, hid⟩

/-- Nor is anything else answered, where a request was not sent before. -/
theorem offered_of_checkout {cfg : Settings} {E₀ : Engine Database Write} {d : Database}
    {m : Memory} {body : CheckoutRequest} (h : AcceptsOnlyOffered cfg E₀ textLe currentPeriod c)
    (hfresh : d.idempotencyKeys.find (checkoutKey body) = none) {response : CheckoutResponse}
    {s' : Quiet Database Memory}
    (hanswered : (checkout cfg body).Returns E₀ (.start (c.stored d) m) response s') :
    Offered textLe currentPeriod c body := by
  have haccepted : Accepts cfg E₀ (keyed (c.stored d) body) m body :=
    accepts_of_checkout hfresh hanswered
  exact h (keyed d body) m body haccepted

end Storefront

/-! ## A request for any product -/

section Requests

/-- A shop that knows Anna and has a code for free delivery. -/
def freeDeliveryShop : Database :=
  { emptyDatabase with
    customers := Table.empty.put anna
    promotions := [⟨1, none, .FREE_DELIVERY, some "FREE", "ACTIVE"⟩] }

/-- Anna orders one piece of a product under the code, and pays in cash. -/
def annaOrders (productId : Uuid) (deliveryMode : String) (zoneId : Option Uuid) :
    CheckoutRequest where
  name := "Anna"
  phone := "+79001234567"
  address := none
  comment := none
  deliveryMode := deliveryMode
  paymentMethod := "cash"
  zoneId := zoneId
  items := [⟨productId, 1, Int.one_pos⟩]
  idempotencyKey := "k"
  clientMaxUid := none
  clientZaloUid := none
  clientTelegramUid := none
  promoCode := some "FREE"

variable {cfg : Settings} {E₀ : Engine Database Write} {c : Catalog} {m : Memory}

theorem anna_known : (findOrCreateByPhone "Anna" "+79001234567").Returns E₀
    (.start (c.stored freeDeliveryShop) m) anna (.start (c.stored freeDeliveryShop) m) := by
  have hphone : normalizePhone "+79001234567" = .ok "+79001234567" := by decide
  rw [findOrCreateByPhone, hphone, Returns]
  rfl

theorem resolved_of_priced {p : MenuProduct} {price : Int} (hp : p ∈ c.products.rows)
    (hprice : p.priceRub = some price) {d : Database} {qty : Int} (hqty : 0 < qty) :
    (resolveCheckoutItems [⟨p.id, qty, hqty⟩]).Returns E₀ (.start (c.stored d) m)
      [⟨p.id, p.name, price, qty⟩] (.start (c.stored d) m) := by
  have hfind : (c.stored d).products.find p.id = some p.stored := by
    rw [find_stored_products, Table.mem_rows_iff.mp hp]
    rfl
  have hread : (getProductSnapshot p.id).Returns E₀ (.start (c.stored d) m)
      (some (productSnapshot p.stored)) (.start (c.stored d) m) := by
    rw [returns_getProductSnapshot, hfind]
    exact ⟨rfl, rfl⟩
  have hsnapshot : (productSnapshot p.stored).priceRub = some price := hprice
  simp only [resolveCheckoutItems, bind_eq, hread.andThen_iff, Option.bind_some, hsnapshot,
    Option.map_some, pure_eq, returns_andThen, returns_ret]
  exact ⟨[], _, ⟨rfl, rfl⟩, rfl, rfl⟩

theorem freeDelivery_applied : appliedPromotion cfg (some "FREE") (c.stored freeDeliveryShop) =
    some ⟨1, none, .FREE_DELIVERY, some "FREE", "ACTIVE"⟩ := by
  have hcode : strip "FREE" = "FREE" := by decide
  have hactive : activePromotions cfg "FREE" (c.stored freeDeliveryShop) =
      [⟨1, none, .FREE_DELIVERY, some "FREE", "ACTIVE"⟩] := by
    simp [activePromotions, Catalog.stored, freeDeliveryShop]
  rw [appliedPromotion, Option.getD_some, hcode, hactive]
  simp

/-- The code takes nothing off the goods. -/
theorem freeDelivery_resolved (goods : Int) :
    (withSession (resolvePromoEffect cfg (some "FREE") goods)).Returns E₀
      (.start (c.stored freeDeliveryShop) m) (some ⟨1, "FREE", 0, true⟩)
      (.start (c.stored freeDeliveryShop) m) := by
  have hcode : strip "FREE" = "FREE" := by decide
  rw [returns_withSession]
  refine ⟨_, (returns_resolvePromoEffect rfl (by decide)).mpr ⟨rfl, ?_⟩, rfl⟩
  have happlied : appliedPromotion cfg (some "FREE")
      (Quiet.start (c.stored freeDeliveryShop) m).view = _ := freeDelivery_applied
  rw [happlied]
  exact ⟨_, rfl, by rw [Option.getD_some, hcode]⟩

/-- The row of Anna's order. -/
def annaOrder (id : Uuid) (p : MenuProduct) (price : Int) (deliveryMode : String)
    (zoneId : Option Uuid) : Order :=
  checkoutOrder id (annaOrders p.id deliveryMode zoneId) anna.id [⟨p.id, p.name, price, 1⟩]
    (max 0 price) (some "FREE") 0

theorem annaOrders_inserts {p : MenuProduct} {price : Int} (hp : p ∈ c.products.rows)
    (hprice : p.priceRub = some price) (deliveryMode : String) (zoneId : Option Uuid) :
    Inserts cfg E₀ (c.stored freeDeliveryShop) m (annaOrders p.id deliveryMode zoneId)
      (annaOrder (BitVec.ofNat 128 (E₀.supply (c.stored freeDeliveryShop))) p price deliveryMode
        zoneId) := by
  refine ⟨anna, c.stored freeDeliveryShop, [⟨p.id, p.name, price, 1⟩],
    some ⟨1, "FREE", 0, true⟩, anna_known, resolved_of_priced hp hprice (by decide),
    freeDelivery_resolved _, ?_⟩
  have htotal : computeCheckoutTotal cfg [⟨p.id, p.name, price, 1⟩] deliveryMode
      (some ⟨1, "FREE", 0, true⟩)
      (zoneFee (c.stored freeDeliveryShop) (annaOrders p.id deliveryMode zoneId)) =
      max 0 price := by
    simp [computeCheckoutTotal, goodsTotal]
  rw [annaOrder, ← htotal]
  rfl

theorem fitsColumns_annaOrder {id : Uuid} {p : MenuProduct} {price : Int}
    (hprice : int4 price = true) {deliveryMode : String}
    (hmode : varcharFits 32 deliveryMode = true) (zoneId : Option Uuid) :
    (annaOrder id p price deliveryMode zoneId).fitsColumns = true := by
  have htotal : int4 (max 0 price) = true := by
    simp only [int4, decide_eq_true_eq] at hprice ⊢
    omega
  have hcode : varcharFits 64 "FREE" = true := by decide
  have hmethod : varcharFits 32 "cash" = true := by decide
  have hdiscount : int4 0 = true := by decide
  have haddress : storable "" = true := by decide
  simp [Order.fitsColumns, annaOrder, checkoutOrder, annaOrders, htotal, hdiscount, hcode,
    hmethod, hmode, haddress]

theorem annaOrders_accepted (hfits : ∀ row : Order, row.fitsColumns = true →
    E₀.fits (.order row) = true) {p : MenuProduct} {price : Int} (hp : p ∈ c.products.rows)
    (hprice : p.priceRub = some price) (hint : int4 price = true) {deliveryMode : String}
    (hmode : varcharFits 32 deliveryMode = true) {zoneId : Option Uuid}
    (hneeded : deliveryMode ≠ "pickup" → zoneId ≠ none)
    (hzone : ∀ zone, zoneId = some zone → ∃ z ∈ c.zones.rows, z.id = zone) :
    Accepts cfg E₀ (c.stored freeDeliveryShop) m (annaOrders p.id deliveryMode zoneId) where
  paymentMethod := by simp [annaOrders]
  zoneId := hneeded
  items := by simp [annaOrders]
  placed := by
    rw [returns_placeOrder_iff (annaOrders_inserts hp hprice deliveryMode zoneId)]
    · exact hfits _ (fitsColumns_annaOrder hint hmode zoneId)
    · constructor
      · rfl
      · intro zone h
        obtain ⟨z, hz, hid⟩ := hzone zone h
        rw [find_stored_zones, ← hid, Table.find_of_mem hz]
        rfl

end Requests

/-- The checkout accepts only what the storefront offers if and only if every product with a
price is on sale for pickup and, where there are zones, for delivery, and every zone is
active. -/
theorem acceptsOnlyOffered_iff (cfg : Settings) {E₀ : Engine Database Write}
    (textLe : String → String → Bool) (morningEndHour : Int) (now : PyTime) (c : Catalog)
    (hfits : ∀ row : Order, row.fitsColumns = true → E₀.fits (.order row) = true)
    (hprices : ∀ p ∈ c.products.rows, ∀ price, p.priceRub = some price → int4 price = true) :
    AcceptsOnlyOffered cfg E₀ textLe (currentMenuPeriod morningEndHour now) c ↔
      c.AllOpen (currentMenuPeriod morningEndHour now) := by
  constructor
  · intro h
    -- a piece of any product with a price can be ordered
    have hoffered {p : MenuProduct} (hp : p ∈ c.products.rows) (hprice : p.priceRub.isSome)
        (deliveryMode : String) (hmode : varcharFits 32 deliveryMode = true)
        (zoneId : Option Uuid) (hneeded : deliveryMode ≠ "pickup" → zoneId ≠ none)
        (hzone : ∀ zone, zoneId = some zone → ∃ z ∈ c.zones.rows, z.id = zone) :
        Offered textLe (currentMenuPeriod morningEndHour now) c
          (annaOrders p.id deliveryMode zoneId) := by
      obtain ⟨price, hsome⟩ := Option.isSome_iff_exists.mp hprice
      apply h freeDeliveryShop {}
      exact annaOrders_accepted hfits hp hsome (hprices p hp price hsome) hmode hneeded hzone
    constructor
    · intro p hp hprice
      have hpickup := hoffered hp hprice "pickup" (by decide) none
        (fun hne => absurd rfl hne) (fun zone hzone => by cases hzone)
      exact (shownAvailable_iff_open hp hprice).mp (hpickup.items _ List.mem_cons_self)
    · intro p hp hprice z hz
      have hdelivery := hoffered hp hprice "delivery" (by decide) (some z.id)
        (fun _ => Option.some_ne_none z.id)
        (fun zone hzone => ⟨z, hz, Option.some.inj hzone⟩)
      constructor
      · obtain ⟨z', hz', hid⟩ := hdelivery.zone (by simp [annaOrders])
        obtain ⟨hmem, hactive⟩ := mem_getDeliveryZones.mp hz'
        have hsame := Table.find_of_mem hmem
        rw [← Option.some.inj hid, Table.find_of_mem hz] at hsame
        obtain rfl := Option.some.inj hsame
        exact hactive
      · exact (shownAvailable_iff_open hp hprice).mp (hdelivery.items _ List.mem_cons_self)
  · intro hopen d m body haccepted
    exact offered_of_accepts hopen haccepted

/-! ## A sample -/

/-- The morning of a shop that sells one product for breakfast, to be collected. -/
def breakfastShop (p : MenuProduct) : Catalog where
  categories := Table.empty.put breakfast
  products := Table.empty.put p
  inventory := .empty
  zones := .empty

def earlyMorning : PyTime := ⟨8, 0, 0, 0, none, by decide⟩

theorem fits_columned (row : Order) (h : row.fitsColumns = true) :
    (columned 9).fits (.order row) = true := h

/-- Tea is sold at breakfast. -/
theorem breakfast_tea_offered :
    AcceptsOnlyOffered asciiSettings (columned 9) (fun _ _ => true)
      (currentMenuPeriod 11 earlyMorning) (breakfastShop allDayTea) := by
  apply (acceptsOnlyOffered_iff asciiSettings (fun _ _ => true) 11 earlyMorning
    (breakfastShop allDayTea) fits_columned _).mpr
  · constructor
    · intro p hp _
      obtain rfl := List.mem_singleton.mp hp
      exact ⟨rfl, by simp [Catalog.stockOf, allDayTea], breakfast, rfl, rfl, rfl, Or.inl rfl,
        Or.inr rfl, Or.inl rfl⟩
    · intro p _ _ z hz
      cases hz
  · intro p hp price hprice
    obtain rfl := List.mem_singleton.mp hp
    obtain rfl := Option.some.inj hprice
    decide

/-- Tea that is no longer sold. -/
def retiredTea : MenuProduct := { allDayTea with isActive := false }

/-- It is ordered by its id. -/
theorem retired_tea_ordered :
    Accepts asciiSettings (columned 9) ((breakfastShop retiredTea).stored freeDeliveryShop) {}
        (annaOrders 2 "pickup" none) ∧
      ((checkout asciiSettings (annaOrders 2 "pickup" none)).serial (columned 9)
        (.start ((breakfastShop retiredTea).stored freeDeliveryShop) {})).1 =
          .ok { orderId := (9 : Uuid).text } ∧
      ¬ Offered (fun _ _ => true) (currentMenuPeriod 11 earlyMorning) (breakfastShop retiredTea)
        (annaOrders 2 "pickup" none) := by
  have hmem : retiredTea ∈ (breakfastShop retiredTea).products.rows := List.mem_cons_self
  refine ⟨?_, by decide +kernel, ?_⟩
  · exact annaOrders_accepted fits_columned hmem rfl (by decide) (by decide)
      (fun hne => absurd rfl hne) fun zone hzone => by cases hzone
  · intro h
    have hopen := (shownAvailable_iff_open hmem rfl).mp (h.items _ List.mem_cons_self)
    exact absurd hopen.1 (by decide)

end Sieshka
