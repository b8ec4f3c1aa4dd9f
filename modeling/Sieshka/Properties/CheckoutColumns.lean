import Sieshka.Properties.CheckoutMoney
import Sieshka.Properties.SignedUser

/-!
# What the columns of an order hold

The total, the discount and the ids of a mini app's users are columns of 32 bits. Nothing
on the way there bounds a quantity, a sum or a signed id, and the key of the request is
recorded before the order is inserted.
-/

namespace Sieshka

open Transactions Prog MaxWebappAuth MenuService

/-! ## The specification -/

/-- The columns of `orders` hold the values of the row. -/
def Order.fitsColumns (row : Order) : Bool :=
  row.totalRub.all int4 && int4 row.discountRub && row.clientMaxUid.all int4 &&
    row.clientTelegramUid.all int4 && row.deliveryMode.all (varcharFits 32) &&
    row.paymentMethod.all (varcharFits 32) && row.promoCode.all (varcharFits 64) &&
    row.clientZaloUid.all (varcharFits 64) && row.comment.all storable &&
    storable row.deliveryAddress

/-- A checkout as it arrives: the body, the init data in its headers, and the id that the
Zalo client has verified. -/
structure IncomingCheckout where
  body : CheckoutRequest
  maxInitData : Option Text
  telegramInitData : Option Text
  zaloUid : Option String

/-- The id in a header of init data, `None` without one. -/
def verifiedUid (F : WebAppFunctions) (botToken : Text) : Option Text → Except PyError (Option Int)
  | none => .ok none
  | some webAppData =>
      if webAppData = [] then .ok none else validateInitData F webAppData botToken

/-- The body with the ids that were verified in place of those it came with. -/
def IncomingCheckout.verified (F : WebAppFunctions) (maxToken telegramToken : Text)
    (request : IncomingCheckout) : Except PyError CheckoutRequest := do
  let maxUid ← verifiedUid F maxToken request.maxInitData
  let telegramUid ← verifiedUid F telegramToken request.telegramInitData
  return { request.body with
    clientMaxUid := maxUid, clientZaloUid := request.zaloUid, clientTelegramUid := telegramUid }

/-- The fee of the zone of a checkout. -/
def zoneFee (d : Database) (body : CheckoutRequest) : Option Int :=
  body.zoneId.bind fun zone => (d.deliveryZones.find zone).map DeliveryZone.deliveryFeeRub

section

variable (cfg : Settings) (E₀ : Engine Database Write) (d : Database) (m : Memory)

/-- A checkout of the body, alone on the database, resolves its customer, its items and its
promotion and comes to insert the row. -/
def Inserts (body : CheckoutRequest) (row : Order) : Prop :=
  ∃ customer d₁ items effect,
    (findOrCreateByPhone body.name body.phone).Returns E₀ (.start d m) customer (.start d₁ m) ∧
    (resolveCheckoutItems body.items).Returns E₀ (.start d₁ m) items (.start d₁ m) ∧
    (withSession (resolvePromoEffect cfg body.promoCode (goodsTotal items))).Returns E₀
      (.start d₁ m) effect (.start d₁ m) ∧
    row = checkoutOrder (BitVec.ofNat 128 (E₀.supply d₁)) body customer.id items
      (computeCheckoutTotal cfg items body.deliveryMode effect (zoneFee d₁ body))
      (effect.map PromoEffect.appliedCode) ((effect.map PromoEffect.discountRub).getD 0)

/-- The id of the row is new, and its zone is a zone. -/
def Unopposed (row : Order) : Prop :=
  d.orders.find row.id = none ∧ ∀ zone, row.zoneId = some zone →
    (d.deliveryZones.find zone).isSome

/-- The goods of a checkout at the prices that are stored. -/
def storedGoods (items : List CheckoutItem) : Int :=
  (items.map fun ci =>
    ((d.products.find ci.productId).bind Product.priceRub).getD 0 * ci.qty).sum

/-- What the promotion of a checkout takes off the goods. -/
def takenOff (body : CheckoutRequest) : Int :=
  match appliedPromotion cfg body.promoCode d with
  | none => 0
  | some promo =>
      match promo.effectType, promo.discount with
      | .PERCENT_DISCOUNT, some discount =>
          ((cfg.percentOf (storedGoods d body.items) discount).toOption).getD 0
      | .FIXED_AMOUNT, some discount => min (truncated discount) (storedGoods d body.items)
      | _, _ => 0

/-- The numbers and texts of a checkout are within bounds: the discount, the goods less the
discount plus the fee, the verified ids, and the lengths of the texts. -/
structure WithinBounds (F : WebAppFunctions) (maxToken telegramToken : Text)
    (request : IncomingCheckout) : Prop where
  discount : int4 (takenOff cfg d request.body) = true
  total : int4 ((if appliedPromotion cfg request.body.promoCode d = none then
      storedGoods d request.body.items
    else max 0 (storedGoods d request.body.items - takenOff cfg d request.body)) +
      chargedFee cfg request.body.deliveryMode (appliedPromotion cfg request.body.promoCode d)
        (zoneFee d request.body)) = true
  maxUid : ∀ uid, verifiedUid F maxToken request.maxInitData = .ok (some uid) → int4 uid = true
  telegramUid : ∀ uid, verifiedUid F telegramToken request.telegramInitData = .ok (some uid) →
    int4 uid = true
  deliveryMode : varcharFits 32 request.body.deliveryMode = true
  promoCode : (appliedPromotion cfg request.body.promoCode d).isSome →
    varcharFits 64 (strip (request.body.promoCode.getD "")) = true
  zaloUid : ∀ uid, request.zaloUid = some uid → varcharFits 64 uid = true
  comment : ∀ text, request.body.comment = some text → storable text = true
  address : storable (request.body.address.getD "") = true

end

/-! ## What a checkout resolves -/

section Resolved

variable {cfg : Settings} {E₀ : Engine Database Write} {d : Database} {m : Memory}

theorem returns_getProductSnapshot {productId : Uuid} {snapshot : Option MenuProductItem}
    {s' : Quiet Database Memory} :
    (getProductSnapshot productId).Returns E₀ (.start d m) snapshot s' ↔
      snapshot = (d.products.find productId).map productSnapshot ∧ s' = .start d m := by
  rw [getProductSnapshot, returns_withSession]
  constructor
  · rintro ⟨s, h, rfl⟩
    obtain ⟨-, rfl, rfl⟩ := (returns_select _).mp h
    exact ⟨rfl, rfl⟩
  · rintro ⟨rfl, rfl⟩
    exact ⟨_, (returns_select _).mpr ⟨rfl, rfl, rfl⟩, rfl⟩

theorem goodsTotal_of_returns {cis : List CheckoutItem} {items : List OrderItem}
    (h : (resolveCheckoutItems cis).Returns E₀ (.start d m) items (.start d m)) :
    goodsTotal items = storedGoods d cis := by
  induction cis generalizing items with
  | nil =>
      obtain ⟨rfl, -⟩ := (returns_ret _).mp h
      rfl
  | cons ci rest ih =>
      rw [resolveCheckoutItems] at h
      simp only [bind_eq, pure_eq, returns_andThen, returns_getProductSnapshot] at h
      obtain ⟨_, _, ⟨rfl, rfl⟩, h⟩ := h
      cases hproduct : d.products.find ci.productId with
      | none => simp [hproduct] at h
      | some product =>
          cases hprice : product.priceRub with
          | none => simp [hproduct, productSnapshot, hprice] at h
          | some price =>
              simp only [hproduct, Option.map_some, productSnapshot, Option.bind_some, hprice,
                returns_andThen, returns_ret] at h
              obtain ⟨resolved, s₂, hrest, rfl, rfl⟩ := h
              have htail := ih hrest
              rw [goodsTotal, storedGoods, List.map_cons, List.sum_cons, List.map_cons,
                List.sum_cons, hproduct, Option.bind_some, hprice, Option.getD_some]
              exact congrArg _ htail

theorem effectOf_eq_ok {code : String} {goods : Int} {promo : Promotion} {effect : PromoEffect}
    (h : effectOf cfg code goods promo = .ok effect) :
    effect.appliedCode = code ∧
      effect.freeDelivery = decide (promo.effectType = .FREE_DELIVERY) ∧
      effect.discountRub = match promo.effectType, promo.discount with
        | .PERCENT_DISCOUNT, some discount => ((cfg.percentOf goods discount).toOption).getD 0
        | .FIXED_AMOUNT, some discount => min (truncated discount) goods
        | _, _ => 0 := by
  unfold effectOf at h
  cases htype : promo.effectType with
  | PERCENT_DISCOUNT =>
      cases hdiscount : promo.discount with
      | none => simp [htype, hdiscount] at h
      | some discount =>
          cases hpercent : cfg.percentOf goods discount with
          | error e => simp [htype, hdiscount, hpercent, Except.map] at h
          | ok n =>
              simp only [htype, hdiscount, hpercent, Except.map, Except.ok.injEq] at h
              subst h
              simp [hpercent, Except.toOption]
  | FIXED_AMOUNT =>
      cases hdiscount : promo.discount with
      | none => simp [htype, hdiscount] at h
      | some discount =>
          simp only [htype, hdiscount, Except.ok.injEq] at h
          subst h
          simp
  | FREE_DELIVERY =>
      simp only [htype, Except.ok.injEq] at h
      subst h
      simp

/-- A code that cannot be sent is refused. -/
theorem storable_of_returns {s s' : Quiet Database Memory} {promoCode : Option String}
    {goods : Int} {effect : Option PromoEffect}
    (h : (resolvePromoEffect cfg promoCode goods).Returns E₀ s effect s') :
    storable (strip (promoCode.getD "")) = true := by
  by_contra hcode
  have hempty : strip (promoCode.getD "") ≠ "" := by
    intro hempty
    rw [hempty] at hcode
    exact hcode (by decide)
  rw [resolvePromoEffect] at h
  simp [hempty, hcode] at h

/-- A promotion resolved in a session that has not failed is the one that the code applies. -/
theorem applied_of_returns {s s' : Quiet Database Memory} (hs : s.failed = false)
    {promoCode : Option String} {goods : Int} {effect : Option PromoEffect}
    (h : (resolvePromoEffect cfg promoCode goods).Returns E₀ s effect s') :
    s' = s ∧ match appliedPromotion cfg promoCode s.view with
      | none => effect = none
      | some promo => ∃ e, effectOf cfg (strip (promoCode.getD "")) goods promo = .ok e ∧
          effect = some e :=
  (returns_resolvePromoEffect hs (storable_of_returns h)).mp h

/-- A customer is looked up or created beside everything else that is stored. -/
theorem end_of_findOrCreateByPhone {name phone : String} {customer : Customer}
    {s' : Quiet Database Memory}
    (h : (findOrCreateByPhone name phone).Returns E₀ (.start d m) customer s') :
    ∃ customers, s' = .start { d with customers := customers } m := by
  rw [findOrCreateByPhone] at h
  simp only [bind_eq, returns_andThen] at h
  obtain ⟨canonical, s₁, hcanonical, h⟩ := h
  obtain ⟨-, rfl⟩ : normalizePhone phone = .ok canonical ∧ s₁ = .start d m := by
    cases hphone : normalizePhone phone with
    | error e => simp [hphone] at hcanonical
    | ok text => simpa [hphone, eq_comm] using hcanonical
  simp only [returns_withSession, returns_andThen, customers.returns_find] at h
  obtain ⟨s₂, ⟨found, s₃, ⟨-, rfl, rfl⟩, h⟩, hend⟩ := h
  cases hfound : (customers.table (Quiet.start d m).view).find canonical with
  | some existing =>
      rw [hfound] at h
      obtain ⟨-, rfl⟩ := (returns_ret _).mp h
      exact ⟨d.customers, hend⟩
  | none =>
      rw [hfound] at h
      simp only [uuid4, andThen, pure_eq, returns_choose, returns_andThen, customers.returns_insert,
        returns_commitSession, returns_ret] at h
      obtain ⟨-, _, ⟨-, -, -, -, rfl⟩, _, _, rfl, -, rfl⟩ := h
      exact ⟨_, hend⟩

theorem stored_of_findOrCreateByPhone {name phone : String} {customer : Customer} {d₁ : Database}
    (h : (findOrCreateByPhone name phone).Returns E₀ (.start d m) customer (.start d₁ m)) :
    ∃ customers, d₁ = { d with customers := customers } := by
  obtain ⟨customers, hend⟩ := end_of_findOrCreateByPhone h
  exact ⟨customers, congrArg Quiet.db hend⟩

/-- The money of a checkout that has resolved its items and its promotion. -/
theorem money_of_resolved {body : CheckoutRequest} {items : List OrderItem}
    {effect : Option PromoEffect}
    (hitems : (resolveCheckoutItems body.items).Returns E₀ (.start d m) items (.start d m))
    (heffect : (withSession (resolvePromoEffect cfg body.promoCode (goodsTotal items))).Returns E₀
      (.start d m) effect (.start d m)) :
    (effect.map PromoEffect.discountRub).getD 0 = takenOff cfg d body ∧
      effect.map PromoEffect.appliedCode = (appliedPromotion cfg body.promoCode d).map
        (fun _ => strip (body.promoCode.getD "")) ∧
      computeCheckoutTotal cfg items body.deliveryMode effect (zoneFee d body) =
        (if appliedPromotion cfg body.promoCode d = none then storedGoods d body.items
          else max 0 (storedGoods d body.items - takenOff cfg d body)) +
          chargedFee cfg body.deliveryMode (appliedPromotion cfg body.promoCode d)
            (zoneFee d body) := by
  have hgoods := goodsTotal_of_returns hitems
  obtain ⟨s₁, heffect, -⟩ := (returns_withSession _).mp heffect
  have heffect := (applied_of_returns rfl heffect).2
  rw [hgoods] at heffect
  cases happlied : appliedPromotion cfg body.promoCode d with
  | none =>
      obtain rfl : effect = none := by simpa [Quiet.start, happlied] using heffect
      refine ⟨?_, rfl, ?_⟩
      · simp [takenOff, happlied]
      · have hany : (none : Option PromoEffect).any PromoEffect.freeDelivery =
            (none : Option Promotion).any (·.effectType = .FREE_DELIVERY) := rfl
        rw [computeCheckoutTotal_fee cfg items body.deliveryMode _ hany, hgoods]
        rfl
  | some promo =>
      obtain ⟨effect, he, rfl⟩ : ∃ e, effectOf cfg (strip (body.promoCode.getD ""))
          (storedGoods d body.items) promo = .ok e ∧ effect = some e := by
        simpa [Quiet.start, happlied] using heffect
      obtain ⟨hcode, hfree, hdiscount⟩ := effectOf_eq_ok he
      have htaken : effect.discountRub = takenOff cfg d body := by
        rw [takenOff, happlied]
        exact hdiscount
      refine ⟨htaken, ?_, ?_⟩
      · simp [hcode]
      · have hany : (some effect).any PromoEffect.freeDelivery =
            (some promo).any (·.effectType = .FREE_DELIVERY) := by
          simpa using hfree
        rw [computeCheckoutTotal_fee cfg items body.deliveryMode _ hany, hgoods]
        simp [htaken]

/-- A row that is unopposed is inserted when the columns hold it. -/
theorem returns_createOrderFromCheckout_iff {body : CheckoutRequest} {customerId : Uuid}
    {items : List OrderItem} {totalRub discountRub : Int} {promoCode : Option String}
    (hrow : Unopposed d (checkoutOrder (BitVec.ofNat 128 (E₀.supply d)) body customerId items
      totalRub promoCode discountRub)) :
    (∃ id s', (createOrderFromCheckout body customerId items totalRub promoCode
        discountRub).Returns E₀ (.start d m) id s') ↔
      E₀.fits (.order (checkoutOrder (BitVec.ofNat 128 (E₀.supply d)) body customerId items
        totalRub promoCode discountRub)) = true := by
  obtain ⟨hfree, hzone⟩ := hrow
  simp only [createOrderFromCheckout, uuid4, bind_eq, andThen, pure_eq, returns_withSession,
    returns_choose, returns_andThen, orders.returns_insert, returns_commitSession, returns_ret]
  constructor
  · rintro ⟨id, _, _, ⟨_, _, ⟨-, -, -, hfits, -⟩, -⟩, -⟩
    exact hfits
  · intro hfits
    refine ⟨_, _, _, ⟨(), _, ⟨rfl, hfree, ?_, hfits, rfl⟩, (), _, rfl, rfl, rfl⟩, rfl⟩
    cases hid : body.zoneId with
    | none => rfl
    | some zone => exact hzone zone hid

/-- An order whose row is unopposed is placed when the columns hold the row. -/
theorem returns_placeOrder_iff {body : CheckoutRequest} {row : Order}
    (h : Inserts cfg E₀ d m body row) (hrow : Unopposed d row) :
    (∃ r s', (placeOrder cfg body).Returns E₀ (.start d m) r s') ↔
      E₀.fits (.order row) = true := by
  obtain ⟨customer, d₁, items, effect, hcustomer, hitems, heffect, rfl⟩ := h
  have hrow₁ : Unopposed d₁ (checkoutOrder (BitVec.ofNat 128 (E₀.supply d₁)) body customer.id
      items (computeCheckoutTotal cfg items body.deliveryMode effect (zoneFee d₁ body))
      (effect.map PromoEffect.appliedCode) ((effect.map PromoEffect.discountRub).getD 0)) := by
    obtain ⟨customers, rfl⟩ := stored_of_findOrCreateByPhone hcustomer
    exact hrow
  rw [← returns_createOrderFromCheckout_iff (m := m) hrow₁]
  simp only [placeOrder, bind_eq, hcustomer.andThen_iff, hitems.andThen_iff,
    heffect.andThen_iff]
  cases hid : body.zoneId with
  | none =>
      have hfee : zoneFee d₁ body = none := by simp [zoneFee, hid]
      simp only [hfee, pure_eq, andThen, returns_andThen, returns_ret]
      constructor
      · rintro ⟨r, s', id, s₁, hid, -⟩
        exact ⟨id, s₁, hid⟩
      · rintro ⟨id, s₁, hid⟩
        exact ⟨_, _, id, s₁, hid, rfl, rfl⟩
  | some zone =>
      have hfee : zoneFee d₁ body =
          (d₁.deliveryZones.find zone).map DeliveryZone.deliveryFeeRub := by
        simp [zoneFee, hid]
      have hread : (withSession (select fun (d : Database) =>
          d.deliveryZones.find zone) : Async (Option DeliveryZone)).Returns
          E₀ (.start d₁ m) (d₁.deliveryZones.find zone) (.start d₁ m) := by
        rw [returns_withSession]
        exact ⟨_, (returns_select _).mpr ⟨rfl, rfl, rfl⟩, rfl⟩
      simp only [hread.andThen_iff, hfee, pure_eq, andThen, returns_andThen, returns_ret]
      constructor
      · rintro ⟨r, s', id, s₁, hid, -⟩
        exact ⟨id, s₁, hid⟩
      · rintro ⟨id, s₁, hid⟩
        exact ⟨_, _, id, s₁, hid, rfl, rfl⟩

end Resolved

/-! ## When the columns hold an order -/

/-- The ids of a checkout are those that were verified. -/
theorem uids_of_verified {F : WebAppFunctions} {maxToken telegramToken : Text}
    {request : IncomingCheckout} {body : CheckoutRequest}
    (h : request.verified F maxToken telegramToken = .ok body) :
    ∃ maxUid telegramUid, verifiedUid F maxToken request.maxInitData = .ok maxUid ∧
      verifiedUid F telegramToken request.telegramInitData = .ok telegramUid ∧
      body = { request.body with
        clientMaxUid := maxUid, clientZaloUid := request.zaloUid,
        clientTelegramUid := telegramUid } := by
  rw [IncomingCheckout.verified] at h
  cases hmax : verifiedUid F maxToken request.maxInitData with
  | error e => simp [hmax, bind, Except.bind] at h
  | ok maxUid =>
      cases htelegram : verifiedUid F telegramToken request.telegramInitData with
      | error e => simp [hmax, htelegram, bind, Except.bind] at h
      | ok telegramUid =>
          simp only [hmax, htelegram, bind, Except.bind, pure, Except.pure, Except.ok.injEq] at h
          exact ⟨maxUid, telegramUid, rfl, rfl, h.symm⟩

/-- The values of a row that comes to be inserted. -/
theorem values_of_inserts {cfg : Settings} {E₀ : Engine Database Write} {d : Database} {m : Memory}
    {body : CheckoutRequest} {row : Order} (h : Inserts cfg E₀ d m body row) :
    ∃ id customerId items, row = checkoutOrder id body customerId items
      ((if appliedPromotion cfg body.promoCode d = none then storedGoods d body.items
        else max 0 (storedGoods d body.items - takenOff cfg d body)) +
        chargedFee cfg body.deliveryMode (appliedPromotion cfg body.promoCode d) (zoneFee d body))
      ((appliedPromotion cfg body.promoCode d).map fun _ => strip (body.promoCode.getD ""))
      (takenOff cfg d body) := by
  obtain ⟨customer, d₁, items, effect, hcustomer, hitems, heffect, rfl⟩ := h
  obtain ⟨hdiscount, hcode, htotal⟩ := money_of_resolved hitems heffect
  rw [hdiscount, hcode, htotal]
  obtain ⟨customers, rfl⟩ := stored_of_findOrCreateByPhone hcustomer
  exact ⟨_, customer.id, items, rfl⟩

/-- The columns hold the row of a checkout when its numbers and texts are within bounds, and
the row is placed when the columns hold it. -/
theorem checkout_row_fits_iff (cfg : Settings) {E₀ : Engine Database Write} (d : Database)
    (m : Memory) (F : WebAppFunctions) (maxToken telegramToken : Text)
    (request : IncomingCheckout) {body : CheckoutRequest} {row : Order}
    (hcolumns : ∀ row : Order, E₀.fits (.order row) = row.fitsColumns)
    (hmethod : body.paymentMethod ∈ ["yookassa_sbp", "yookassa_sberbank", "cash"])
    (hverified : request.verified F maxToken telegramToken = .ok body)
    (hinserts : Inserts cfg E₀ d m body row) :
    (row.fitsColumns = true ↔ WithinBounds cfg d F maxToken telegramToken request) ∧
      (Unopposed d row → ((∃ r s', (placeOrder cfg body).Returns E₀ (.start d m) r s') ↔
        WithinBounds cfg d F maxToken telegramToken request)) := by
  have hfits : row.fitsColumns = true ↔
      WithinBounds cfg d F maxToken telegramToken request := by
    obtain ⟨id, customerId, items, rfl⟩ := values_of_inserts hinserts
    obtain ⟨maxUid, telegramUid, hmax, htelegram, rfl⟩ := uids_of_verified hverified
    have hmethods : varcharFits 32 request.body.paymentMethod = true := by
      simp only [List.mem_cons, List.not_mem_nil, or_false] at hmethod
      rcases hmethod with h | h | h <;> rw [h] <;> decide
    simp only [Order.fitsColumns, checkoutOrder, Option.all_some, hmethods, Bool.and_eq_true,
      and_true]
    constructor
    · rintro ⟨⟨⟨⟨⟨⟨⟨⟨htotal, hdiscount⟩, huid⟩, htuid⟩, hmode⟩, hcode⟩, hzalo⟩, hcomment⟩, haddress⟩
      constructor
      · exact hdiscount
      · exact htotal
      · intro uid h
        obtain rfl : maxUid = some uid := Except.ok.inj (hmax.symm.trans h)
        simpa using huid
      · intro uid h
        obtain rfl : telegramUid = some uid := Except.ok.inj (htelegram.symm.trans h)
        simpa using htuid
      · exact hmode
      · intro happlied
        obtain ⟨promo, hpromo⟩ := Option.isSome_iff_exists.mp happlied
        simpa [hpromo] using hcode
      · exact fun uid h => (Option.all_eq_true _ _).mp hzalo uid h
      · exact fun text h => (Option.all_eq_true _ _).mp hcomment text h
      · exact haddress
    · intro h
      refine ⟨⟨⟨⟨⟨⟨⟨⟨h.total, h.discount⟩, ?_⟩, ?_⟩, h.deliveryMode⟩, ?_⟩, ?_⟩, ?_⟩, h.address⟩
      · apply (Option.all_eq_true _ _).mpr
        intro uid huid
        exact h.maxUid uid (hmax.trans (congrArg _ huid))
      · apply (Option.all_eq_true _ _).mpr
        intro uid huid
        exact h.telegramUid uid (htelegram.trans (congrArg _ huid))
      · apply (Option.all_eq_true _ _).mpr
        intro code hcode
        obtain ⟨promo, hpromo, rfl⟩ := Option.map_eq_some_iff.mp hcode
        exact h.promoCode (Option.isSome_iff_exists.mpr ⟨promo, hpromo⟩)
      · exact (Option.all_eq_true _ _).mpr h.zaloUid
      · exact (Option.all_eq_true _ _).mpr h.comment
  refine ⟨hfits, fun hrow => ?_⟩
  rw [returns_placeOrder_iff hinserts hrow, hcolumns, hfits]

/-! ## Samples -/

/-- A database whose columns hold what they can. -/
def columned (n : Nat) : Engine Database Write where
  fits
    | .order row => row.fitsColumns
    | _ => true
  supply _ := n

/-- A customer. -/
def anna : Customer := ⟨8, "Anna", "+79001234567"⟩

theorem columned_order (row : Order) : (columned 9).fits (.order row) = row.fitsColumns := rfl

/-- A shop that sells tea for 100 rubles and knows Anna. -/
def teaShop : Database :=
  { emptyDatabase with
    products := Table.empty.put ⟨5, "Tea", some 100, none, true⟩
    customers := Table.empty.put anna }

/-- Anna collects tea and pays in cash. -/
def teaPickup (qty : Int) (hqty : 0 < qty) : IncomingCheckout where
  body := {
    name := "Anna"
    phone := "+79001234567"
    address := none
    comment := none
    deliveryMode := "pickup"
    paymentMethod := "cash"
    zoneId := none
    items := [⟨5, qty, hqty⟩]
    idempotencyKey := "k"
    clientMaxUid := none
    clientZaloUid := none
    clientTelegramUid := none
    promoCode := none }
  maxInitData := none
  telegramInitData := none
  zaloUid := none

/-- The row of Anna's order. -/
def teaOrder (qty : Int) (hqty : 0 < qty) : Order :=
  checkoutOrder 9 (teaPickup qty hqty).body anna.id [⟨5, "Tea", 100, qty⟩] (100 * qty) none 0

theorem anna_found : (findOrCreateByPhone "Anna" "+79001234567").Returns (columned 9)
    (.start teaShop {}) anna (.start teaShop {}) := by
  have hphone : normalizePhone "+79001234567" = .ok "+79001234567" := by decide
  rw [findOrCreateByPhone, hphone, Returns]
  rfl

theorem teaPickup_inserts (qty : Int) (hqty : 0 < qty) :
    Inserts asciiSettings (columned 9) teaShop {} (teaPickup qty hqty).body
      (teaOrder qty hqty) := by
  refine ⟨anna, teaShop, [⟨5, "Tea", 100, qty⟩], none, anna_found, ?_, ?_, ?_⟩
  · rw [Returns]
    rfl
  · rw [Returns]
    rfl
  · simp [teaOrder, computeCheckoutTotal, goodsTotal, teaPickup, columned]

theorem teaOrder_unopposed (qty : Int) (hqty : 0 < qty) :
    Unopposed teaShop (teaOrder qty hqty) :=
  ⟨rfl, fun zone h => by cases h⟩

/-- Three cups of tea fit. -/
theorem checkout_row_fits_tea :
    (teaPickup 3 (by decide)).verified plainFunctions [] [] = .ok (teaPickup 3 (by decide)).body ∧
      ((teaOrder 3 (by decide)).fitsColumns = true ↔
        WithinBounds asciiSettings teaShop plainFunctions [] [] (teaPickup 3 (by decide))) ∧
      ((∃ r s', (placeOrder asciiSettings (teaPickup 3 (by decide)).body).Returns (columned 9)
          (.start teaShop {}) r s') ↔
        WithinBounds asciiSettings teaShop plainFunctions [] [] (teaPickup 3 (by decide))) := by
  have h := checkout_row_fits_iff asciiSettings teaShop {} plainFunctions [] []
    (teaPickup 3 (by decide)) columned_order (by decide) rfl (teaPickup_inserts 3 (by decide))
  exact ⟨rfl, h.1, h.2 (teaOrder_unopposed 3 (by decide))⟩

/-- Thirty million cups of tea cost more than the column of the total holds: the key of the
request is recorded, and no order is. -/
theorem tea_overflows :
    (teaPickup 30000000 (by decide)).verified plainFunctions [] [] =
        .ok (teaPickup 30000000 (by decide)).body ∧
      Inserts asciiSettings (columned 9) teaShop {} (teaPickup 30000000 (by decide)).body
        (teaOrder 30000000 (by decide)) ∧
      (teaOrder 30000000 (by decide)).fitsColumns = false ∧
      ∃ s', (checkout asciiSettings (teaPickup 30000000 (by decide)).body).serial (columned 9)
          (.start teaShop {}) = (.error .dbapiError, s') ∧
        s'.db.orders.rows = [] ∧
        s'.db.idempotencyKeys.rows.map IdempotencyKey.key = ["checkout:k"] := by
  refine ⟨rfl, teaPickup_inserts _ _, by decide, _, rfl, ?_, ?_⟩
  · decide
  · decide

end Sieshka
