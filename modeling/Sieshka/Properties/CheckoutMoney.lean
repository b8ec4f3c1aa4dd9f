import Sieshka.Web.CustomerRoutes
import Sieshka.Samples
import Sieshka.Transactions.Checks
import Mathlib.Algebra.Order.BigOperators.Group.List
import Mathlib.Data.Rat.Floor

/-!
# The money of a checkout

A checkout charges the goods less the discount plus the fee, and keeps the total and
the discount. What they leave over is the fee again.
-/

namespace Sieshka

open Transactions Prog

/-! ## Rounding -/

theorem truncated_eq_floor {q : ℚ} (h : 0 ≤ q) : truncated q = ⌊q⌋ := by
  rw [truncated, Rat.floor_def', Int.tdiv_eq_ediv_of_nonneg (Rat.num_nonneg.mpr h)]

theorem truncated_nonneg {q : ℚ} (h : 0 ≤ q) : 0 ≤ truncated q := by
  rw [truncated_eq_floor h]
  exact Int.floor_nonneg.mpr h

theorem truncated_le {q : ℚ} {n : Int} (h : 0 ≤ q) (hn : q ≤ n) : truncated q ≤ n := by
  rw [truncated_eq_floor h]
  exact Int.floor_le_iff.mpr (by linarith)

/-! ## Promotions -/

/-- The promotion a code resolves to: the only active one under it. -/
def appliedPromotion (cfg : Settings) (promoCode : Option String) (d : Database) :
    Option Promotion :=
  let code := strip (promoCode.getD "")
  if code = "" then none
  else match activePromotions cfg code d with
    | [promo] => some promo
    | _ => none

/-- A promotion a code resolves to is active and carries the code. -/
theorem appliedPromotion_coded {cfg : Settings} {promoCode : Option String} {d : Database}
    {promo : Promotion} (h : appliedPromotion cfg promoCode d = some promo) :
    promo.triggerCode.map cfg.lower = some (cfg.lower (strip (promoCode.getD ""))) ∧
      promo.state = "ACTIVE" := by
  unfold appliedPromotion at h
  dsimp only at h
  split_ifs at h
  cases hfound : activePromotions cfg (strip (promoCode.getD "")) d with
  | nil => simp [hfound] at h
  | cons found rest =>
      cases rest with
      | cons other rest => simp [hfound] at h
      | nil =>
          obtain rfl : found = promo := by simpa [hfound] using h
          have hmem : found ∈ activePromotions cfg (strip (promoCode.getD "")) d := by
            rw [hfound]
            exact List.mem_singleton_self _
          simpa [activePromotions] using (List.mem_filter.mp hmem).2

/-- The discount is a number, in the range of its kind. -/
def Promotion.Usable (promo : Promotion) : Prop :=
  ∃ discount, promo.discount = some discount ∧ match promo.effectType with
    | .PERCENT_DISCOUNT => 0 ≤ discount ∧ discount ≤ 100
    | .FIXED_AMOUNT => 0 < discount
    | .FREE_DELIVERY => True

/-- The arithmetic of percents is exact, up to the truncation at its end. -/
def ExactPercents (cfg : Settings) : Prop :=
  ∀ goodsTotal discount, cfg.percentOf goodsTotal discount =
    .ok (truncated (goodsTotal * discount / 100))

/-- A dictionary that was dumped from an item is validated to that item. -/
def ItemsRoundTrip (cfg : Settings) : Prop :=
  ∀ (item : OrderItem) fields, item.dump = .obj fields → cfg.orderItem fields = some item

section Effect

variable {cfg : Settings} {E₀ : Engine Database Write} {s s' : Quiet Database Memory}

/-- What `resolve_promo_effect` returns. -/
theorem returns_resolvePromoEffect (hs : s.failed = false) {promoCode : Option String}
    (hcode : storable (strip (promoCode.getD "")) = true) {goods : Int}
    {effect : Option PromoEffect} :
    (resolvePromoEffect cfg promoCode goods).Returns E₀ s effect s' ↔ s' = s ∧
      match appliedPromotion cfg promoCode s.view with
      | none => effect = none
      | some promo => ∃ e, effectOf cfg (strip (promoCode.getD "")) goods promo = .ok e ∧
          effect = some e := by
  rw [resolvePromoEffect, appliedPromotion]
  split_ifs with hempty
  · simp [and_comm]
  · cases hfound : activePromotions cfg (strip (promoCode.getD "")) s.view with
    | nil => simp [hs, hcode, hfound, and_comm]
    | cons promo rest =>
        cases rest with
        | nil =>
            cases heffect : effectOf cfg (strip (promoCode.getD "")) goods promo with
            | error e => simp [hs, hcode, hfound, heffect]
            | ok e => simp [hs, hcode, hfound, heffect, and_comm]
        | cons other rest => simp [hs, hcode, hfound, and_comm]

theorem goodsTotal_nonneg {items : List OrderItem}
    (h : ∀ item ∈ items, 0 ≤ item.priceRub ∧ 0 < item.qty) : 0 ≤ goodsTotal items := by
  apply List.sum_nonneg
  intro n hn
  obtain ⟨item, hitem, rfl⟩ := List.mem_map.mp hn
  exact Int.mul_nonneg (h item hitem).1 (h item hitem).2.le

/-- A promotion with a usable discount has an effect, which takes away no more than
the goods. -/
theorem effectOf_usable (hcfg : ExactPercents cfg) {promo : Promotion} (h : promo.Usable)
    (code : String) {goods : Int} (hgoods : 0 ≤ goods) :
    ∃ effect, effectOf cfg code goods promo = .ok effect ∧
      0 ≤ effect.discountRub ∧ effect.discountRub ≤ goods ∧
      (effect.freeDelivery = true ↔ promo.effectType = .FREE_DELIVERY) := by
  obtain ⟨discount, hdiscount, hrange⟩ := h
  rw [effectOf]
  have hnonneg : (0 : ℚ) ≤ goods := by exact_mod_cast hgoods
  cases heffect : promo.effectType with
  | PERCENT_DISCOUNT =>
      rw [heffect] at hrange
      obtain ⟨hlow, hhigh⟩ := hrange
      have hpart : (0 : ℚ) ≤ goods * discount / 100 := by positivity
      have hwhole : (goods : ℚ) * discount / 100 ≤ goods := by
        rw [div_le_iff₀ (by norm_num)]
        exact mul_le_mul_of_nonneg_left hhigh hnonneg
      refine ⟨⟨promo.id, code, truncated (goods * discount / 100), false⟩, ?_,
        truncated_nonneg hpart, truncated_le hpart hwhole, by simp⟩
      simp [hdiscount, hcfg goods discount, Except.map]
  | FIXED_AMOUNT =>
      rw [heffect] at hrange
      refine ⟨⟨promo.id, code, min (truncated discount) goods, false⟩, ?_,
        le_min (truncated_nonneg hrange.le) hgoods, min_le_right _ _, by simp⟩
      simp [hdiscount]
  | FREE_DELIVERY => exact ⟨_, rfl, le_rfl, hgoods, by simp⟩

end Effect

/-! ## The fee -/

/-- The fee of a delivery: none for a pickup or under a code for a free delivery, else
the fee of the zone, or that of the settings without one. -/
def chargedFee (cfg : Settings) (deliveryMode : String) (promo : Option Promotion)
    (zoneFee : Option Int) : Int :=
  if deliveryMode = "pickup" ∨ promo.any (·.effectType = .FREE_DELIVERY) then 0
  else zoneFee.getD cfg.deliveryFee

section Fee

variable {cfg : Settings} {E₀ : Engine Database Write} {s s' : Quiet Database Memory}

/-- The total is what the discount leaves of the goods, but no less than nothing, plus
the fee. -/
theorem computeCheckoutTotal_fee (cfg : Settings) (items : List OrderItem) (deliveryMode : String)
    {promo : Option Promotion} {effect : Option PromoEffect} (fee : Option Int)
    (hfree : effect.any PromoEffect.freeDelivery =
      promo.any (·.effectType = .FREE_DELIVERY)) :
    computeCheckoutTotal cfg items deliveryMode effect fee =
      (effect.elim (goodsTotal items) fun promo => max 0 (goodsTotal items - promo.discountRub)) +
        chargedFee cfg deliveryMode promo fee := by
  unfold computeCheckoutTotal chargedFee
  rw [← hfree]
  by_cases hmode : deliveryMode = "pickup"
  · cases effect with
    | none => simp [hmode]
    | some effect => simp [hmode]
  · cases effect with
    | none => simp [hmode]
    | some effect =>
        by_cases hdelivery : effect.freeDelivery = true
        · simp [hmode, hdelivery]
        · simp [hmode, hdelivery]

/-- The total is the goods less the discount plus the fee. -/
theorem computeCheckoutTotal_eq (cfg : Settings) {items : List OrderItem} (deliveryMode : String)
    {promo : Option Promotion} {effect : Option PromoEffect} (zoneFee : Option Int)
    (hless : (effect.map PromoEffect.discountRub).getD 0 ≤ goodsTotal items)
    (hfree : effect.any PromoEffect.freeDelivery =
      promo.any (·.effectType = .FREE_DELIVERY)) :
    computeCheckoutTotal cfg items deliveryMode effect zoneFee =
      goodsTotal items - (effect.map PromoEffect.discountRub).getD 0 +
        chargedFee cfg deliveryMode promo zoneFee := by
  rw [computeCheckoutTotal_fee cfg items deliveryMode zoneFee hfree]
  cases effect with
  | none => simp
  | some effect =>
      have hmax : max 0 (goodsTotal items - effect.discountRub) =
          goodsTotal items - effect.discountRub :=
        max_eq_right (by simpa using hless)
      simp [hmax]

/-- Items that were dumped are read back. -/
theorem returns_coerceItems_dump (hcfg : ItemsRoundTrip cfg) (items : List OrderItem) :
    (coerceItems cfg (items.map OrderItem.dump)).Returns E₀ s items s := by
  induction items with
  | nil => simp [coerceItems]
  | cons item rest ih =>
      have hitem : coerceItem cfg item.dump = .ret item := by
        rw [OrderItem.dump, coerceItem, hcfg item _ rfl]
        rfl
      rw [List.map_cons, coerceItems, hitem]
      simp only [bind_eq, pure_eq, returns_andThen, returns_ret]
      exact ⟨item, s, ⟨rfl, rfl⟩, rest, s, ih, rfl, rfl⟩

/-- The page shows what the total leaves over. -/
theorem returns_shopThanks (E₀ : Engine Database Write) (hcfg : ItemsRoundTrip cfg)
    (d : Database) (m : Memory) {orderId : String} {id : Uuid} (hid : readUuid orderId = some id) {row : Order}
    (hrow : d.orders.find id = some row) {items : List OrderItem}
    (hitems : row.items = .arr (items.map OrderItem.dump)) {totalRub : Int}
    (htotal : row.totalRub = some totalRub) :
    ∃ page, (shopThanks cfg orderId).Returns E₀ (.start d m) page (.start d m) ∧
      page.goodsTotal = some (goodsTotal items) ∧
      page.deliveryFee = some (totalRub - goodsTotal items + row.discountRub) := by
  have hread : (getOrder cfg id).Returns E₀ (.start d m)
      (some (gotOrder row (customerOf d row) items)) (.start d m) := by
    simp only [getOrder, bind_eq, returns_withSession, returns_andThen, returns_select]
    refine ⟨.start d m, ⟨some (row, customerOf d row), .start d m, ⟨rfl, ?_, rfl⟩, ?_⟩, rfl⟩
    · simp [Quiet.start, hrow]
    · simp only [hitems, Json.iter, ofExcept_ok, andThen, returns_andThen]
      exact ⟨items, _, returns_coerceItems_dump hcfg items, rfl⟩
  refine ⟨thanksPage cfg (gotOrder row (customerOf d row) items), ?_, rfl, ?_⟩
  · simp only [shopThanks, hid, bind_eq, returns_andThen]
    exact ⟨_, _, hread, rfl⟩
  · simp [thanksPage, shownFee, gotOrder, fetchedOrder, htotal]

end Fee

/-! ## The law -/

/-- What is charged for items at a total: the goods less the discount plus the fee. -/
structure ChargedFor (cfg : Settings) (items : List OrderItem) (deliveryMode : String)
    (promo : Option Promotion) (zoneFee : Option Int) (discountRub totalRub : Int) : Prop where
  discount_nonneg : 0 ≤ discountRub
  discount_le : discountRub ≤ goodsTotal items
  total : totalRub =
    goodsTotal items - discountRub + chargedFee cfg deliveryMode promo zoneFee

/-- The page of every order that keeps the items, the total and the discount shows the
fee that was charged. -/
def ThanksShows (cfg : Settings) (items : List OrderItem) (discountRub totalRub fee : Int) :
    Prop :=
  ∀ (E₀ : Engine Database Write) (d : Database) (m : Memory) orderId id row,
    readUuid orderId = some id → d.orders.find id = some row →
    row.items = .arr (items.map OrderItem.dump) → row.totalRub = some totalRub →
    row.discountRub = discountRub →
    ∃ page, (shopThanks cfg orderId).Returns E₀ (.start d m) page (.start d m) ∧
      page.deliveryFee = some fee

/-- A checkout with a usable promotion, or without one, resolves it, charges the goods
less the discount plus the fee, and the page of the order shows this fee. -/
theorem checkout_money {cfg : Settings} (hpercent : ExactPercents cfg)
    (hround : ItemsRoundTrip cfg) (E₀ : Engine Database Write) {s : Quiet Database Memory}
    (hs : s.failed = false) {promoCode : Option String}
    (hcode : storable (strip (promoCode.getD "")) = true) {items : List OrderItem}
    (hitems : ∀ item ∈ items, 0 ≤ item.priceRub ∧ 0 < item.qty)
    (hpromo : ∀ promo ∈ appliedPromotion cfg promoCode s.view, promo.Usable)
    (deliveryMode : String) (zoneFee : Option Int) :
    ∃ effect, (resolvePromoEffect cfg promoCode (goodsTotal items)).Returns E₀ s effect s ∧
      ChargedFor cfg items deliveryMode (appliedPromotion cfg promoCode s.view) zoneFee
        ((effect.map PromoEffect.discountRub).getD 0)
        (computeCheckoutTotal cfg items deliveryMode effect zoneFee) ∧
      ThanksShows cfg items ((effect.map PromoEffect.discountRub).getD 0)
        (computeCheckoutTotal cfg items deliveryMode effect zoneFee)
        (chargedFee cfg deliveryMode (appliedPromotion cfg promoCode s.view) zoneFee) := by
  have hgoods := goodsTotal_nonneg hitems
  obtain ⟨effect, heffect, hnonneg, hless, hfree⟩ : ∃ effect,
      (resolvePromoEffect cfg promoCode (goodsTotal items)).Returns E₀ s effect s ∧
      0 ≤ (effect.map PromoEffect.discountRub).getD 0 ∧
      (effect.map PromoEffect.discountRub).getD 0 ≤ goodsTotal items ∧
      effect.any PromoEffect.freeDelivery =
        (appliedPromotion cfg promoCode s.view).any (·.effectType = .FREE_DELIVERY) := by
    simp only [returns_resolvePromoEffect hs hcode, true_and]
    cases hfound : appliedPromotion cfg promoCode s.view with
    | none => exact ⟨none, rfl, le_rfl, hgoods, rfl⟩
    | some promo =>
        obtain ⟨effect, heffect, hnonneg, hless, hfree⟩ := effectOf_usable hpercent
          (hpromo promo hfound) (strip (promoCode.getD "")) hgoods
        refine ⟨some effect, ⟨effect, heffect, rfl⟩, hnonneg, hless, ?_⟩
        rw [Option.any_some, Option.any_some, Bool.eq_iff_iff, decide_eq_true_eq, hfree]
  have htotal := computeCheckoutTotal_eq cfg deliveryMode zoneFee hless hfree
  refine ⟨effect, heffect, ⟨hnonneg, hless, htotal⟩, ?_⟩
  intro E₁ d m orderId id row hid hrow hstored hsum hdiscount
  obtain ⟨page, hpage, -, hfee⟩ := returns_shopThanks E₁ hround d m hid hrow hstored hsum
  refine ⟨page, hpage, ?_⟩
  rw [hfee, htotal, hdiscount, Option.some.injEq]
  omega

/-! ## A sample -/

theorem exactPercents_ascii : ExactPercents asciiSettings := fun _ _ => rfl

theorem itemsRoundTrip_ascii : ItemsRoundTrip asciiSettings := by
  rintro item fields ⟨⟩
  simp [asciiSettings, sampleSettings, plainOrderItem, Json.get]

/-- A shop in which the code `tea` takes 15 percent off. -/
def teaDatabase : Database :=
  { emptyDatabase with promotions := [⟨1, some 15, .PERCENT_DISCOUNT, some "tea", "ACTIVE"⟩] }

theorem teaDatabase_applied : appliedPromotion asciiSettings (some " TEA ") teaDatabase =
    some ⟨1, some 15, .PERCENT_DISCOUNT, some "tea", "ACTIVE"⟩ := by
  decide +kernel

/-- Three pizzas of 333 rubles each, delivered for 90 rubles under the code `tea`. -/
theorem checkout_money_tea :
    ∃ effect, (resolvePromoEffect asciiSettings (some " TEA ")
        (goodsTotal [⟨3, "Pizza", 333, 3⟩])).Returns (numbered 1) (.start teaDatabase {}) effect
        (.start teaDatabase {}) ∧
      ChargedFor asciiSettings [⟨3, "Pizza", 333, 3⟩] "delivery"
        (appliedPromotion asciiSettings (some " TEA ") teaDatabase) (some 90)
        ((effect.map PromoEffect.discountRub).getD 0)
        (computeCheckoutTotal asciiSettings [⟨3, "Pizza", 333, 3⟩] "delivery" effect (some 90)) ∧
      ThanksShows asciiSettings [⟨3, "Pizza", 333, 3⟩]
        ((effect.map PromoEffect.discountRub).getD 0)
        (computeCheckoutTotal asciiSettings [⟨3, "Pizza", 333, 3⟩] "delivery" effect (some 90))
        (chargedFee asciiSettings "delivery"
          (appliedPromotion asciiSettings (some " TEA ") teaDatabase) (some 90)) := by
  refine checkout_money exactPercents_ascii itemsRoundTrip_ascii (numbered 1) rfl
    (by decide +kernel) (by simp) ?_ "delivery" (some 90)
  intro promo hpromo
  have happlied := teaDatabase_applied.symm.trans hpromo
  obtain rfl := Option.some.inj happlied
  exact ⟨15, rfl, by norm_num, by norm_num⟩

end Sieshka
