import Sieshka.Properties.CartBounds
import Sieshka.Properties.StorefrontOrders
import Sieshka.Web.CheckoutPage

/-!
# The total that the checkout page shows

The total on the checkout page is what the order will cost, but for a discount: the page keeps
the discount of the cart that a code was checked for, and the shop takes that of the cart that
is ordered.
-/

namespace Sieshka

open Transactions Prog

/-! ## The prices in a cart -/

namespace Cart

/-- All items have the property, of their product and their price. -/
def Every (P : String → ℚ → Prop) (items : List Item) : Prop :=
  ∀ item ∈ items, P item.productId item.priceRub

/-- The items of the cart have the property, and those of a cleared cart that can be brought
back. -/
structure Page.Every (P : String → ℚ → Prop) (page : Page) : Prop where
  stored : Cart.Every P page.stored
  clearBackup : ∀ items, page.clearBackup = some items → Cart.Every P items

/-- The property holds of what the event can add to the cart. -/
def Event.Brings (P : String → ℚ → Prop) : Event → Prop
  | .call _ (.addItem productId priceRub _ _) => P productId priceRub
  | .call _ (.setQty productId priceRub _ _ _) => P productId priceRub
  | _ => True

section

variable {P : String → ℚ → Prop} {storage : LocalStorage} {page : Page} {items : List Item}

theorem Every.set (h : Every P items) (i : ℕ) {item : Item}
    (hitem : P item.productId item.priceRub) : Every P (items.set i item) := by
  intro other hother
  rcases List.mem_or_eq_of_mem_set hother with hmem | heq
  · exact h other hmem
  · rw [heq]
    exact hitem

theorem Every.eraseIdx (h : Every P items) (i : ℕ) : Every P (items.eraseIdx i) :=
  fun item hitem => h item (List.mem_of_mem_eraseIdx hitem)

theorem Every.push (h : Every P items) {item : Item} (hitem : P item.productId item.priceRub) :
    Every P (items ++ [item]) := by
  intro other hother
  rcases List.mem_append.mp hother with hmem | hmem
  · exact h other hmem
  · rw [List.mem_singleton.mp hmem]
    exact hitem

theorem Every.found (h : Every P items) {productId : String} {found : ℕ × Item}
    (hfind : findItem items productId = some found) : P found.2.productId found.2.priceRub := by
  obtain ⟨before, after, rfl, -, -⟩ := split_of_findItem hfind
  apply h found.2
  simp

theorem Page.Every.load (h : page.Every P) (storage : LocalStorage) :
    Cart.Every P (loadCart storage page) := by
  intro item hitem
  unfold loadCart at hitem
  split_ifs at hitem
  · obtain ⟨stored, hstored, rfl⟩ := List.mem_map.mp hitem
    exact h.stored stored hstored
  · cases hitem

theorem Page.Every.save (h : page.Every P) (hitems : Cart.Every P items) :
    (saveCart storage items page).Every P := by
  unfold saveCart
  split_ifs
  · exact ⟨hitems, h.clearBackup⟩
  · exact h

theorem Page.Every.prune (h : page.Every P) : (pruneRecentlyDeleted storage page).Every P :=
  ⟨h.stored, h.clearBackup⟩

/-- An event leaves the property of the items. -/
theorem Page.Every.step (h : page.Every P) {event : Event} (hbrings : event.Brings P) :
    (page.step event).Every P := by
  cases event with
  | backupExpires => exact ⟨h.stored, by simp [Page.step]⟩
  | call storage call =>
      have hload := h.load storage
      cases call with
      | addItem productId priceRub name leadTimeMinutes =>
          simp only [Page.step, Call.run, addItem]
          cases hfind : findItem (loadCart storage page) productId with
          | none =>
              dsimp only
              split_ifs
              · exact h
              · apply Page.Every.prune
                exact Page.Every.save ⟨h.stored, h.clearBackup⟩ (hload.push hbrings)
          | some found =>
              dsimp only
              split_ifs
              · exact h
              · exact .prune (h.save (hload.set _ (hload.found hfind)))
      | updateQty productId delta =>
          simp only [Page.step, Call.run, updateQty]
          cases hfind : findItem (loadCart storage page) productId with
          | none => exact h
          | some found =>
              dsimp only
              split_ifs
              · apply Page.Every.prune
                exact Page.Every.save ⟨h.stored, h.clearBackup⟩ (hload.eraseIdx _)
              · exact h
              · exact h
              · exact .prune (h.save (hload.set _ (hload.found hfind)))
      | setQty productId priceRub name qty leadTimeMinutes =>
          simp only [Page.step, Call.run, setQty]
          cases hfind : findItem (loadCart storage page) productId with
          | none =>
              dsimp only
              split_ifs
              · exact h
              · exact .prune (h.save hload)
              · exact h
              · exact .prune (h.save (hload.push hbrings))
          | some found =>
              dsimp only
              split_ifs
              · exact h
              · exact .prune (h.save (hload.eraseIdx _))
              · exact h
              · exact .prune (h.save (hload.set _ (hload.found hfind)))
      | removeItem productId =>
          simp only [Page.step, Call.run, removeItem]
          cases hfind : findItem (loadCart storage page) productId with
          | none => exact h
          | some found =>
              apply Page.Every.prune
              exact Page.Every.save ⟨h.stored, h.clearBackup⟩ (hload.eraseIdx _)
      | clearCart =>
          simp only [Page.step, Call.run, clearCart]
          split_ifs
          · exact h
          · apply Page.Every.prune
            apply Page.Every.save
            · constructor
              · exact h.stored
              · intro items hitems
                obtain rfl := Option.some.inj hitems
                exact hload
            · simp [Cart.Every]
      | undoClearCart =>
          simp only [Page.step, Call.run, undoClearCart]
          cases hbackup : page.clearBackup with
          | none => exact h
          | some items =>
              have hsaved := @Page.Every.save P storage page _ h (h.clearBackup items hbackup)
              exact Page.Every.prune ⟨hsaved.stored, by simp⟩

/-- A call that does not get as far as `updateAllUI` leaves the cart as it is. -/
theorem stored_of_not_updatesUI {call : Call} (h : call.updatesUI storage page = false) :
    (call.run storage page).2.stored = page.stored := by
  unfold Call.updatesUI at h
  cases call with
  | addItem productId priceRub name leadTimeMinutes =>
      simp only [Call.run, addItem] at h ⊢
      cases hfind : findItem (loadCart storage page) productId with
      | none =>
          simp only [hfind] at h ⊢
          split_ifs at h ⊢
          · rfl
          · simp at h
      | some found =>
          simp only [hfind] at h ⊢
          split_ifs at h ⊢
          · rfl
          · simp at h
  | updateQty productId delta =>
      simp only [Call.run, updateQty] at h ⊢
      cases hfind : findItem (loadCart storage page) productId with
      | none => rfl
      | some found =>
          simp only [hfind] at h ⊢
          split_ifs at h ⊢
          · simp at h
          · rfl
          · rfl
          · simp at h
  | setQty productId priceRub name qty leadTimeMinutes =>
      simp only [Call.run, setQty] at h ⊢
      split_ifs at h ⊢
      · rfl
      · simp at h
      · rfl
      · simp at h
  | removeItem productId =>
      simp only [Call.run, removeItem] at h ⊢
      cases hfind : findItem (loadCart storage page) productId with
      | none => rfl
      | some found => simp [hfind] at h
  | clearCart =>
      simp only [Call.run, clearCart] at h ⊢
      split_ifs at h ⊢ with hempty
      · rfl
      · simp [hempty] at h
  | undoClearCart =>
      simp only [Call.run, undoClearCart] at h ⊢
      cases hbackup : page.clearBackup with
      | none => rfl
      | some items => simp [hbackup] at h

end

end Cart

/-! ## Runs of the page -/

/-- The shop sells the product at the price. -/
def SoldAt (d : Database) (productId : String) (priceRub : ℚ) : Prop :=
  ∃ id p price, uuid productId = .ok id ∧ d.products.find id = some p ∧
    p.priceRub = some price ∧ priceRub = (price : ℚ)

/-- What is put into the cart has the price it is sold at. -/
def PageEvent.Quotes (d : Database) : PageEvent → Prop
  | .cart event => event.Brings (SoldAt d)
  | _ => True

/-- What an update has read of the page. -/
def Update.read : Update → Option Reading
  | .widgets => none
  | .fee goods zoneId _ => some ⟨goods, some zoneId⟩

namespace CheckoutPage

/-- An update that goes on may show what it has read: the page is still so, or another update
under way has not read anything older. -/
def Timely (page : CheckoutPage) : PageEvent → Prop
  | .resume i => Refreshes.MayShow page.reading (page.updates.map Update.read) i
  | _ => True

instance (page : CheckoutPage) : (event : PageEvent) → Decidable (page.Timely event)
  | .resume i => inferInstanceAs (Decidable (Refreshes.MayShow page.reading _ i))
  | .cart _ | .chooseMode _ | .chooseZone _ | .typeCode _ | .applyCode | .checked | .refresh
  | .widgetFee _ => .isTrue trivial

/-- The subtotal of the check that was answered last, after an event. -/
def lastCheck (page : CheckoutPage) (before : ℚ) : PageEvent → ℚ
  | .checked => (page.checking.map Prod.snd).getD before
  | _ => before

section

variable (cfg : Settings) (E₀ : Engine Database Write) (d : Database) (m : Memory)
  (ok : CheckoutPage → PageEvent → Prop)

/-- The page, with the subtotal that was checked last, is reached from a page that opens on a
cart, by events that are `ok` and put in the cart what is sold. -/
inductive Reached : CheckoutPage → ℚ → Prop
  | opened {cart : Cart.Page} (hsold : cart.Every (SoldAt d)) (isPickup : Bool)
      (zoneId : Option Uuid) : Reached (opened cart isPickup zoneId) 0
  | step {page : CheckoutPage} {before : ℚ} (h : Reached page before) (event : PageEvent)
      (hquotes : event.Quotes d) (hok : ok page event) :
      Reached (page.step cfg E₀ d m event) (page.lastCheck before event)

/-- The fee that an update which has read the page adds. -/
def shownFee : Option Uuid → Int
  | none => 0
  | some zoneId => loadedFee cfg E₀ d m zoneId

/-- The total that comes of what an update has read. -/
def total (reading : Reading) : Int :=
  mathRound (reading.goods + shownFee cfg E₀ d m reading.zoneId)

/-- What every event keeps. -/
structure Kept (page : CheckoutPage) (lastCheck : ℚ) : Prop where
  sold : page.cart.Every (SoldAt d)
  fees : ∀ entry ∈ page.zoneDeliveryFeeCache, entry.2 = loadedFee cfg E₀ d m entry.1
  cached : ∀ goods zoneId fee, .fee goods zoneId (some fee) ∈ page.updates →
    fee = loadedFee cfg E₀ d m zoneId
  checking : ∀ code subtotal, page.checking = some (code, subtotal) → code ≠ ""
  promo : match page.appliedPromo with
    | none => page.promoCode = ""
    | some applied => page.promoCode = applied.code ∧ applied.code ≠ "" ∧
        promoAnswer cfg E₀ d m applied.code lastCheck =
          some ⟨true, applied.discountRub, applied.freeDelivery⟩
  shown : Refreshes.Fresh (total cfg E₀ d m) page.reading (page.updates.map Update.read)
    page.grandTotal

variable {cfg E₀ d m} {page : CheckoutPage} {before : ℚ}

theorem reading_congr {page' : CheckoutPage} (hcart : page'.cart.stored = page.cart.stored)
    (hpickup : page'.isPickup = page.isPickup) (hzone : page'.zoneId = page.zoneId)
    (hpromo : page'.appliedPromo = page.appliedPromo) : page'.reading = page.reading := by
  have hsubtotal : page'.subtotal = page.subtotal := by
    simp [subtotal, Cart.loadCart, hcart]
  simp [reading, hsubtotal, hpickup, hzone, hpromo]

/-- A page whose cart, fees, checks and codes are in order is so after `updateAllUI` is called,
whatever its totals show. -/
theorem Kept.updateAllUI (sold : page.cart.Every (SoldAt d))
    (fees : ∀ entry ∈ page.zoneDeliveryFeeCache, entry.2 = loadedFee cfg E₀ d m entry.1)
    (cached : ∀ goods zoneId fee, .fee goods zoneId (some fee) ∈ page.updates →
      fee = loadedFee cfg E₀ d m zoneId)
    (checking : ∀ code subtotal, page.checking = some (code, subtotal) → code ≠ "")
    (promo : match page.appliedPromo with
      | none => page.promoCode = ""
      | some applied => page.promoCode = applied.code ∧ applied.code ≠ "" ∧
          promoAnswer cfg E₀ d m applied.code before =
            some ⟨true, applied.discountRub, applied.freeDelivery⟩) :
    page.updateAllUI.Kept cfg E₀ d m before where
  sold := sold
  fees := fees
  cached goods zoneId fee hmem := by
    rcases List.mem_append.mp hmem with hmem | hmem
    · exact cached goods zoneId fee hmem
    · simp at hmem
  checking := checking
  promo := promo
  shown := by
    apply Refreshes.Fresh.of_mem
    simp [CheckoutPage.updateAllUI, Update.read]

/-- The same, of a page that is kept. -/
theorem Kept.refreshed (h : page.Kept cfg E₀ d m before) :
    page.updateAllUI.Kept cfg E₀ d m before :=
  .updateAllUI h.sold h.fees h.cached h.checking h.promo

theorem Kept.loadDeliveryFee (h : page.Kept cfg E₀ d m before) (zoneId : Uuid) :
    (page.loadDeliveryFee cfg E₀ d m zoneId).Kept cfg E₀ d m before where
  sold := h.sold
  fees entry hentry := by
    rcases List.mem_cons.mp hentry with rfl | hentry
    · rfl
    · exact h.fees entry hentry
  cached := h.cached
  checking := h.checking
  promo := h.promo
  shown := h.shown

/-- An update shows what it has read. -/
theorem Kept.display (h : page.Kept cfg E₀ d m before) {i : ℕ} {goods : ℚ}
    {zoneId : Option Uuid}
    (hshown : Refreshes.Fresh (total cfg E₀ d m) page.reading
      ((page.updates.map Update.read).eraseIdx i) (some (total cfg E₀ d m ⟨goods, zoneId⟩))) :
    { page.display goods (shownFee cfg E₀ d m zoneId) with
      updates := page.updates.eraseIdx i }.Kept cfg E₀ d m before where
  sold := h.sold
  fees := h.fees
  cached goods zoneId fee hmem := h.cached goods zoneId fee (List.mem_of_mem_eraseIdx hmem)
  checking := h.checking
  promo := h.promo
  shown := by
    rw [List.eraseIdx_map] at hshown
    exact hshown

theorem lookup_mem {entries : List (Uuid × Int)} {zoneId : Uuid} {fee : Int}
    (h : entries.lookup zoneId = some fee) : (zoneId, fee) ∈ entries := by
  obtain ⟨before, after, rfl, -⟩ := List.lookup_eq_some_iff.mp h
  simp

/-- An update goes on. -/
theorem Kept.resume (h : page.Kept cfg E₀ d m before) {i : ℕ} (htimely : page.Timely (.resume i)) :
    (page.resume cfg E₀ d m i).Kept cfg E₀ d m before := by
  cases hi : page.updates[i]? with
  | none =>
      simp only [CheckoutPage.resume, hi]
      exact h
  | some update =>
      have hread : (page.updates.map Update.read)[i]? = some update.read := by simp [hi]
      cases update with
      | widgets =>
          cases hzone : page.reading.zoneId with
          | none =>
              have hreading : page.reading = ⟨page.reading.goods, none⟩ := by rw [← hzone]
              have hshown : Refreshes.Fresh (total cfg E₀ d m) page.reading
                  ((page.updates.map Update.read).eraseIdx i)
                  (some (total cfg E₀ d m ⟨page.reading.goods, none⟩)) := by
                right
                rw [← hreading]
              simp only [CheckoutPage.resume, hi, hzone]
              exact h.display hshown
          | some zoneId =>
              have hreading : page.reading = ⟨page.reading.goods, some zoneId⟩ := by rw [← hzone]
              simp only [CheckoutPage.resume, hi, hzone]
              constructor
              · exact h.sold
              · exact h.fees
              · intro goods zoneId' fee hmem
                rcases List.mem_or_eq_of_mem_set hmem with hmem | heq
                · exact h.cached goods zoneId' fee hmem
                · obtain ⟨rfl, rfl, hcached⟩ := Update.fee.inj heq
                  exact h.fees _ (lookup_mem hcached.symm)
              · exact h.checking
              · exact h.promo
              · dsimp only
                rw [List.map_set, Update.read, ← hreading]
                apply Refreshes.Fresh.reads_current
                rw [List.length_map]
                exact (List.getElem?_eq_some_iff.mp hi).1
      | fee goods zoneId cached =>
          have hshown : Refreshes.Fresh (total cfg E₀ d m) page.reading
              ((page.updates.map Update.read).eraseIdx i)
              (some (total cfg E₀ d m ⟨goods, some zoneId⟩)) :=
            Refreshes.Fresh.shows_read htimely hread
          cases cached with
          | some fee =>
              have hfee : fee = shownFee cfg E₀ d m (some zoneId) :=
                h.cached goods zoneId fee (List.mem_of_getElem? hi)
              simp only [CheckoutPage.resume, hi, hfee]
              exact h.display hshown
          | none =>
              have hdone := (h.loadDeliveryFee zoneId).display hshown
              simp only [CheckoutPage.resume, hi]
              exact hdone

/-- What an event keeps. -/
theorem Kept.step (h : page.Kept cfg E₀ d m before) {event : PageEvent}
    (hquotes : event.Quotes d) (htimely : page.Timely event) :
    (page.step cfg E₀ d m event).Kept cfg E₀ d m (page.lastCheck before event) := by
  cases event with
  | cart event =>
      have hsold := h.sold.step hquotes
      cases event with
      | backupExpires => exact ⟨hsold, h.fees, h.cached, h.checking, h.promo, h.shown⟩
      | call storage call =>
          rw [CheckoutPage.step]
          split_ifs with hupdates
          · exact .updateAllUI hsold h.fees h.cached h.checking h.promo
          · have hstored := Cart.stored_of_not_updatesUI (eq_false_of_ne_true hupdates)
            have hreading : { page with cart := (call.run storage page.cart).2 }.reading =
                page.reading := reading_congr hstored rfl rfl rfl
            refine ⟨hsold, h.fees, h.cached, h.checking, h.promo, ?_⟩
            rw [hreading]
            exact h.shown
  | chooseMode isPickup => exact .updateAllUI h.sold h.fees h.cached h.checking h.promo
  | chooseZone zoneId => exact .updateAllUI h.sold h.fees h.cached h.checking h.promo
  | typeCode text => exact .updateAllUI h.sold h.fees h.cached h.checking rfl
  | applyCode =>
      rw [CheckoutPage.step]
      split_ifs with hchecking
      · exact h
      · refine ⟨h.sold, h.fees, h.cached, ?_, h.promo, h.shown⟩
        rintro code subtotal ⟨⟩
        exact fun hcode => hchecking (.inr hcode)
  | checked =>
      rw [CheckoutPage.step, promoChecked, lastCheck]
      cases hchecking : page.checking with
      | none => exact h
      | some check =>
          obtain ⟨code, subtotal⟩ := check
          have hcode := h.checking code subtotal hchecking
          dsimp only
          split
          · rename_i discountRub freeDelivery hanswer
            exact .updateAllUI h.sold h.fees h.cached (by simp) ⟨rfl, hcode, hanswer⟩
          · apply Kept.refreshed
            exact .updateAllUI h.sold h.fees h.cached (by simp) rfl
  | refresh => exact h.refreshed
  | widgetFee zoneId => exact h.loadDeliveryFee zoneId
  | resume i => exact h.resume htimely

theorem Reached.mono {ok ok' : CheckoutPage → PageEvent → Prop} (hle : ∀ page event, ok page event →
    ok' page event) (h : Reached cfg E₀ d m ok page before) :
    Reached cfg E₀ d m ok' page before := by
  induction h with
  | opened hsold isPickup zoneId => exact .opened hsold isPickup zoneId
  | step _ event hquotes hok ih => exact ih.step event hquotes (hle _ _ hok)

/-- What holds of every page that is reached by events in time. -/
theorem Reached.kept (h : Reached cfg E₀ d m Timely page before) :
    page.Kept cfg E₀ d m before := by
  induction h with
  | opened hsold isPickup zoneId =>
      constructor
      · exact hsold
      · simp [CheckoutPage.opened]
      · simp [CheckoutPage.opened]
      · simp [CheckoutPage.opened]
      · rfl
      · apply Refreshes.Fresh.of_mem
        simp [CheckoutPage.opened, Update.read]
  | step _ event hquotes htimely ih => exact ih.step hquotes htimely

end

end CheckoutPage

/-! ## What the shop answers and charges -/

/-- The databases offer the same: products, promotions and zones. -/
structure SameOffers (d d' : Database) : Prop where
  products : d'.products = d.products
  promotions : d'.promotions = d.promotions
  deliveryZones : d'.deliveryZones = d.deliveryZones

section Server

variable {cfg : Settings} {E₀ : Engine Database Write} {d : Database} {m : Memory}

theorem loadedFee_eq (zoneId : Uuid) : loadedFee cfg E₀ d m zoneId =
    ((d.deliveryZones.find zoneId).map DeliveryZone.deliveryFeeRub).getD cfg.deliveryFee := rfl

/-- A check that finds the code valid has found the promotion that the code applies. -/
theorem applied_of_promoAnswer {code : String} {subtotal : ℚ} {discountRub : Int}
    {freeDelivery : Bool}
    (h : promoAnswer cfg E₀ d m code subtotal = some ⟨true, discountRub, freeDelivery⟩) :
    ∃ promo effect, appliedPromotion cfg (some code) d = some promo ∧
      effectOf cfg (strip code) subtotal.num promo = .ok effect ∧
      effect.discountRub = discountRub ∧ effect.freeDelivery = freeDelivery := by
  unfold promoAnswer at h
  split_ifs at h
  have hreturns : (checkPromoCode cfg code subtotal.num).Returns E₀ (.start d m)
      ⟨true, discountRub, freeDelivery⟩
      ((checkPromoCode cfg code subtotal.num).serial E₀ (.start d m)).2 := by
    rw [Returns]
    unfold answer at h
    cases hserial : ((checkPromoCode cfg code subtotal.num).serial E₀ (.start d m)).1 with
    | error e =>
        rw [hserial] at h
        cases h
    | ok response =>
        rw [hserial] at h
        obtain rfl := Option.some.inj h
        rw [← hserial]
  simp only [checkPromoCode, bind_eq, returns_andThen, returns_withSession] at hreturns
  obtain ⟨found, s₁, ⟨s₂, hresolved, rfl⟩, hrest⟩ := hreturns
  obtain ⟨rfl, heffect⟩ := applied_of_returns rfl hresolved
  cases happlied : appliedPromotion cfg (some code) d with
  | none =>
      obtain rfl : found = none := by simpa [Quiet.start, happlied] using heffect
      simp at hrest
  | some promo =>
      obtain ⟨effect, he, rfl⟩ : ∃ e, effectOf cfg (strip code) subtotal.num promo = .ok e ∧
          found = some e := by
        simpa [Quiet.start, happlied] using heffect
      obtain ⟨hresponse, -⟩ := (returns_ret _).mp hrest
      injection hresponse with _ hdiscount hfree
      exact ⟨promo, effect, rfl, he, hdiscount.symm, hfree.symm⟩

section

variable {d' : Database} (h : SameOffers d d')

include h

theorem SameOffers.storedGoods (items : List CheckoutItem) :
    Sieshka.storedGoods d' items = Sieshka.storedGoods d items := by
  simp [Sieshka.storedGoods, h.products]

theorem SameOffers.appliedPromotion (promoCode : Option String) :
    Sieshka.appliedPromotion cfg promoCode d' = Sieshka.appliedPromotion cfg promoCode d := by
  simp [Sieshka.appliedPromotion, activePromotions, h.promotions]

theorem SameOffers.zoneFee (body : CheckoutRequest) :
    Sieshka.zoneFee d' body = Sieshka.zoneFee d body := by
  simp [Sieshka.zoneFee, h.deliveryZones]

theorem SameOffers.takenOff (body : CheckoutRequest) :
    Sieshka.takenOff cfg d' body = Sieshka.takenOff cfg d body := by
  simp [Sieshka.takenOff, h.storedGoods, h.appliedPromotion]

end

/-- What an order is charged that is placed where the same is on offer: the effect of its
promotion was resolved for its goods. -/
theorem charged_of_placeOrder {d' : Database} (hoffers : SameOffers d d') {body : CheckoutRequest}
    {id : Uuid} {total : Int} {s' : Quiet Database Memory}
    (h : (placeOrder cfg body).Returns E₀ (.start d' m) (id, total) s') :
    (∀ promo, appliedPromotion cfg body.promoCode d = some promo →
      ∃ effect, effectOf cfg (strip (body.promoCode.getD "")) (storedGoods d body.items) promo =
        .ok effect) ∧
    total = (if appliedPromotion cfg body.promoCode d = none then storedGoods d body.items
        else max 0 (storedGoods d body.items - takenOff cfg d body)) +
      chargedFee cfg body.deliveryMode (appliedPromotion cfg body.promoCode d)
        (zoneFee d body) := by
  simp only [placeOrder, bind_eq, returns_andThen] at h
  obtain ⟨customer, s₁, hcustomer, items, s₂, hitems, effect, s₃, heffect, h⟩ := h
  obtain ⟨customers, rfl⟩ := end_of_findOrCreateByPhone hcustomer
  have hoffers₁ : SameOffers d { d' with customers := customers } :=
    ⟨hoffers.products, hoffers.promotions, hoffers.deliveryZones⟩
  generalize { d' with customers := customers } = d₁ at *
  obtain ⟨rfl, -⟩ := priced_of_returns hitems
  obtain ⟨s₄, hresolved, rfl⟩ := (returns_withSession _).mp heffect
  obtain ⟨rfl, happlied⟩ := applied_of_returns rfl hresolved
  have hmoney := (money_of_resolved hitems heffect).2.2
  rw [hoffers₁.storedGoods, hoffers₁.appliedPromotion, hoffers₁.takenOff] at hmoney
  rw [goodsTotal_of_returns hitems, hoffers₁.storedGoods] at happlied
  have htotal : total = computeCheckoutTotal cfg items body.deliveryMode effect
      (zoneFee d₁ body) := by
    cases hid : body.zoneId with
    | none =>
        rw [hid] at h
        simp only [pure_eq, andThen, returns_andThen, returns_ret] at h
        obtain ⟨id', s₂, -, hr, -⟩ := h
        rw [(Prod.mk.inj hr).2]
        simp [zoneFee, hid]
    | some zone =>
        have hread : (withSession (select fun (d : Database) =>
            d.deliveryZones.find zone) : Async (Option DeliveryZone)).Returns E₀
            (.start d₁ m) (d₁.deliveryZones.find zone) (.start d₁ m) := by
          rw [returns_withSession]
          exact ⟨_, (returns_select _).mpr ⟨rfl, rfl, rfl⟩, rfl⟩
        rw [hid] at h
        simp only [pure_eq, andThen, returns_andThen, returns_ret] at h
        obtain ⟨row, s₂, hrow, id', s₃, -, hr, -⟩ := h
        obtain ⟨rfl, -⟩ := hread.unique hrow
        rw [(Prod.mk.inj hr).2]
        simp [zoneFee, hid]
  constructor
  · intro promo hpromo
    have hview : appliedPromotion cfg body.promoCode (Quiet.start d₁ m).view = some promo :=
      (hoffers₁.appliedPromotion body.promoCode).trans hpromo
    rw [hview] at happlied
    obtain ⟨e, he, -⟩ := happlied
    exact ⟨e, he⟩
  · rw [htotal, hmoney, hoffers₁.zoneFee]

end Server

/-! ## When the total shown is the total charged -/

/-- The promotion takes the same off the goods of a cart as it does where a cart with the goods
`checked` was given. An amount does so when it is no more than the goods that were checked, or
when these are no less than the goods; a percentage when it comes to the same on both, or to no
less than the goods on both. -/
def Promotion.Unmoved (cfg : Settings) (promo : Promotion) (checked goods : Int) : Prop :=
  match promo.effectType, promo.discount with
  | .FIXED_AMOUNT, some amount => truncated amount ≤ checked ∨ goods ≤ checked
  | .PERCENT_DISCOUNT, some percent =>
      ∃ taken taken', cfg.percentOf checked percent = .ok taken ∧
        cfg.percentOf goods percent = .ok taken' ∧
        (taken = taken' ∨ goods ≤ taken ∧ goods ≤ taken')
  | _, _ => True

theorem unmoved_iff {cfg : Settings} {promo : Promotion} {code : String} {checked goods : Int}
    {effect effect' : PromoEffect} (h : effectOf cfg code checked promo = .ok effect)
    (h' : effectOf cfg code goods promo = .ok effect') :
    max 0 (goods - effect.discountRub) = max 0 (goods - effect'.discountRub) ↔
      promo.Unmoved cfg checked goods := by
  have htaken := (effectOf_eq_ok h).2.2
  have htaken' := (effectOf_eq_ok h').2.2
  unfold effectOf at h h'
  unfold Promotion.Unmoved
  cases htype : promo.effectType with
  | PERCENT_DISCOUNT =>
      cases hdiscount : promo.discount with
      | none => simp [htype, hdiscount] at h
      | some percent =>
          simp only [htype, hdiscount] at h h' htaken htaken'
          cases hpercent : cfg.percentOf checked percent with
          | error e => simp [hpercent, Except.map] at h
          | ok taken =>
              cases hpercent' : cfg.percentOf goods percent with
              | error e => simp [hpercent', Except.map] at h'
              | ok taken' =>
                  simp only [hpercent, hpercent', Except.toOption,
                    Option.getD_some] at htaken htaken'
                  rw [htaken, htaken']
                  constructor
                  · intro hmax
                    exact ⟨taken, taken', hpercent, hpercent', by omega⟩
                  · rintro ⟨_, _, hleft, hright, hsame⟩
                    rw [hpercent] at hleft
                    rw [hpercent'] at hright
                    obtain rfl := Except.ok.inj hleft
                    obtain rfl := Except.ok.inj hright
                    omega
  | FIXED_AMOUNT =>
      cases hdiscount : promo.discount with
      | none => simp [htype, hdiscount] at h
      | some amount =>
          simp only [htype, hdiscount] at htaken htaken' ⊢
          rw [htaken, htaken']
          omega
  | FREE_DELIVERY =>
      simp only [htype] at htaken htaken' ⊢
      rw [htaken, htaken']
      simp

namespace CheckoutPage

/-- No code is applied to a cart of negative goods, and a code that is applied takes the same as
when it was checked. -/
def Current (cfg : Settings) (d : Database) (page : CheckoutPage) (lastCheck : ℚ) : Prop :=
  match page.appliedPromo with
  | none => 0 ≤ page.subtotal
  | some applied => ∀ promo, appliedPromotion cfg (some applied.code) d = some promo →
      promo.Unmoved cfg lastCheck.num page.subtotal.num

section

variable {cfg : Settings} {E₀ : Engine Database Write} {d : Database} {m : Memory}
  {page : CheckoutPage} {form body : CheckoutRequest}

theorem mathRound_intCast (n : Int) : mathRound n = n := by
  change ⌊(n : ℚ) + 1 / 2⌋ = n
  rw [Int.floor_eq_iff]
  constructor <;> linarith

/-- The goods of a request cost what the items of the cart cost. -/
theorem goods_of_ordered {items : List Cart.Item} {ordered : List CheckoutItem}
    (hsold : Cart.Every (SoldAt d) items) (h : items.mapM Cart.Item.ordered = some ordered) :
    Cart.getTotalPrice items = (storedGoods d ordered : ℚ) := by
  induction items generalizing ordered with
  | nil =>
      obtain rfl : ordered = [] := by simpa using h.symm
      rfl
  | cons item rest ih =>
      obtain ⟨id, p, price, hid, hfind, hprice, hsame⟩ := hsold item List.mem_cons_self
      have hrest := fun other hother => hsold other (List.mem_cons_of_mem _ hother)
      rw [List.mapM_cons] at h
      obtain ⟨first, hfirst, h⟩ := Option.bind_eq_some_iff.mp h
      obtain ⟨others, hothers, h⟩ := Option.bind_eq_some_iff.mp h
      obtain rfl : first :: others = ordered := Option.some.inj h
      have hitem : first.productId = id ∧ first.qty = item.qty := by
        rw [Cart.Item.ordered, hid] at hfirst
        dsimp only at hfirst
        split_ifs at hfirst
        obtain rfl := Option.some.inj hfirst
        exact ⟨rfl, rfl⟩
      have htail := ih hrest hothers
      rw [Cart.getTotalPrice] at htail ⊢
      rw [List.map_cons, List.sum_cons, htail, storedGoods, storedGoods, List.map_cons,
        List.sum_cons, hitem.1, hitem.2, hfind, Option.bind_some, hprice, hsame]
      push_cast
      rfl

/-- What a discount leaves, in whole rubles. -/
theorem left_intCast (goods taken : Int) :
    max 0 ((goods : ℚ) - min (taken : ℚ) goods) = ((max 0 (goods - taken) : Int) : ℚ) := by
  have hleft : max 0 (goods - min taken goods) = max 0 (goods - taken) := by omega
  rw [← hleft]
  push_cast
  rfl

/-- What the form sends. -/
theorem request_eq_some (h : page.request form = some body) :
    (page.isPickup = false → page.zoneId ≠ none) ∧
      (Cart.loadCart {} page.cart).mapM Cart.Item.ordered = some body.items ∧
      body.deliveryMode = (if page.isPickup then "pickup" else "delivery") ∧
      body.zoneId = page.zoneId ∧ body.promoCode = nonEmpty page.promoCode := by
  unfold request at h
  dsimp only at h
  by_cases hrefused : Cart.loadCart {} page.cart = [] ∨ page.isPickup = false ∧ page.zoneId = none
  · rw [if_pos hrefused] at h
    cases h
  · rw [if_neg hrefused] at h
    obtain ⟨items, hitems, rfl⟩ := Option.map_eq_some_iff.mp h
    refine ⟨?_, hitems, rfl, rfl, rfl⟩
    intro hmode hzone
    exact hrefused (.inr ⟨hmode, hzone⟩)

/-- The fee that the page adds is the one that is charged. -/
theorem shownFee_eq_charged {promo : Option Promotion} (h : page.request form = some body)
    (hfree : page.appliedPromo.any AppliedPromo.freeDelivery =
      promo.any (·.effectType = .FREE_DELIVERY)) :
    shownFee cfg E₀ d m page.reading.zoneId =
      chargedFee cfg body.deliveryMode promo (zoneFee d body) := by
  obtain ⟨hneeded, -, hmode, hzone, -⟩ := request_eq_some h
  unfold reading chargedFee
  rw [hfree, hmode]
  cases hpickup : page.isPickup with
  | true => simp [shownFee]
  | false =>
      obtain ⟨zoneId, hid⟩ := Option.ne_none_iff_exists'.mp (hneeded hpickup)
      by_cases hdelivery : promo.any (·.effectType = .FREE_DELIVERY) = true
      · simp [shownFee, hdelivery]
      · simp [shownFee, hdelivery, hid, loadedFee_eq, zoneFee, hzone]

end

end CheckoutPage

/-- In a run whose updates show their totals in time, the total that is shown when all updates
are over is the one that is charged if and only if the code takes from the cart what it took
when it was checked. -/
theorem shown_eq_charged_iff {cfg : Settings} {E₀ : Engine Database Write} {d : Database}
    {m : Memory} {page : CheckoutPage} {lastCheck : ℚ}
    (hreached : CheckoutPage.Reached cfg E₀ d m CheckoutPage.Timely page lastCheck)
    (hsettled : page.updates = []) {form body : CheckoutRequest}
    (hrequest : page.request form = some body) {d' : Database} (hoffers : SameOffers d d')
    {E₁ : Engine Database Write} {m' : Memory} {id : Uuid} {total : Int}
    {s' : Quiet Database Memory}
    (hplaced : (placeOrder cfg body).Returns E₁ (.start d' m') (id, total) s') :
    page.grandTotal = some total ↔ page.Current cfg d lastCheck := by
  have hkept := hreached.kept
  have hshown := hkept.shown
  have hpromo := hkept.promo
  rw [hsettled] at hshown
  rw [hshown.shown_eq, Option.some.injEq]
  obtain ⟨hresolved, rfl⟩ := charged_of_placeOrder hoffers hplaced
  obtain ⟨-, hitems, -, -, hcode⟩ := CheckoutPage.request_eq_some hrequest
  have hgoods : page.subtotal = (storedGoods d body.items : ℚ) :=
    CheckoutPage.goods_of_ordered (hkept.sold.load {}) hitems
  rw [CheckoutPage.total, CheckoutPage.Current]
  cases hnow : page.appliedPromo with
  | none =>
      rw [hnow] at hpromo
      have hnone : appliedPromotion cfg body.promoCode d = none := by
        rw [hcode, hpromo]
        rfl
      have hfree : page.appliedPromo.any AppliedPromo.freeDelivery =
          (none : Option Promotion).any (·.effectType = .FREE_DELIVERY) := by rw [hnow]; rfl
      have hread : page.reading.goods = ((max 0 (storedGoods d body.items) : Int) : ℚ) := by
        simp [CheckoutPage.reading, hnow, hgoods]
      rw [hnone, CheckoutPage.shownFee_eq_charged hrequest hfree, hread, ← Int.cast_add,
        CheckoutPage.mathRound_intCast, if_pos rfl, hgoods]
      norm_cast
      omega
  | some applied =>
      rw [hnow] at hpromo
      obtain ⟨hsame, hne, hanswer⟩ := hpromo
      obtain ⟨promo, effect, hfound, heffect, hdiscount, hfreed⟩ := applied_of_promoAnswer hanswer
      have hcode' : body.promoCode = some applied.code := by
        rw [hcode, hsame, nonEmpty, if_neg hne]
      rw [hcode'] at hresolved ⊢
      obtain ⟨effect', heffect'⟩ := hresolved promo hfound
      have htaken : takenOff cfg d body = effect'.discountRub := by
        rw [takenOff, hcode', hfound]
        exact (effectOf_eq_ok heffect').2.2.symm
      have hfree : page.appliedPromo.any AppliedPromo.freeDelivery =
          (some promo).any (·.effectType = .FREE_DELIVERY) := by
        simp [hnow, ← hfreed, (effectOf_eq_ok heffect).2.1]
      have hread : page.reading.goods =
          ((max 0 (storedGoods d body.items - effect.discountRub) : Int) : ℚ) := by
        rw [← CheckoutPage.left_intCast, hdiscount, ← hgoods]
        simp only [CheckoutPage.reading, hnow]
      rw [hfound, CheckoutPage.shownFee_eq_charged hrequest hfree, hread, ← Int.cast_add,
        CheckoutPage.mathRound_intCast, htaken, if_neg (by simp), hgoods, Rat.num_intCast]
      rw [add_left_inj, unmoved_iff heffect heffect']
      constructor
      · intro hunmoved promo' hpromo'
        obtain rfl : promo = promo' := Option.some.inj (hfound.symm.trans hpromo')
        exact hunmoved
      · intro h
        exact h promo hfound

/-! ## A code for ten percent -/

/-- A shop that sells tea for 100 rubles and knows Anna, with a code for ten percent. -/
def tenPercentShop : Database :=
  { teaShop with promotions := [⟨1, some 10, .PERCENT_DISCOUNT, some "TEN", "ACTIVE"⟩] }

/-- One cup of tea. -/
def oneTea : Cart.Page := ⟨[⟨Uuid.text 5, 100, "Tea", 1, 0⟩], [], none⟩

/-- Anna gives the code for one cup, which she will collect. -/
def givesCode : List PageEvent :=
  [.resume 0, .resume 0, .typeCode "TEN", .resume 0, .applyCode, .checked, .resume 0]

/-- Then she takes another cup. -/
def oneMoreTea : PageEvent := .cart (.call {} (.updateQty (Uuid.text 5) 1))

/-- The page in the shop with the code, after the events. -/
def teaPage (events : List PageEvent) : CheckoutPage :=
  events.foldl (CheckoutPage.step asciiSettings (columned 9) tenPercentShop {})
    (.opened oneTea true none)

/-- The request for the tea under the code. -/
def teaUnderCode (qty : Int) (hqty : 0 < qty) : CheckoutRequest :=
  { (teaPickup qty hqty).body with promoCode := some "TEN" }

theorem oneTea_sold : oneTea.Every (SoldAt tenPercentShop) where
  stored item hitem := by
    obtain rfl := List.mem_singleton.mp hitem
    exact ⟨5, ⟨5, "Tea", some 100, none, true⟩, 100, by decide +kernel, rfl, rfl, rfl⟩
  clearBackup items hitems := by cases hitems

theorem givesCode_reached : ∃ lastCheck, CheckoutPage.Reached asciiSettings (columned 9)
    tenPercentShop {} CheckoutPage.Timely (teaPage givesCode) lastCheck := by
  have h : CheckoutPage.Reached asciiSettings (columned 9) tenPercentShop {} CheckoutPage.Timely
      (teaPage []) 0 := .opened oneTea_sold true none
  have hload := (h.step (.resume 0) trivial (by decide)).step (.resume 0) trivial
    (by decide)
  have htyped := (hload.step (.typeCode "TEN") trivial trivial).step (.resume 0) trivial
    (by decide)
  have hchecked := (htyped.step .applyCode trivial trivial).step .checked trivial trivial
  exact ⟨_, hchecked.step (.resume 0) trivial (by decide +kernel)⟩

theorem teaUnderCode_placed : ∃ s', (placeOrder asciiSettings (teaUnderCode 1 (by decide))).Returns
    (columned 9) (.start tenPercentShop {}) (9, 90) s' :=
  ⟨_, Prod.ext (by decide +kernel) rfl⟩

/-- For one cup, the total shown is the one charged exactly when the ten percent are current. -/
theorem shown_eq_charged_tea : ∃ lastCheck,
    CheckoutPage.Reached asciiSettings (columned 9) tenPercentShop {} CheckoutPage.Timely
      (teaPage givesCode) lastCheck ∧
    ((teaPage givesCode).grandTotal = some 90 ↔
      (teaPage givesCode).Current asciiSettings tenPercentShop lastCheck) := by
  obtain ⟨lastCheck, hreached⟩ := givesCode_reached
  obtain ⟨s', hplaced⟩ := teaUnderCode_placed
  have hrequest : (teaPage givesCode).request (teaPickup 1 (by decide)).body =
      some (teaUnderCode 1 (by decide)) := by decide +kernel
  exact ⟨lastCheck, hreached,
    shown_eq_charged_iff hreached (by decide +kernel) hrequest ⟨rfl, rfl, rfl⟩ hplaced⟩

/-- The page shows what the shop charges, in every run. -/
def ShowsCharged (cfg : Settings) (E₀ : Engine Database Write) (d : Database) (m : Memory) : Prop :=
  ∀ page lastCheck, CheckoutPage.Reached cfg E₀ d m (fun _ _ => True) page lastCheck →
    page.updates = [] → ∀ form body, page.request form = some body → ∀ id total s',
      (placeOrder cfg body).Returns E₀ (.start d m) (id, total) s' →
        page.grandTotal = some total

/-- Anna is shown 190 rubles for two cups, ten percent of one cup less, and is charged 180. -/
theorem stale_discount_shown :
    ¬ ShowsCharged asciiSettings (columned 9) tenPercentShop {} := by
  intro h
  obtain ⟨lastCheck, hreached⟩ := givesCode_reached
  have hmore := (hreached.step oneMoreTea trivial trivial).step (.resume 0) trivial
    (by decide +kernel)
  have hplaced : (placeOrder asciiSettings (teaUnderCode 2 (by decide))).Returns (columned 9)
      (.start tenPercentShop {}) (9, 180) _ := Prod.ext (by decide +kernel) rfl
  have hshown := h _ _ (hmore.mono fun _ _ _ => trivial) (by decide +kernel)
    (teaPickup 2 (by decide)).body (teaUnderCode 2 (by decide)) (by decide +kernel) 9 180 _ hplaced
  exact absurd hshown (by decide +kernel)

end Sieshka
