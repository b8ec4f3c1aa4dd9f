import Sieshka.Specs.Payments

/-!
# The checkout

A checkout places its order in one commit, and then moves it, as a customer
pays in cash or by card, in commits of their own.
-/

namespace Sieshka

open Transactions Contract
open Relation (ReflTransGen)

/-! ## The errors of a checkout that is carried out -/

/-- The error is not the answer to a key that is taken by a checkout in progress. -/
def NotBusy (e : PyError) : Prop := e ≠ .httpException 409 .stillBeingProcessed

section Errors

variable {P : PyError → Prop}

theorem raises_ofExcept {α : Type} {r : Except PyError α} (h : ∀ e, r = .error e → P e) :
    (ofExcept r).Raises P := by
  cases r with
  | ok a => exact .ret a
  | error e => exact .raise (h e rfl)

theorem raises_uuid4 : uuid4.Raises P := .choose fun _ => .ret _

/-- A machine turns what its tools raise into the error of its trace. -/
theorem raises_vmRun {Tool Name : Type} [DecidableEq Name]
    {tools : Tool → List (Name × Value) → Async Value} (program : Program Tool Name)
    (context : List (Name × Value)) : (vmRun tools program context).Raises P := by
  have hrun : ∀ fuel id outputs, (runFrom tools program context fuel id outputs).Raises P := by
    intro fuel
    induction fuel with
    | zero => exact fun _ _ => .ret _
    | succ fuel ih =>
        intro id outputs
        rw [runFrom]
        split
        · exact .ret _
        · split
          · refine .andThen (Prog.raises_any _) (fun out => ?_) fun _ _ => .ret _
            dsimp only
            split
            · exact .ret _
            · exact ih _ _
          · split
            · exact .ret _
            · exact ih _ _
  unfold vmRun
  split
  · exact .ret _
  · exact hrun _ _ _

theorem notBusy_dbapiError : NotBusy (DatabaseError.databaseError : PyError) :=
  nofun

theorem raises_uuid (text : String) : (ofExcept (uuid text)).Raises NotBusy := by
  refine raises_ofExcept fun e he => ?_
  rw [uuid] at he
  cases hread : readUuid text with
  | some u => simp [hread] at he
  | none =>
      simp only [hread, Except.error.injEq] at he
      simp [NotBusy, ← he]

theorem raises_orderState (orderId : String) : (orderState orderId).Raises NotBusy := by
  refine .bind (raises_uuid _) fun id => .bind (Prog.raises_select notBusy_dbapiError _) fun row => ?_
  cases row with
  | none => exact .raise nofun
  | some row => exact .ret _

theorem raises_finishTransition (orderId : String) (event : OrderEvent) (newState : OrderState) :
    (finishTransition orderId event newState).Raises NotBusy := by
  refine .bind raises_uuid4 fun _ => .bind (raises_uuid _) fun _ =>
    .bind (orders.raises_update notBusy_dbapiError _ _) fun _ => ?_
  split_ifs
  · exact .bind (.bind (raises_uuid _) fun _ => .bind raises_uuid4 fun _ =>
      .bind (kitchenTickets.raises_insert notBusy_dbapiError _ _) fun _ => .ret _) fun _ => .ret _
  · exact .ret _

theorem raises_transitionOrder (orderId : String) (event : OrderEvent) :
    (transitionOrder orderId event).Raises NotBusy := by
  refine .withSession (.bind (raises_orderState _) fun st => ?_)
  split
  · exact .ret _
  · refine .bind (raises_vmRun _ _) fun trace => ?_
    split
    · exact .bind (raises_finishTransition _ _ _) fun _ =>
        .bind (Prog.raises_commitSession notBusy_dbapiError) fun _ => .ret _
    · exact .ret _

theorem raises_findOrCreateByPhone (name phone : String) :
    (findOrCreateByPhone name phone).Raises NotBusy := by
  refine .bind (raises_ofExcept fun e he => ?_) fun canonical =>
    .withSession (.bind (Prog.raises_select notBusy_dbapiError _) fun row => ?_)
  · rw [normalizePhone] at he
    split at he
    · split_ifs at he
      cases he
      nofun
    · cases he
      nofun
  · cases row with
    | some existing => exact .ret _
    | none =>
        exact .bind raises_uuid4 fun _ => .bind (customers.raises_insert notBusy_dbapiError _ _)
          fun _ => .bind (Prog.raises_commitSession notBusy_dbapiError) fun _ => .ret _

theorem raises_resolveCheckoutItems (items : List CheckoutItem) :
    (resolveCheckoutItems items).Raises NotBusy := by
  induction items with
  | nil => exact .ret _
  | cons ci rest ih =>
      refine .bind (.withSession (Prog.raises_select notBusy_dbapiError _)) fun snapshot => ?_
      split
      · exact .raise nofun
      · exact .bind ih fun _ => .ret _

theorem raises_resolvePromoEffect (cfg : Settings) (promoCode : Option String) (goods : Int) :
    (resolvePromoEffect cfg promoCode goods).Raises NotBusy := by
  have heffect : ∀ promo code e, effectOf cfg code goods promo = .error e → NotBusy e := by
    intro promo code e he
    unfold effectOf at he
    split at he
    · split at he
      · cases he
        nofun
      · rename_i discount _
        cases hp : cfg.percentOf goods discount with
        | ok n => rw [hp] at he; cases he
        | error e' =>
            rw [hp] at he
            cases he
            obtain ⟨message, rfl | rfl⟩ := cfg.percentOf_error _ _ _ hp <;> nofun
    · split at he
      · cases he
        nofun
      · cases he
    · cases he
  rw [resolvePromoEffect]
  split_ifs
  · exact .ret _
  · refine .bind ?_ fun _ => .bind (Prog.raises_select notBusy_dbapiError _) fun found => ?_
    · unfold bindParam
      split_ifs
      · exact .ret _
      · exact .raise nofun
    · split
      · exact .bind (raises_ofExcept (heffect _ _)) fun _ => .ret _
      · exact .ret _

theorem raises_placeOrder (cfg : Settings) (body : CheckoutRequest) :
    (placeOrder cfg body).Raises NotBusy := by
  rw [placeOrder]
  refine .bind (raises_findOrCreateByPhone _ _) fun customer =>
    .bind (raises_resolveCheckoutItems _) fun items =>
    .bind (.withSession (raises_resolvePromoEffect _ _ _)) fun promo => ?_
  have hplace : ∀ zoneFee, (do
      let totalRub := computeCheckoutTotal cfg items body.deliveryMode promo zoneFee
      let id ← createOrderFromCheckout body customer.id items totalRub
        (promo.map PromoEffect.appliedCode) ((promo.map PromoEffect.discountRub).getD 0)
      return (id, totalRub) : Async (Uuid × Int)).Raises NotBusy := fun _ =>
    .bind (.withSession (.bind raises_uuid4 fun _ =>
      .bind (orders.raises_insert notBusy_dbapiError _ _) fun _ =>
      .bind (Prog.raises_commitSession notBusy_dbapiError) fun _ => .ret _)) fun _ => .ret _
  cases body.zoneId with
  | none => exact hplace none
  | some zone =>
      exact .bind (.withSession (Prog.raises_select notBusy_dbapiError _)) fun _ => hplace _

theorem raises_createPayment (cfg : Settings) (sentFor : Option String) (orderId : String)
    (amount : Int) (currency : String) (paymentMethodType : Option String) :
    (createPayment cfg sentFor orderId amount currency paymentMethodType).Raises NotBusy := by
  refine .bind (.bind raises_uuid4 fun _ => .bind (.memory fun _ => .ret _) fun _ => .ret _)
    fun traceId => ?_
  split_ifs
  · refine .bind (.choose fun n => ?_) fun data => .bind ?_ fun _ => .ret _
    · match n with
      | 0 => exact .raise nofun
      | 1 => exact .raise nofun
      | n + 2 =>
          refine .memory fun m => ?_
          split_ifs
          · exact .raise nofun
          · exact .ret _
    · refine .withSession (.bind (.bind (raises_uuid _) fun _ => .bind raises_uuid4 fun _ =>
        .bind (payments.raises_insert notBusy_dbapiError _ _) fun _ => .ret _) fun _ =>
        .bind (raises_orderState _) fun st => .bind ?_ fun _ =>
        .bind (Prog.raises_commitSession notBusy_dbapiError) fun _ => .ret _)
      unfold runSimpleTransition
      split
      · exact .ret _
      · refine .bind (raises_vmRun _ _) fun trace => ?_
        split <;> exact .ret _
  · exact .raise nofun

/-- A checkout that has recorded its key does not answer that the key is taken. -/
theorem raises_carriedOut (cfg : Settings) (body : CheckoutRequest) :
    (do
      let (id, totalRub) ← placeOrder cfg body
      if body.paymentMethod = "cash" then checkoutCash body id
      else checkoutCard cfg body id totalRub : Async CheckoutResponse).Raises NotBusy := by
  have hupdate : ∀ key payload, (updatePayload key payload).Raises NotBusy := fun _ _ =>
    .withSession (.bind (idempotencyKeys.raises_upsert notBusy_dbapiError _) fun _ =>
      Prog.raises_commitSession notBusy_dbapiError)
  refine .bind (raises_placeOrder _ _) fun placed => ?_
  dsimp only
  split_ifs
  · exact .bind (raises_transitionOrder _ _) fun _ => .bind (raises_transitionOrder _ _) fun _ =>
      .bind (hupdate _ _) fun _ => .ret _
  · refine .bind (raises_transitionOrder _ _) fun _ => .bind (raises_transitionOrder _ _) fun _ =>
      .bind (.andThen (raises_createPayment _ _ _ _ _ _) (fun _ => .ret _) fun e he => ?_)
        fun _ => .bind (hupdate _ _) fun _ => .ret _
    split
    · exact .raise nofun
    · exact .raise nofun
    · exact .raise he

end Errors

section Specs

-- elaboration would otherwise run it on the code of a promotion
attribute [local irreducible] strip

variable {K : ShopContract} {c : Call} {x y z : CallAt} {orderId : String}

/-! ## Commits that leave the orders alone -/

/-- The call has got from `x` to `y` without touching an order. -/
structure Aside (x y : CallAt) : Prop where
  past : ∃ ps, y.past = x.past ++ ps ∧ ∀ p ∈ ps, p.2.orders = p.1.orders
  evolves : Evolves (x.db, x.mem) (y.db, y.mem)

theorem Aside.refl (x : CallAt) : Aside x x := ⟨⟨[], by simp, by simp⟩, .refl _⟩

theorem Aside.trans (h : Aside x y) (h' : Aside y z) : Aside x z := by
  obtain ⟨⟨ps, hps, hall⟩, hev⟩ := h
  obtain ⟨⟨ps', hps', hall'⟩, hev'⟩ := h'
  refine ⟨⟨ps ++ ps', by rw [hps', hps, List.append_assoc], fun p hp => ?_⟩, hev.trans hev'⟩
  rcases List.mem_append.mp hp with hp | hp
  · exact hall p hp
  · exact hall' p hp

theorem Aside.of_follows {cfg : Settings} (hK : IsShop cfg K) (h : K.Follows c x y) : Aside x y :=
  ⟨⟨[], by simp [h.past], by simp⟩, hK.evolves h.since⟩

theorem Aside.of_committed {cfg : Settings} (hK : IsShop cfg K) {d d' : Database}
    (h : K.Committed c d d' x y) (hd : ∀ m, Evolves (d, m) (d', m)) (horders : d'.orders = d.orders) :
    Aside x y := by
  obtain ⟨-, hpast, m, h₁, h₂⟩ := h
  refine ⟨⟨[(d, d')], hpast, by simp [horders]⟩, ?_⟩
  exact (hK.evolves h₁).trans ((hd m).trans (hK.evolves h₂))

theorem KeyRecorded.append {past : Past} {key : String} (h : KeyRecorded past key)
    (ps : Past) : KeyRecorded (past ++ ps) key := by
  obtain ⟨p, hp, hkey⟩ := h
  exact ⟨p, List.mem_append_left _ hp, hkey⟩

theorem Aside.keyRecorded {key : String} (h : Aside x y) (hrec : KeyRecorded x.past key) :
    KeyRecorded y.past key := by
  obtain ⟨ps, hps, -⟩ := h.past
  exact hps ▸ hrec.append ps

theorem Aside.first (h : Aside x y) (hfirst : ∀ p ∈ x.past, p.2.orders = p.1.orders) :
    ∀ p ∈ y.past, p.2.orders = p.1.orders := by
  obtain ⟨ps, hps, hall⟩ := h.past
  intro p hp
  rw [hps] at hp
  rcases List.mem_append.mp hp with hp | hp
  · exact hfirst p hp
  · exact hall p hp

/-- A session that reads and does nothing else. -/
theorem wp_readSession {α : Type} {f : Database → α} {Q : Except PyError α → CallAt → Prop}
    (hx : x.txn = {}) (h : ∀ y r, y.txn = {} → K.Follows c x y → Q r y) :
    K.wp c (Prog.withSession (Prog.select f)) Q x := by
  refine wp_withSession (wp_select (by rw [hx]) (fun s hs _ s' hs' _ => ?_) fun y hy s hs _ => ?_)
  · exact h _ _ rfl ((Follows.now hs).trans ((Follows.now hs').trans .closed))
  · exact h _ _ rfl (hy.closed hs).toFollows

/-! ## The order of a checkout -/

theorem wp_findOrCreateByPhone {cfg : Settings} (hK : IsShop cfg K) {body : CheckoutRequest}
    (hc : K.calls (.checkout body)) {name phone : String} {Q : Except PyError Customer → CallAt → Prop} (hx : x.txn = {})
    (h : ∀ y r, y.txn = {} → Aside x y → Q r y) :
    K.wp (.checkout body) (findOrCreateByPhone name phone) Q x := by
  have hlive : x.txn.failed = false := by rw [hx]
  have hview : ∀ d : Database, x.txn.view d = d := fun d => by rw [hx]; rfl
  rw [findOrCreateByPhone, wp_bind]
  cases normalizePhone phone with
  | error e => exact h _ _ hx (.refl x)
  | ok canonical =>
      rw [ofExcept_ok, wp_ret]
      dsimp only
      refine wp_withSession ?_
      have hclose : ∀ y (r : Except PyError Customer), K.Follows (.checkout body) x y → ∀ s, K.Later (.checkout body) y s →
          K.assume (.checkout body) (y.now s) → Q r (y.now s).closed := fun y r hy s hs _ =>
        h _ r rfl (.of_follows hK (hy.trans ((Follows.now hs).trans .closed)))
      rw [wp_bind]
      refine customers.wp_find hlive (fun s hs _ => ?_) fun y hy => hclose y _ hy.toFollows
      have hnow : K.Follows (.checkout body) x (x.now s) := .now hs
      dsimp only
      cases (customers.table _).find canonical with
      | some existing => exact hclose _ _ hnow
      | none =>
          dsimp only
          rw [wp_bind]
          refine wp_uuid4 fun s₁ id hs₁ _ => ?_
          have hnow₁ := hnow.trans (Follows.now hs₁)
          dsimp only
          rw [wp_bind]
          refine customers.wp_insert hlive (fun s₂ hs₂ _ _ hpin => ?_)
            fun y hy => hclose y _ (hnow₁.trans hy.toFollows)
          have hnow₂ := hnow₁.trans
            ((Extends.now hs₂).trans (.wrote [customers.write ⟨id, varchar 255 name, canonical⟩])).toFollows
          have hput : ∀ d : Database, ((((x.now s).now s₁).now s₂).wrote
              [customers.write ⟨id, varchar 255 name, canonical⟩]).txn.view d =
              { d with customers := d.customers.put ⟨id, varchar 255 name, canonical⟩ } := fun d => by
            rw [Txn.view_of_writes (t := x.txn) rfl, hview]
            rfl
          refine wp_commit hK hc hlive (fun s₃ hs₃ => ?_) (fun s₃ y _ _ hy => ?_)
            fun y hy => hclose y _ (hnow₂.trans hy.toFollows)
          · have hfresh := hs₃.pinned hpin
            rw [CallState.now_txn, CallState.now_txn, hview] at hfresh
            rw [hput]
            exact .customer body rfl _ hfresh
          · rw [hput] at hy
            exact h y _ hy.txn (.of_committed hK (hy.of_follows hnow₂)
              (fun m => { Evolves.refl (s₃.1, m) with }) rfl)

theorem wp_resolveCheckoutItems {items : List CheckoutItem}
    {Q : Except PyError (List OrderItem) → CallAt → Prop} (hx : x.txn = {})
    (h : ∀ y r, y.txn = {} → K.Follows c x y → Q r y) :
    K.wp c (resolveCheckoutItems items) Q x := by
  induction items generalizing x Q with
  | nil => exact h _ _ hx .refl
  | cons ci rest ih =>
      rw [resolveCheckoutItems, wp_bind]
      refine wp_readSession hx fun y r hy hf => ?_
      cases r with
      | error e => exact h _ _ hy hf
      | ok snapshot =>
          dsimp only
          cases snapshot.bind fun p => p.priceRub.map fun price => (p, price) with
          | none => exact h _ _ hy hf
          | some p =>
              dsimp only
              rw [wp_bind]
              refine ih hy fun z r hz hf' => ?_
              cases r with
              | error e => exact h _ _ hz (hf.trans hf')
              | ok resolved => exact h _ _ hz (hf.trans hf')

theorem wp_resolvePromoEffect {cfg : Settings} {promoCode : Option String} {goods : Int}
    {Q : Except PyError (Option PromoEffect) → CallAt → Prop} (hx : x.txn = {})
    (h : ∀ y r, y.txn = {} → K.Follows c x y → Q r y) :
    K.wp c (Prog.withSession (resolvePromoEffect cfg promoCode goods)) Q x := by
  have hclose : ∀ y (r : Except PyError (Option PromoEffect)), K.Follows c x y → ∀ s,
      K.Later c y s → K.assume c (y.now s) → Q r (y.now s).closed := fun y r hy s hs _ =>
    h _ r rfl (hy.trans ((Follows.now hs).trans .closed))
  refine wp_withSession ?_
  rw [resolvePromoEffect]
  split_ifs
  · exact hclose _ _ .refl
  · rw [wp_bind]
    apply wp_bindParam
    · intro _
      dsimp only
      rw [wp_bind]
      refine wp_select (by rw [hx]) (fun s hs _ => ?_) fun y hy => hclose y _ hy.toFollows
      have hnow : K.Follows c x (x.now s) := .now hs
      dsimp only
      split
      · rename_i promo _
        rw [wp_bind]
        cases effectOf cfg (strip (promoCode.getD "")) goods promo with
        | ok effect => exact hclose _ _ hnow
        | error e => exact hclose _ _ hnow
      · exact hclose _ _ hnow
    · exact hclose x _ .refl

/-- The call has placed the order on its way from `x` to `y`, in one commit. -/
def PlacedBy (K : ShopContract) (c : Call) (body : CheckoutRequest) (id : Uuid) (totalRub : Int)
    (x y : CallAt) : Prop :=
  ∃ d customerId items promoCode discountRub, d.orders.find id = none ∧
    K.Committed c d { d with
      orders := d.orders.put
        (checkoutOrder id body customerId items totalRub promoCode discountRub) } x y

theorem wp_createOrderFromCheckout {cfg : Settings} (hK : IsShop cfg K) {body : CheckoutRequest}
    (hc : K.calls (.checkout body)) {customerId : Uuid} {items : List OrderItem} {totalRub : Int}
    {promoCode : Option String} {discountRub : Int} {Q : Except PyError Uuid → CallAt → Prop}
    (hx : x.txn = {}) (hrec : KeyRecorded x.past (checkoutKey body))
    (hfirst : ∀ p ∈ x.past, p.2.orders = p.1.orders)
    (hok : ∀ y id, PlacedBy K (.checkout body) body id totalRub x y → Q (.ok id) y)
    (he : ∀ y e, y.txn = {} → K.Follows (.checkout body) x y → Q (.error e) y) :
    K.wp (.checkout body)
      (createOrderFromCheckout body customerId items totalRub promoCode discountRub) Q x := by
  have hlive : x.txn.failed = false := by rw [hx]
  have hview : ∀ d : Database, x.txn.view d = d := fun d => by rw [hx]; rfl
  refine wp_withSession ?_
  rw [wp_bind]
  refine wp_uuid4 fun s id hs _ => ?_
  have hnow : K.Follows (.checkout body) x (x.now s) := .now hs
  dsimp only
  rw [wp_bind]
  refine orders.wp_insert hlive (fun s₁ hs₁ _ _ hpin => ?_)
    fun y hy s hs _ => he _ _ rfl (hnow.trans (hy.closed hs).toFollows)
  set row := checkoutOrder id body customerId items totalRub promoCode discountRub with hrow
  have hwrote := hnow.trans ((Extends.now hs₁).trans (.wrote [orders.write row])).toFollows
  have hput : ∀ d : Database, (((x.now s).now s₁).wrote [orders.write row]).txn.view d =
      { d with orders := d.orders.put row } := fun d => by
    rw [Txn.view_of_writes (t := x.txn) rfl, hview]
    rfl
  have hfresh : ∀ s₂, K.Later (.checkout body) (((x.now s).now s₁).wrote [orders.write row]) s₂ →
      s₂.1.orders.find id = none := fun s₂ hs₂ => by
    have h := hs₂.pinned hpin
    rw [CallState.now_txn, hview] at h
    exact h
  refine wp_commit hK hc hlive (fun s₂ hs₂ => ?_) (fun s₂ y hs₂ _ hy => ?_)
    fun y hy s hs _ => he _ _ rfl (hwrote.trans (hy.closed hs).toFollows)
  · rw [hput]
    exact .placed body rfl id customerId items totalRub promoCode discountRub
      (by rw [hwrote.past]; exact hrec) (by rw [hwrote.past]; exact hfirst) (hfresh s₂ hs₂)
  · rw [hput] at hy
    exact hok y id ⟨s₂.1, customerId, items, promoCode, discountRub, hfresh s₂ hs₂,
      hy.of_follows hwrote⟩

theorem wp_placeOrder {cfg : Settings} (hK : IsShop cfg K) {body : CheckoutRequest}
    (hc : K.calls (.checkout body)) {Q : Except PyError (Uuid × Int) → CallAt → Prop}
    (hx : x.txn = {}) (hrec : KeyRecorded x.past (checkoutKey body))
    (hfirst : ∀ p ∈ x.past, p.2.orders = p.1.orders)
    (hok : ∀ w y id totalRub, Aside x w → PlacedBy K (.checkout body) body id totalRub w y →
      Q (.ok (id, totalRub)) y)
    (he : ∀ y e, y.txn = {} → Aside x y → Q (.error e) y) :
    K.wp (.checkout body) (placeOrder cfg body) Q x := by
  rw [placeOrder, wp_bind]
  refine wp_findOrCreateByPhone hK hc hx fun y r hy h₁ => ?_
  cases r with
  | error e => exact he _ _ hy h₁
  | ok customer =>
      dsimp only
      rw [wp_bind]
      refine wp_resolveCheckoutItems hy fun y r hy h₂ => ?_
      have h₂ := h₁.trans (.of_follows hK h₂)
      cases r with
      | error e => exact he _ _ hy h₂
      | ok items =>
          dsimp only
          rw [wp_bind]
          refine wp_resolvePromoEffect hy fun y r hy h₃ => ?_
          have h₃ := h₂.trans (.of_follows hK h₃)
          cases r with
          | error e => exact he _ _ hy h₃
          | ok promo =>
              have hplace : ∀ y zoneFee, y.txn = {} → Aside x y →
                  K.wp (.checkout body) (do
                    let totalRub := computeCheckoutTotal cfg items body.deliveryMode promo zoneFee
                    let id ← createOrderFromCheckout body customer.id items totalRub
                      (promo.map PromoEffect.appliedCode)
                      ((promo.map PromoEffect.discountRub).getD 0)
                    return (id, totalRub)) Q y := by
                intro y zoneFee hy h₄
                rw [wp_bind]
                exact wp_createOrderFromCheckout hK hc hy (h₄.keyRecorded hrec) (h₄.first hfirst)
                  (fun z id hz => hok y z id _ h₄ hz)
                  fun z e hz hf => he z e hz (h₄.trans (.of_follows hK hf))
              dsimp only
              cases body.zoneId with
              | none => exact hplace y none hy h₃
              | some zone =>
                  rw [wp_bind]
                  refine wp_readSession hy fun z r hz hf => ?_
                  have h₄ := h₃.trans (.of_follows hK hf)
                  cases r with
                  | error e => exact he _ _ hz h₄
                  | ok row => exact hplace z _ hz h₄

/-! ## The transitions of the order -/

theorem Made.grows {cfg : Settings} (hK : IsShop cfg K) {event : OrderEvent} {st : OrderState}
    (h : Made K c orderId event st x y) : x.db.orders.Grows Order.Later y.db.orders := by
  obtain ⟨d, d', row, row', hcm, -, hfind, htr, horders, hrow, -⟩ := h
  obtain ⟨-, -, m, h₁, h₂⟩ := hcm
  have hid : row'.id = row.id := by rw [hrow]
  have hput : d.orders.Grows Order.Later d'.orders := by
    rw [horders]
    exact Order.Later.grows hfind hid (.of_edge htr hrow)
  exact (hK.evolves h₁).orders.trans (fun _ _ _ => Order.Later.trans)
    (hput.trans (fun _ _ _ => Order.Later.trans) (hK.evolves h₂).orders)

/-- The order of the call: it has placed it under its key, and what with. -/
structure Owns (body : CheckoutRequest) (id : Uuid) (totalRub : Int) (x : CallAt) : Prop where
  recorded : KeyRecorded x.past (checkoutKey body)
  placed : Placed x.past id
  row : ∃ row, x.db.orders.find id = some row ∧ row.paymentMethod = some body.paymentMethod ∧
    row.totalRub = some totalRub ∧
    ∃ items : List OrderItem, row.items = .arr (items.map OrderItem.dump)

theorem Owns.of_placedBy {cfg : Settings} (hK : IsShop cfg K) {body : CheckoutRequest} {id : Uuid}
    {totalRub : Int} (hrec : KeyRecorded x.past (checkoutKey body))
    (h : PlacedBy K c body id totalRub x y) : Owns body id totalRub y := by
  obtain ⟨d, customerId, items, promoCode, discountRub, hnone, -, hpast, m, -, h₂⟩ := h
  have hput := Table.find_put_self d.orders
    (checkoutOrder id body customerId items totalRub promoCode discountRub)
  refine ⟨hpast ▸ hrec.append _,
    ⟨_, by rw [hpast]; exact List.mem_append_right _ (List.mem_singleton_self _), hnone, ?_⟩, ?_⟩
  · exact Option.isSome_iff_exists.mpr ⟨_, hput⟩
  · obtain ⟨row, hfind, hlater⟩ := (hK.evolves h₂).orders _ _ hput
    refine ⟨row, hfind, ?_, ?_, items, ?_⟩ <;> rw [hlater.same] <;> rfl

theorem Owns.later {body : CheckoutRequest} {id : Uuid} {totalRub : Int}
    (h : Owns body id totalRub x) (hpast : ∃ ps, y.past = x.past ++ ps)
    (hgrows : x.db.orders.Grows Order.Later y.db.orders) : Owns body id totalRub y := by
  obtain ⟨hrec, ⟨p, hp, hnone, hsome⟩, row, hfind, hmethod, htotal, items, hitems⟩ := h
  obtain ⟨ps, hps⟩ := hpast
  obtain ⟨row', hfind', hlater⟩ := hgrows _ _ hfind
  refine ⟨hps ▸ hrec.append ps, ⟨p, by rw [hps]; exact List.mem_append_left _ hp, hnone, hsome⟩,
    row', hfind', ?_, ?_, items, ?_⟩
  · rw [hlater.same]
    exact hmethod
  · rw [hlater.same]
    exact htotal
  · rw [hlater.same]
    exact hitems

theorem Owns.may {cfg : Settings} {body : CheckoutRequest} {id : Uuid} {totalRub : Int} {event : OrderEvent}
    (h : Owns body id totalRub x)
    (hev : event = .CONFIRM ∨ event = .REQUEST_PAYMENT ∧ body.paymentMethod ≠ "cash" ∨
      event = .START_COOKING ∧ body.paymentMethod = "cash") :
    ∀ s row, Evolves (x.db, x.mem) s → s.1.orders.find row.id = some row →
      readUuid id.text = some row.id → May cfg (.checkout body) x.past s.1 row event := by
  intro s row hs hfind hid
  obtain ⟨-, hplaced, row₀, hfind₀, hmethod, -⟩ := h
  obtain rfl : id = row.id := by simpa using hid
  obtain ⟨row', hfind', hlater⟩ := hs.orders _ _ hfind₀
  obtain rfl := Option.some.inj (hfind.symm.trans hfind')
  exact ⟨hplaced, by rw [hlater.same]; exact hmethod, hev⟩

/-- The call has placed the order under its key. -/
def Owned (body : CheckoutRequest) (id : Uuid) (past : Past) : Prop :=
  KeyRecorded past (checkoutKey body) ∧ Placed past id

theorem Owned.append {body : CheckoutRequest} {id : Uuid} {past : Past} (h : Owned body id past)
    (ps : Past) : Owned body id (past ++ ps) := by
  obtain ⟨hrec, p, hp, hplaced⟩ := h
  exact ⟨hrec.append ps, p, List.mem_append_left _ hp, hplaced⟩

theorem Owns.owned {body : CheckoutRequest} {id : Uuid} {totalRub : Int}
    (h : Owns body id totalRub x) : Owned body id x.past := ⟨h.recorded, h.placed⟩

theorem Aside.owned {body : CheckoutRequest} {id : Uuid} (h : Aside x y)
    (ho : Owned body id x.past) : Owned body id y.past := by
  obtain ⟨ps, hps, -⟩ := h.past
  exact hps ▸ ho.append ps

/-- What has become of a transition of the order the call owns. -/
def Tried (K : ShopContract) (c : Call) (orderId : String) (event : OrderEvent) (x y : CallAt) :
    Prop :=
  (∃ st, Made K c orderId event st x y) ∨ Refused K c orderId event x y

theorem Tried.owns {cfg : Settings} (hK : IsShop cfg K) {body : CheckoutRequest} {id : Uuid}
    {totalRub : Int} {event : OrderEvent} (h : Tried K c orderId event x y)
    (ho : Owns body id totalRub x) : Owns body id totalRub y := by
  rcases h with ⟨st, h⟩ | h
  · obtain ⟨p, hp⟩ := h.past
    exact ho.later ⟨[p], hp⟩ (h.grows hK)
  · exact ho.later ⟨[], by simp [h.past]⟩ (hK.evolves h.since).orders

theorem wp_tryTransition {cfg : Settings} (hK : IsShop cfg K) {body : CheckoutRequest} {id : Uuid}
    {totalRub : Int} {event : OrderEvent} (hc : K.calls (.checkout body))
    {Q : Except PyError OrderResult → CallAt → Prop} (hx : x.txn = {})
    (ho : Owns body id totalRub x)
    (hev : event = .CONFIRM ∨ event = .REQUEST_PAYMENT ∧ body.paymentMethod ≠ "cash" ∨
      event = .START_COOKING ∧ body.paymentMethod = "cash")
    (hok : ∀ y res, y.txn = {} → Tried K (.checkout body) id.text event x y → Q (.ok res) y)
    (he : ∀ y e, y.txn = {} → K.Through (.checkout body) x (Broke K (.checkout body) id.text) y →
      Q (.error e) y) :
    K.wp (.checkout body) (transitionOrder id.text event) Q x :=
  wp_transitionOrder hK hc hx (fun s row hs hfind hid => ho.may hev s row (hK.evolves hs) hfind hid)
    (fun y st hmade => hok y _ hmade.txn (Or.inl ⟨st, hmade⟩))
    (fun y res hy href _ => hok y res hy (Or.inr href)) he

theorem wp_updatePayload {cfg : Settings} (hK : IsShop cfg K) {body : CheckoutRequest}
    (hc : K.calls (.checkout body)) {id : Uuid} (rest : List (String × Json))
    {Q : Except PyError Unit → CallAt → Prop} (hx : x.txn = {})
    (hrec : KeyRecorded x.past (checkoutKey body)) (hplaced : Placed x.past id)
    (hcomp : ∀ response, recoverIdempotentResult (some (answeredPayload body id rest)) =
      .ok (some response) → Completes (checkoutKey body) (x.db, x.mem) response)
    (h : ∀ y r, y.txn = {} → Aside x y → Q r y) :
    K.wp (.checkout body) (updatePayload (checkoutKey body) (answeredPayload body id rest)) Q x := by
  set payload := answeredPayload body id rest with hpay
  have hlive : x.txn.failed = false := by rw [hx]
  have hview : ∀ d : Database, x.txn.view d = d := fun d => by rw [hx]; rfl
  refine wp_withSession ?_
  rw [wp_bind]
  refine idempotencyKeys.wp_upsert hlive (fun s hs _ => ?_) fun y hy s hs _ =>
    h _ _ rfl (.of_follows hK (hy.closed hs).toFollows)
  have hwrote := ((Extends.now hs).trans
    (.wrote [idempotencyKeys.write ⟨checkoutKey body, payload⟩])).toFollows
  have hput : ∀ d : Database, ((x.now s).wrote
      [idempotencyKeys.write ⟨checkoutKey body, payload⟩]).txn.view d =
      { d with idempotencyKeys := d.idempotencyKeys.put ⟨checkoutKey body, payload⟩ } := fun d => by
    rw [Txn.view_of_writes (t := x.txn) rfl, hview]
    rfl
  have hcommit : Prog.commitSession = (Prog.commitSession >>= fun _ => .ret () : Async Unit) := rfl
  dsimp only
  rw [hcommit]
  refine wp_commit hK hc hlive (fun s' hs' => ?_) (fun s' y _ _ hy => ?_) fun y hy s hs _ =>
    h _ _ rfl (.of_follows hK (hwrote.trans (hy.closed hs).toFollows))
  · rw [hput]
    refine .answered body rfl id rest (by rw [hwrote.past]; exact hrec)
      (by rw [hwrote.past]; exact hplaced) fun response hresponse => ?_
    exact (hcomp response hresponse).later (hK.evolves (hwrote.since.trans hs'.since))
  · rw [hput] at hy
    exact h y _ hy.txn (.of_committed hK (hy.of_follows hwrote) (fun m =>
      { Evolves.refl (s'.1, m) with keys := .put (fun _ => trivial) fun _ _ => trivial }) rfl)

/-- What is recovered from the payload of a cash order. -/
theorem recover_answered_nil (body : CheckoutRequest) (id : Uuid) :
    recoverIdempotentResult (some (answeredPayload body id [])) =
      .ok (some { orderId := id.text }) := rfl

/-- What is recovered from the payload of a card order. -/
theorem recover_answered_payment (body : CheckoutRequest) (id : Uuid) (token url : String) :
    recoverIdempotentResult (some (answeredPayload body id
      [("confirmation_token", .str token), ("confirmation_url", .str url)])) =
      .ok (some { orderId := id.text
                  confirmationToken := nonEmpty token
                  confirmationUrl := nonEmpty url }) := rfl

/-- What has become of a cash order. -/
inductive Cashed (K : ShopContract) (c : Call) (orderId : String) (x y : CallAt) : Prop
  | unconfirmed (h : K.Through c x (Broke K c orderId) y)
  | confirmed (v w : CallAt) (hv : Tried K c orderId .CONFIRM x v)
      (hw : Tried K c orderId .START_COOKING v w) (hy : Aside w y)

/-- What a checkout of the order answers, if it answers. -/
def Completed (body : CheckoutRequest) (id : Uuid) (r : Except PyError CheckoutResponse)
    (y : CallAt) : Prop :=
  ∀ answer, r = .ok answer → answer.orderId = id.text ∧
    Completes (checkoutKey body) (y.db, y.mem) answer

theorem Completed.error {body : CheckoutRequest} {id : Uuid} (e : PyError) (y : CallAt) :
    Completed body id (.error e) y := by
  simp [Completed]

/-- An order that is paid in cash needs nothing more. -/
theorem Owns.completes {body : CheckoutRequest} {id : Uuid} {totalRub : Int}
    (h : Owns body id totalRub x) (hcash : body.paymentMethod = "cash") :
    Completes (checkoutKey body) (x.db, x.mem) { orderId := id.text } := by
  obtain ⟨row, hfind, hmethod, -⟩ := h.row
  obtain rfl := (Table.find_some hfind).2
  exact .cash row hfind (by rw [hmethod, hcash])

/-- An order that is paid by card needs the payment that was requested for it. -/
theorem Owns.completes_card {body : CheckoutRequest} {id : Uuid} {totalRub : Int}
    {remote : RemotePayment} (h : Owns body id totalRub x) (hcard : body.paymentMethod ≠ "cash")
    (hremote : Requested (some (checkoutKey body)) id.text (x.db, x.mem) remote) :
    Completes (checkoutKey body) (x.db, x.mem)
      { orderId := id.text
        confirmationToken := nonEmpty remote.confirmationToken
        confirmationUrl := nonEmpty remote.confirmationUrl } := by
  obtain ⟨row, hfind, hmethod, -⟩ := h.row
  obtain rfl := (Table.find_some hfind).2
  obtain ⟨p, hp, hlater⟩ := hremote.there
  have hid : p.id = remote.id := by rw [hlater.same]; rfl
  have htoken : p.confirmationToken = remote.confirmationToken := by rw [hlater.same]; rfl
  have hurl : p.confirmationUrl = remote.confirmationUrl := by rw [hlater.same]; rfl
  rw [← htoken, ← hurl]
  refine .card row p hfind ?_ (hid ▸ hp) ?_ ?_
  · rw [hmethod]
    exact fun he => hcard (Option.some.inj he)
  · rw [hlater.same]
    exact hremote.order
  · rw [hlater.same]
    exact hremote.sent

theorem wp_checkoutCash {cfg : Settings} (hK : IsShop cfg K) {body : CheckoutRequest} {id : Uuid}
    {totalRub : Int} (hc : K.calls (.checkout body))
    {Q : Except PyError CheckoutResponse → CallAt → Prop} (hx : x.txn = {})
    (ho : Owns body id totalRub x) (hcash : body.paymentMethod = "cash")
    (h : ∀ y r, y.txn = {} → Owned body id y.past → Cashed K (.checkout body) id.text x y →
      Completed body id r y → Q r y) :
    K.wp (.checkout body) (checkoutCash body id) Q x := by
  rw [checkoutCash, wp_bind]
  refine wp_tryTransition hK hc hx ho (Or.inl rfl) (fun v res hv htried => ?_)
    fun y e hy hb => h y _ hy (hb.past ▸ ho.owned) (.unconfirmed hb) (.error _ _)
  have hov := htried.owns hK ho
  dsimp only
  rw [wp_bind]
  refine wp_tryTransition hK hc hv hov (Or.inr (Or.inr ⟨rfl, hcash⟩))
    (fun w res hw htried' => ?_) fun y e hy hb => ?_
  · have how := htried'.owns hK hov
    have hcomp := how.completes hcash
    dsimp only
    rw [wp_bind]
    refine wp_updatePayload hK hc [] hw how.recorded how.placed
      (fun response hresponse => ?_) fun y r hy haside => ?_
    · obtain rfl : { orderId := id.text } = response := by
        rw [recover_answered_nil] at hresponse
        exact Option.some.inj (Except.ok.inj hresponse)
      exact hcomp
    cases r with
    | error e =>
        exact h _ _ hy (haside.owned how.owned) (.confirmed v w htried htried' haside) (.error _ _)
    | ok u =>
        refine h _ _ hy (haside.owned how.owned) (.confirmed v w htried htried' haside)
          fun answer hanswer => ?_
        obtain rfl := Except.ok.inj hanswer
        exact ⟨rfl, hcomp.later haside.evolves⟩
  · exact h y _ hy (hb.past ▸ hov.owned)
      (.confirmed v y htried (Or.inr (hb.mono fun _ => .broke)) (.refl y)) (.error _ _)

/-- What has become of a card order whose checkout has answered. -/
def Carded (K : ShopContract) (c : Call) (id : Uuid) (x y : CallAt) : Prop :=
  ∃ v w u, Tried K c id.text .CONFIRM x v ∧ Tried K c id.text .REQUEST_PAYMENT v w ∧
    Charged K c id w u ∧ Aside u y

theorem wp_checkoutCard {cfg : Settings} (hK : IsShop cfg K) {body : CheckoutRequest} {id : Uuid}
    {totalRub : Int} (hc : K.calls (.checkout body))
    {Q : Except PyError CheckoutResponse → CallAt → Prop} (hx : x.txn = {})
    (ho : Owns body id totalRub x) (hcard : body.paymentMethod ≠ "cash")
    (h : ∀ y r, y.txn = {} → Owned body id y.past → Completed body id r y →
      (∀ answer, r = .ok answer → Carded K (.checkout body) id x y) → Q r y) :
    K.wp (.checkout body) (checkoutCard cfg body id totalRub) Q x := by
  have herr : ∀ y e, y.txn = {} → Owned body id y.past → Q (.error e) y := fun y e hy hoy =>
    h y _ hy hoy (.error _ _) (by simp)
  rw [checkoutCard, wp_bind]
  refine wp_tryTransition hK hc hx ho (Or.inl rfl) (fun v res hv htried => ?_)
    fun y e hy hb => herr y e hy (hb.past ▸ ho.owned)
  have hov := htried.owns hK ho
  dsimp only
  rw [wp_bind]
  refine wp_tryTransition hK hc hv hov (Or.inr (Or.inl ⟨rfl, hcard⟩))
    (fun w res hw htried' => ?_) fun y e hy hb => herr y e hy (hb.past ▸ hov.owned)
  have how := htried'.owns hK hov
  obtain ⟨row₀, hfind₀, hmethod, htotal, -⟩ := how.row
  dsimp only
  rw [wp_bind, wp_andThen]
  refine wp_createPayment hK hc hw (fun s row hs hid hfind => ?_)
    (fun e he => ⟨how.recorded, id, how.placed, he⟩)
    (fun p hp => ⟨how.recorded, id, how.placed, hp⟩)
    (fun y remote id' traceId hy hev hid hch hremote => ?_) fun y e hy hpast => ?_
  · obtain rfl : id = row.id := by simpa using hid
    obtain ⟨row', hfind', hlater⟩ := hs.orders _ _ hfind₀
    obtain rfl := Option.some.inj (hfind.symm.trans hfind')
    refine ⟨how.placed, ?_, hcard, ?_, rfl⟩
    · rw [hlater.same]
      exact hmethod
    · rw [hlater.same, htotal]
      rfl
  · obtain rfl : id = id' := by simpa using hid
    have hoy : Owns body id totalRub y := by
      refine how.later ?_ hev.orders
      cases hch with
      | created d d' row hpast _ _ _ _ => exact ⟨_, hpast⟩
      | struck z _ _ _ hpast => exact ⟨[], by simp [hpast]⟩
    have hcomp := hoy.completes_card hcard hremote
    dsimp only
    rw [wp_ret]
    dsimp only
    rw [wp_bind]
    refine wp_updatePayload hK hc [("confirmation_token", .str remote.confirmationToken),
        ("confirmation_url", .str remote.confirmationUrl)] hy hoy.recorded hoy.placed
      (fun response hresponse => ?_) fun z r hz haside => ?_
    · rw [recover_answered_payment] at hresponse
      obtain rfl := Option.some.inj (Except.ok.inj hresponse)
      exact hcomp
    cases r with
    | error e => exact herr z e hz (haside.owned hoy.owned)
    | ok u =>
        refine h z _ hz (haside.owned hoy.owned) (fun answer hanswer => ?_)
          fun _ _ => ⟨v, w, y, htried, htried', hch, haside⟩
        obtain rfl := Except.ok.inj hanswer
        exact ⟨rfl, hcomp.later haside.evolves⟩
  · dsimp only
    have hoy : Owned body id y.past := hpast ▸ how.owned
    split <;> exact herr _ _ hy hoy

/-! ## The route -/

/-- What a checkout whose key is taken answers to the payload it has read. -/
def repeatedAnswer : Except PyError (Option CheckoutResponse) → Except PyError CheckoutResponse
  | .error e => .error e
  | .ok (some existing) => .ok existing
  | .ok none => .error (.httpException 409 .stillBeingProcessed)

/-- What a checkout whose key is taken has come to between `x` and `y`. -/
inductive Repeated (K : ShopContract) (c : Call) (key : String) (x y : CallAt) :
    Except PyError CheckoutResponse → Prop
  | answered (out : Except PyError (Option CheckoutResponse))
      (h : K.Through c x (fun z => recoverIdempotentResult
        ((z.db.idempotencyKeys.find key).map IdempotencyKey.payload) = out) y) :
      Repeated K c key x y (repeatedAnswer out)
  | refused (h : K.Through c x (K.faulty c) y) : Repeated K c key x y (.error .dbapiError)

/-- What a checkout has come to between `x` and `y`, where it has ended with `r`. -/
inductive CheckedOut (K : ShopContract) (c : Call) (body : CheckoutRequest) (x : CallAt) :
    Except PyError CheckoutResponse → CallAt → Prop
  | rejected (e : PyError) (he : ∃ detail, e = .httpException 400 detail) :
      CheckedOut K c body x (.error e) x
  | refused (y : CallAt) (h : K.Through c x (K.faulty c) y) :
      CheckedOut K c body x (.error .dbapiError) y
  | repeated (d : Database) (w y : CallAt) (r : Except PyError CheckoutResponse)
      (hkey : (d.idempotencyKeys.find (checkoutKey body)).isSome = true)
      (h : K.Committed c d d x w) (hy : Repeated K c (checkoutKey body) w y r) :
      CheckedOut K c body x r y
  | unplaced (e : PyError) (y : CallAt) (h : Aside x y)
      (hrec : KeyRecorded y.past (checkoutKey body)) (he : NotBusy e) :
      CheckedOut K c body x (.error e) y
  | cash (w v y : CallAt) (r : Except PyError CheckoutResponse) (id : Uuid) (totalRub : Int)
      (hcash : body.paymentMethod = "cash") (hw : Aside x w)
      (hv : PlacedBy K c body id totalRub w v) (ho : Owned body id y.past)
      (hy : Cashed K c id.text v y) (hr : Completed body id r y)
      (he : ∀ e, r = .error e → NotBusy e) : CheckedOut K c body x r y
  | card (w v y : CallAt) (r : Except PyError CheckoutResponse) (id : Uuid) (totalRub : Int)
      (hcard : body.paymentMethod ≠ "cash") (hw : Aside x w)
      (hv : PlacedBy K c body id totalRub w v) (ho : Owned body id y.past)
      (hy : ∀ answer, r = .ok answer → Carded K c id v y) (hr : Completed body id r y)
      (he : ∀ e, r = .error e → NotBusy e) : CheckedOut K c body x r y

theorem wp_repeated {key : String} {Q : Except PyError CheckoutResponse → CallAt → Prop}
    (hx : x.txn = {}) (h : ∀ y r, y.txn = {} → Repeated K c key x y r → Q r y) :
    K.wp c (do
      let payload ← getPayload key
      match ← ofExcept (recoverIdempotentResult payload) with
      | some existing => return existing
      | none => throw (.httpException 409 .stillBeingProcessed)) Q x := by
  rw [getPayload, wp_bind]
  refine wp_withSession ?_
  rw [wp_bind]
  refine idempotencyKeys.wp_find (by rw [hx]) (fun s hs ha s' hs' _ => ?_)
    fun z hz s' hs' _ => h _ _ rfl (.refused (hz.closed hs'))
  have hthrough : ∀ out, recoverIdempotentResult ((s.1.idempotencyKeys.find key).map
      IdempotencyKey.payload) = out → K.Through c x (fun z => recoverIdempotentResult
        ((z.db.idempotencyKeys.find key).map IdempotencyKey.payload) = out)
        ((x.now s).now s').closed := fun out hout =>
    (Through.now hs ha hout).follows ((Follows.now hs').trans .closed)
  have hview : (idempotencyKeys.table (x.txn.view s.1)).find key = s.1.idempotencyKeys.find key := by
    rw [hx]
    rfl
  rw [hview]
  dsimp only
  rw [wp_bind]
  match hout : recoverIdempotentResult
    ((s.1.idempotencyKeys.find key).map IdempotencyKey.payload) with
  | .error e => exact h _ _ rfl (.answered (.error e) (hthrough _ hout))
  | .ok none => exact h _ _ rfl (.answered (.ok none) (hthrough _ hout))
  | .ok (some existing) => exact h _ _ rfl (.answered (.ok (some existing)) (hthrough _ hout))

theorem wp_checkout {cfg : Settings} (hK : IsShop cfg K) {body : CheckoutRequest}
    (hc : K.calls (.checkout body)) {Q : Except PyError CheckoutResponse → CallAt → Prop}
    (hx : x.txn = {}) (hpast : x.past = [])
    (h : ∀ y r, y.txn = {} → CheckedOut K (.checkout body) body x r y → Q r y) :
    K.wp (.checkout body) (checkout cfg body) Q x := by
  rw [checkout]
  by_cases h₁ : body.paymentMethod ≠ "yookassa_sbp" ∧ body.paymentMethod ≠ "yookassa_sberbank" ∧
      body.paymentMethod ≠ "cash"
  · rw [if_pos h₁]
    exact h _ _ hx (.rejected _ ⟨_, rfl⟩)
  rw [if_neg h₁]
  by_cases h₂ : body.deliveryMode ≠ "pickup" ∧ body.zoneId = none
  · rw [if_pos h₂]
    exact h _ _ hx (.rejected _ ⟨_, rfl⟩)
  rw [if_neg h₂]
  by_cases h₃ : body.items.isEmpty = true
  · rw [if_pos h₃]
    exact h _ _ hx (.rejected _ ⟨_, rfl⟩)
  rw [if_neg h₃, wp_bind]
  refine wp_checkAndRecord hK hc hx rfl (fun y d hnone hcm => ?_)
    (fun _ y d _ _ _ hsome hcm => ?_) fun y hy hf => h y _ hy (.refused y hf)
  · have hkey : Aside x y := .of_committed hK hcm
      (fun m => { Evolves.refl (d, m) with keys := .put_absent (fun _ => trivial) hnone }) rfl
    have hrec := KeyRecorded.of_committed hcm hnone ⟨_, rfl⟩
    have hfirst := hkey.first (by simp [hpast])
    dsimp only
    rw [if_pos rfl]
    refine wp_of_raises (raises_carriedOut cfg body) ?_
    rw [wp_bind]
    refine wp_placeOrder hK hc hcm.txn hrec hfirst (fun w v id totalRub hw hv => ?_)
      fun y e hy h' he => h y _ hy (.unplaced e y (hkey.trans h') (h'.keyRecorded hrec) (he e rfl))
    have ho := Owns.of_placedBy hK (hw.keyRecorded hrec) hv
    have htxn : v.txn = {} := by
      obtain ⟨d, customerId, items, promoCode, discountRub, -, hcm⟩ := hv
      exact hcm.txn
    dsimp only
    split_ifs with hmethod
    · exact wp_checkoutCash hK hc htxn ho hmethod fun z r hz hoz hz' hr he =>
        h z r hz (.cash w v z r id totalRub hmethod (hkey.trans hw) hv hoz hz' hr he)
    · exact wp_checkoutCard hK hc htxn ho hmethod fun z r hz hoz hr hz' he =>
        h z r hz (.card w v z r id totalRub hmethod (hkey.trans hw) hv hoz hz' hr he)
  · dsimp only
    rw [if_neg (by simp)]
    exact wp_repeated hcm.txn fun z r hz hr => h z r hz (.repeated d y z r hsome hcm hr)

end Specs

end Sieshka
