import Sieshka.Transactions.Counting
import Sieshka.Shop

/-!
# How often a checkout writes the memory

A checkout records one trace event and creates one payment at the provider, on
any path through it; all else it does leaves the memory as it is.
-/

namespace Sieshka

open Transactions Prog

section Quiet

variable {Δ : Memory → Memory → Prop}

@[simp] theorem quiet_ofExcept {α : Type} (r : Except PyError α) : (ofExcept r).Quiet Δ := by
  cases r <;> simp

@[simp] theorem quiet_uuid4 : uuid4.Quiet Δ := .choose fun _ => .ret _ 0

@[simp] theorem quiet_textArg {Name : Type} [DecidableEq Name] (args : List (Name × Value))
    (name : Name) : (textArg args name).Quiet Δ := by
  unfold textArg
  split <;> simp

@[simp] theorem quiet_stateArg (args : List (OrderName × Value)) (name : OrderName) :
    (stateArg args name).Quiet Δ := by
  unfold stateArg
  split <;> simp

/-! ## Tools -/

theorem quiet_recordMovement (sku : String) (delta : Int) (reason : MovementReason)
    (sourceType sourceId : Option String) (belowZero : Bool) :
    (recordMovement sku delta reason sourceType sourceId belowZero).Quiet Δ :=
  .bind quiet_uuid4 fun _ => inventoryMovements.quiet_insert _ _

theorem quiet_reserveSku (orderId sku : String) (qty : Int) :
    (reserveSku orderId sku qty).Quiet Δ := by
  refine .bind (inventory.quiet_findForUpdate sku) fun row => ?_
  cases row with
  | none => simp
  | some stock =>
      exact .bind (inventory.quiet_updateIf _ _ _) fun _ =>
        .bind (quiet_recordMovement _ _ _ _ _ _) fun _ => quiet_ret _

theorem quiet_resolveSku (sku productId : Json) : (resolveSku sku productId).Quiet Δ := by
  unfold resolveSku
  split_ifs
  · simp
  · exact .bind (quiet_ofExcept _) fun _ => .bind (quiet_select _) fun _ => quiet_ret _
  · simp

theorem quiet_reserveItem (orderId : String) (item : Json) : (reserveItem orderId item).Quiet Δ := by
  refine .bind (quiet_ofExcept _) fun fields => .bind (quiet_resolveSku _ _) fun sku => ?_
  split_ifs
  · split
    · exact quiet_reserveSku _ _ _
    · simp
  · simp

theorem quiet_reserveItems (orderId : String) (items : List Json) (anyBelowZero : Bool) :
    (reserveItems orderId items anyBelowZero).Quiet Δ := by
  induction items generalizing anyBelowZero with
  | nil => exact quiet_ret _
  | cons item rest ih => exact .bind (quiet_reserveItem _ _) fun _ => ih _

theorem quiet_reserveInventoryItems (orderId : String) :
    (reserveInventoryItems orderId).Quiet Δ := by
  refine .bind (quiet_ofExcept _) fun id => .bind (quiet_select _) fun found => ?_
  cases found with
  | none => simp
  | some row =>
      exact .bind (quiet_ofExcept _) fun _ => .bind (quiet_reserveItems _ _ _) fun _ => quiet_ret _

theorem quiet_createKitchenTicket (orderId : String) : (createKitchenTicket orderId).Quiet Δ :=
  .bind (quiet_ofExcept _) fun _ => .bind quiet_uuid4 fun _ =>
    .bind (kitchenTickets.quiet_insert _ _) fun _ => quiet_ret _

theorem quiet_transitionOrderState (orderId : String) (fromState toState : OrderState) :
    (transitionOrderState orderId fromState toState).Quiet Δ := by
  refine .bind (quiet_ofExcept _) fun id => .bind (orders.quiet_findForUpdate id) fun row => ?_
  cases row with
  | none => simp
  | some row =>
      dsimp only
      split_ifs
      · simp
      · exact .bind (orders.quiet_update _ _) fun _ => quiet_ret _

theorem quiet_writeOrderStateCooking (orderId ticketId : String) :
    (writeOrderStateCooking orderId ticketId).Quiet Δ := by
  refine .bind (quiet_ofExcept _) fun id => .bind (orders.quiet_findForUpdate id) fun row => ?_
  cases row with
  | none => simp
  | some row =>
      dsimp only
      split_ifs
      · simp
      · exact .bind (orders.quiet_update _ _) fun _ => .bind (quiet_ofExcept _) fun _ =>
          .bind (kitchenTickets.quiet_update _ _) fun _ => quiet_ret _

theorem quiet_orderTools (tool : OrderTool) (args : List (OrderName × Value)) :
    (orderTools tool args).Quiet Δ := by
  refine .bind (quiet_textArg _ _) fun orderId => ?_
  cases tool with
  | transition_order_state =>
      exact .bind (quiet_stateArg _ _) fun _ => .bind (quiet_stateArg _ _) fun _ =>
        .bind (quiet_transitionOrderState _ _ _) fun _ => quiet_ret _
  | reserve_inventory_items => exact .bind (quiet_reserveInventoryItems _) fun _ => quiet_ret _
  | notify_inventory_insufficient => simp
  | create_kitchen_ticket => exact .bind (quiet_createKitchenTicket _) fun _ => quiet_ret _
  | write_order_state_cooking =>
      exact .bind (quiet_textArg _ _) fun _ => .bind (quiet_writeOrderStateCooking _ _) fun _ =>
        quiet_ret _
  | notify_staff_new_kitchen_ticket => simp

/-! ## Programs and transitions -/

/-- A program is as quiet as its tools. -/
theorem quiet_vmRun {Tool Name : Type} [DecidableEq Name]
    {tools : Tool → List (Name × Value) → Async Value} (htools : ∀ t args, (tools t args).Quiet Δ)
    (program : Program Tool Name) (context : List (Name × Value)) :
    (vmRun tools program context).Quiet Δ := by
  have hrun : ∀ fuel id outputs, (runFrom tools program context fuel id outputs).Quiet Δ := by
    intro fuel
    induction fuel with
    | zero => exact fun _ _ => quiet_ret _
    | succ fuel ih =>
        intro id outputs
        rw [runFrom]
        split
        · simp
        · split
          · refine .andThen (htools _ _) (fun out => ?_) fun _ => quiet_ret _
            dsimp only
            split
            · simp
            · exact ih _ _
          · split
            · simp
            · exact ih _ _
  unfold vmRun
  split
  · simp
  · exact hrun _ _ _

theorem quiet_orderState (orderId : String) : (orderState orderId).Quiet Δ := by
  refine .bind (quiet_ofExcept _) fun id => .bind (orders.quiet_find id) fun row => ?_
  cases row <;> simp

theorem quiet_finishTransition (orderId : String) (event : OrderEvent) (newState : OrderState) :
    (finishTransition orderId event newState).Quiet Δ := by
  refine .bind quiet_uuid4 fun _ => .bind (quiet_ofExcept _) fun _ =>
    .bind (orders.quiet_update _ _) fun _ => ?_
  split_ifs
  · exact .bind (quiet_createKitchenTicket _) fun _ => quiet_ret _
  · simp

theorem quiet_transitionOrder (orderId : String) (event : OrderEvent) :
    (transitionOrder orderId event).Quiet Δ := by
  refine .withSession (.bind (quiet_orderState _) fun st => ?_)
  split
  · simp
  · refine .bind (quiet_vmRun quiet_orderTools _ _) fun trace => ?_
    split
    · exact .bind (quiet_finishTransition _ _ _) fun _ => .bind quiet_commitSession fun _ =>
        quiet_ret _
    · simp

theorem quiet_runSimpleTransition (orderId : String) (event : OrderEvent) (st : OrderState) :
    (runSimpleTransition orderId event st).Quiet Δ := by
  unfold runSimpleTransition
  split
  · simp
  · refine .bind (quiet_vmRun quiet_orderTools _ _) fun trace => ?_
    split <;> simp

/-! ## The steps of a checkout -/

theorem quiet_checkAndRecord (key : String) (payload : Json) :
    (checkAndRecord key payload).Quiet Δ :=
  .withSession (.bind (idempotencyKeys.quiet_insertIfAbsent _) fun _ =>
    .bind quiet_commitSession fun _ => quiet_ret _)

theorem quiet_getPayload (key : String) : (getPayload key).Quiet Δ :=
  .withSession (.bind (idempotencyKeys.quiet_find key) fun _ => quiet_ret _)

theorem quiet_updatePayload (key : String) (payload : Json) :
    (updatePayload key payload).Quiet Δ :=
  .withSession (.bind (idempotencyKeys.quiet_upsert _) fun _ => quiet_commitSession)

theorem quiet_findOrCreateByPhone (name phone : String) :
    (findOrCreateByPhone name phone).Quiet Δ := by
  refine .bind (quiet_ofExcept _) fun canonical =>
    .withSession (.bind (customers.quiet_find canonical) fun row => ?_)
  cases row with
  | some existing => simp
  | none =>
      exact .bind quiet_uuid4 fun _ => .bind (customers.quiet_insert _ _) fun _ =>
        .bind quiet_commitSession fun _ => quiet_ret _

theorem quiet_resolveCheckoutItems (items : List CheckoutItem) :
    (resolveCheckoutItems items).Quiet Δ := by
  induction items with
  | nil => exact quiet_ret _
  | cons ci rest ih =>
      refine .bind (.withSession (quiet_select _)) fun snapshot => ?_
      split
      · simp
      · exact .bind ih fun _ => quiet_ret _

@[simp] theorem quiet_bindParam (taken : Bool) :
    (bindParam taken : Async Unit).Quiet Δ := by
  cases taken <;> simp [bindParam]

theorem quiet_resolvePromoEffect (cfg : Settings) (promoCode : Option String) (goods : Int) :
    (resolvePromoEffect cfg promoCode goods).Quiet Δ := by
  rw [resolvePromoEffect]
  split_ifs
  · simp
  · refine .bind (quiet_bindParam _) fun _ => .bind (quiet_select _) fun found => ?_
    split
    · exact .bind (quiet_ofExcept _) fun _ => quiet_ret _
    · simp

theorem quiet_createOrderFromCheckout (data : CheckoutRequest) (customerId : Uuid)
    (items : List OrderItem) (totalRub : Int) (promoCode : Option String) (discountRub : Int) :
    (createOrderFromCheckout data customerId items totalRub promoCode discountRub).Quiet Δ :=
  .withSession (.bind quiet_uuid4 fun _ => .bind (orders.quiet_insert _ _) fun _ =>
    .bind quiet_commitSession fun _ => quiet_ret _)

theorem quiet_placeOrder (cfg : Settings) (body : CheckoutRequest) :
    (placeOrder cfg body).Quiet Δ := by
  rw [placeOrder]
  refine Quiet.bind (quiet_findOrCreateByPhone _ _) fun customer => ?_
  refine Quiet.bind (quiet_resolveCheckoutItems _) fun items => ?_
  refine Quiet.bind (Quiet.withSession (quiet_resolvePromoEffect _ _ _)) fun promo => ?_
  have hplace : ∀ zoneFee, (do
      let totalRub := computeCheckoutTotal cfg items body.deliveryMode promo zoneFee
      let id ← createOrderFromCheckout body customer.id items totalRub
        (promo.map PromoEffect.appliedCode) ((promo.map PromoEffect.discountRub).getD 0)
      return (id, totalRub) : Async (Uuid × Int)).Quiet Δ := fun _ =>
    .bind (quiet_createOrderFromCheckout _ _ _ _ _ _) fun _ => quiet_ret _
  cases body.zoneId with
  | none => exact hplace none
  | some zone => exact .bind (.withSession (quiet_select _)) fun _ => hplace _

theorem quiet_recordPayment (orderId : String) (amount : Int) (currency providerId : String) :
    (Prog.withSession do
      let _ ← createPaymentRow orderId amount currency providerId
      let currentState ← orderState orderId
      let result ← runSimpleTransition orderId .REQUEST_PAYMENT currentState
      Prog.commitSession
      return result : Async OrderResult).Quiet Δ :=
  .withSession (.bind (.bind (quiet_ofExcept _) fun _ => .bind quiet_uuid4 fun _ =>
      .bind (payments.quiet_insert _ _) fun _ => quiet_ret _) fun _ =>
    .bind (quiet_orderState _) fun _ => .bind (quiet_runSimpleTransition _ _ _) fun _ =>
    .bind quiet_commitSession fun _ => quiet_ret _)

end Quiet

/-! ## The two writes -/

/-- A part of the memory that `create_payment` writes. -/
inductive MemoryPart
  | trace
  | provider
deriving DecidableEq

/-- The write has changed the part. -/
def MemoryPart.Changes : MemoryPart → Memory → Memory → Prop
  | trace, m, m' => m'.trace ≠ m.trace
  | provider, m, m' => m'.provider ≠ m.provider

theorem MemoryPart.not_changes_self (part : MemoryPart) (m : Memory) : ¬ part.Changes m m := by
  cases part <;> exact fun h => h rfl

/-- `create_payment` changes each part at most once. -/
theorem within_createPayment (part : MemoryPart) (cfg : Settings) (sentFor : Option String)
    (orderId : String) (amount : Int) (currency : String) (paymentMethodType : Option String) :
    (createPayment cfg sentFor orderId amount currency paymentMethodType).Within part.Changes 1 := by
  cases part with
  | trace =>
      have htrace : (traceRecord orderId "orders" "PAYMENT_REQUESTED" "CONFIRMED" "PAYMENT_PENDING"
          [("amount", toString amount), ("currency", currency)]).Within MemoryPart.trace.Changes 1 :=
        .choose fun _ => .writes fun _ => .ret _ 0
      refine Within.bind (b := 0) htrace fun traceId => ?_
      split_ifs
      · refine Quiet.bind (.choose fun n => ?_) fun _ => .bind (quiet_recordPayment _ _ _ _) fun _ =>
          quiet_ret _
        match n with
        | 0 => simp
        | 1 => simp
        | n + 2 =>
            refine .keeps (fun m h => h rfl) fun m => ?_
            split_ifs <;> simp
      · simp
  | provider =>
      have htrace : (traceRecord orderId "orders" "PAYMENT_REQUESTED" "CONFIRMED" "PAYMENT_PENDING"
          [("amount", toString amount), ("currency", currency)]).Within
            MemoryPart.provider.Changes 0 :=
        .choose fun _ => .keeps (fun m h => h rfl) fun _ => .ret _ 0
      refine Within.bind (b := 1) htrace fun traceId => ?_
      split_ifs
      · refine Within.bind (a := 1) (b := 0) (.choose fun n => ?_) fun _ =>
          .bind (quiet_recordPayment _ _ _ _) fun _ => quiet_ret _
        match n with
        | 0 => simp
        | 1 => simp
        | n + 2 =>
            refine .writes fun m => ?_
            split_ifs <;> simp
      · simp

/-- A checkout changes each part at most once. -/
theorem within_checkout (part : MemoryPart) (cfg : Settings) (body : CheckoutRequest) :
    (checkout cfg body).Within part.Changes 1 := by
  have hcash : ∀ id, (checkoutCash body id).Within part.Changes 1 := fun id =>
    Quiet.within (.bind (quiet_transitionOrder _ _) fun _ => .bind (quiet_transitionOrder _ _)
      fun _ => .bind (quiet_updatePayload _ _) fun _ => quiet_ret _) 1
  have hcard : ∀ id totalRub, (checkoutCard cfg body id totalRub).Within part.Changes 1 := by
    intro id totalRub
    refine Within.bind (a := 0) (b := 1) (quiet_transitionOrder _ _) fun _ =>
      Within.bind (a := 0) (b := 1) (quiet_transitionOrder _ _) fun _ =>
      Within.bind (a := 1) (b := 0) ?_ fun _ => .bind (quiet_updatePayload _ _) fun _ => quiet_ret _
    refine Within.andThen (b := 0) (within_createPayment part _ _ _ _ _ _) (fun payment => .ret _ 0)
      fun e => ?_
    split <;> simp
  rw [checkout]
  split_ifs
  · simp
  · simp
  · simp
  all_goals
    refine Within.bind (a := 0) (b := 1) (quiet_checkAndRecord _ _) fun inserted => ?_
    split_ifs
    · refine Within.bind (a := 0) (b := 1) (quiet_placeOrder _ _) fun placed => ?_
      first
      | exact hcash _
      | exact hcard _ _
    · refine Quiet.within (.bind (quiet_getPayload _) fun _ => .bind (quiet_ofExcept _) fun out => ?_) 1
      cases out <;> simp

end Sieshka
