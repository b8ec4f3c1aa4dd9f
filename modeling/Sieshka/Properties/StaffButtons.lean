import Sieshka.Samples
import Sieshka.Specs.Presses
import Sieshka.Specs.StaffCards

/-!
# Buttons and presses

A button that a card shows is one that can be pressed: alone, a press moves the order or the
ticket along the edge of its event where the card of the sender's role shows the button, and
else it changes nothing.
-/

namespace Sieshka

open Transactions

/-- The keyboard a role is shown of an order and its ticket. -/
def roleKeyboard (role : StaffRole) (orderId : String) (state : OrderState)
    (ticket : Option (String × KitchenState)) : List InlineKeyboard :=
  match role with
  | .kitchen => (ticket.map fun ticket => kitchenKeyboard ticket.1 ticket.2).getD []
  | .courier => orderKeyboard orderId state .courier
  | .admin => orderKeyboard orderId state .admin
  | .staff => staffKeyboard orderId state ticket

/-- The buttons of a keyboard are the buttons of a message with it. -/
def roleButtons (role : StaffRole) (orderId : String) (state : OrderState)
    (ticket : Option (String × KitchenState)) : List Button :=
  (messageBody "" (roleKeyboard role orderId state ticket)).buttons

/-- The update MAX sends when a user presses a button. -/
def pressUpdate (sender : Int) (button : Button) : Json :=
  .obj [("update_type", .str "message_callback"),
    ("callback", .obj [("callback_id", .str "callback"), ("payload", .str button.payload),
      ("user", .obj [("user_id", .int sender)])])]

/-! ## What a card shows -/

section Shown

theorem orderButton_injective {orderId : String} {e e' : OrderEvent}
    (h : orderButton orderId e = orderButton orderId e') : e = e' := by
  have htext : (orderEventButton e).1 = (orderEventButton e').1 := congrArg Button.text h
  revert htext
  cases e <;> cases e' <;> decide

theorem kitchenButton_injective {ticketId : String} {e e' : KitchenEvent}
    (h : kitchenButton ticketId e = kitchenButton ticketId e') : e = e' := by
  have htext : (kitchenEventButton e).1 = (kitchenEventButton e').1 := congrArg Button.text h
  revert htext
  cases e <;> cases e' <;> decide

theorem kitchenButton_ne_orderButton {ticketId orderId : String} {e : KitchenEvent}
    {e' : OrderEvent} : kitchenButton ticketId e ≠ orderButton orderId e' := by
  intro h
  have htext : (kitchenEventButton e).1 = (orderEventButton e').1 := congrArg Button.text h
  revert htext
  cases e <;> cases e' <;> decide

theorem mem_allowedOrderEvents {state : OrderState} {event : OrderEvent} :
    event ∈ allowedOrderEvents state ↔ (orderTransitions state event).isSome = true := by
  cases state <;> cases event <;> decide

theorem mem_allowedKitchenEvents {state : KitchenState} {event : KitchenEvent} :
    event ∈ allowedKitchenEvents state ↔ (kitchenTransitions state event).isSome = true := by
  cases state <;> cases event <;> decide

variable {role : StaffRole} {orderId : String} {state : OrderState}
variable {ticket : Option (String × KitchenState)}

theorem orderButton_mem_orderKeyboard {event : OrderEvent} :
    (∃ attachment ∈ orderKeyboard orderId state role, ∃ r ∈ attachment.buttons,
      orderButton orderId event ∈ r) ↔
      event ∈ allowedOrderEvents state ∧ event ∈ offeredOrderEvents role := by
  rw [mem_orderKeyboard]
  constructor
  · rintro ⟨e, hallowed, hoffered, he⟩
    obtain rfl := orderButton_injective he
    exact ⟨hallowed, hoffered⟩
  · rintro ⟨hallowed, hoffered⟩
    exact ⟨event, hallowed, hoffered, rfl⟩

/-- A card shows the events of its order that the graph allows and the role may cause. -/
theorem orderButton_mem_roleButtons {event : OrderEvent} :
    orderButton orderId event ∈ roleButtons role orderId state ticket ↔
      event ∈ allowedOrderEvents state ∧ event ∈ offeredOrderEvents role := by
  rw [roleButtons, mem_buttons_messageBody]
  cases role with
  | courier => exact orderButton_mem_orderKeyboard
  | admin => exact orderButton_mem_orderKeyboard
  | kitchen =>
      cases ticket with
      | none => simp [roleKeyboard, offeredOrderEvents]
      | some ticket =>
          have hno : ¬ ∃ e ∈ allowedKitchenEvents ticket.2,
              kitchenButton ticket.1 e = orderButton orderId event := by
            rintro ⟨e, -, he⟩
            exact kitchenButton_ne_orderButton he
          simpa [roleKeyboard, offeredOrderEvents] using mem_kitchenKeyboard.not.mpr hno
  | staff =>
      rw [← @orderButton_mem_orderKeyboard _ orderId]
      refine mem_combineKeyboards.trans ?_
      simp only [List.mem_cons, List.not_mem_nil, or_false, exists_eq_or_imp, exists_eq_left]
      rw [or_iff_right]
      cases ticket with
      | none => simp
      | some ticket =>
          rw [mem_kitchenKeyboard]
          rintro ⟨e, -, he⟩
          exact kitchenButton_ne_orderButton he

theorem kitchenButton_mem_kitchenKeyboard {ticketId : String} {kitchenState : KitchenState}
    {event : KitchenEvent} :
    (∃ attachment ∈ kitchenKeyboard ticketId kitchenState, ∃ r ∈ attachment.buttons,
      kitchenButton ticketId event ∈ r) ↔ event ∈ allowedKitchenEvents kitchenState := by
  rw [mem_kitchenKeyboard]
  constructor
  · rintro ⟨e, hallowed, he⟩
    obtain rfl := kitchenButton_injective he
    exact hallowed
  · intro hallowed
    exact ⟨event, hallowed, rfl⟩

theorem kitchenButton_not_mem_orderKeyboard {ticketId : String} {event : KitchenEvent} :
    ¬ ∃ attachment ∈ orderKeyboard orderId state role, ∃ r ∈ attachment.buttons,
      kitchenButton ticketId event ∈ r := by
  rw [mem_orderKeyboard]
  rintro ⟨e, -, -, he⟩
  exact kitchenButton_ne_orderButton he.symm

/-- A card shows the events of its ticket that the graph allows and the role may cause. -/
theorem kitchenButton_mem_roleButtons {ticketId : String} {kitchenState : KitchenState}
    {event : KitchenEvent} :
    kitchenButton ticketId event ∈ roleButtons role orderId state (some (ticketId, kitchenState)) ↔
      event ∈ allowedKitchenEvents kitchenState ∧ kitchenRoleEvents role event = true := by
  rw [roleButtons, mem_buttons_messageBody]
  cases role with
  | courier =>
      refine iff_of_false kitchenButton_not_mem_orderKeyboard fun h => ?_
      exact absurd h.2 (by simp [kitchenRoleEvents])
  | admin =>
      refine iff_of_false kitchenButton_not_mem_orderKeyboard fun h => ?_
      exact absurd h.2 (by simp [kitchenRoleEvents])
  | kitchen =>
      rw [and_iff_left (by rfl)]
      exact kitchenButton_mem_kitchenKeyboard
  | staff =>
      rw [and_iff_left (by rfl), ← @kitchenButton_mem_kitchenKeyboard ticketId]
      refine mem_combineKeyboards.trans ?_
      simp only [List.mem_cons, List.not_mem_nil, or_false, exists_eq_or_imp, exists_eq_left]
      exact or_iff_left kitchenButton_not_mem_orderKeyboard

end Shown

/-! ## What a press does -/

section Presses

variable {cfg : Settings} {E₀ : Engine Database Write} {d : Database} {m : Memory} {sender : Int}
variable {member : StaffMember}

/-- The callback of a press. -/
def pressCallback (sender : Int) (payload : String) : List (String × Json) :=
  [("callback_id", .str "callback"), ("payload", .str payload),
    ("user", .obj [("user_id", .int sender)])]

theorem callbackOf_pressUpdate (sender : Int) (button : Button) :
    callbackOf (pressUpdate sender button) =
      .ok (some (pressCallback sender button.payload, sender)) := rfl

theorem buttonPayload_ne_empty (kind id event : String) : buttonPayload kind id event ≠ "" := by
  intro h
  have hlist := congrArg String.toList h
  simp [buttonPayload] at hlist

theorem dumpsText_of_plain {s : String} (h : IsPlainText s) :
    (dumpsText s).toList = inQuotes s := by
  have hcharacter : ∀ c ∈ s.toList, dumpsCharacter c = [c] := by
    intro c hc
    have hplain := h c hc
    simp only [isPlain, Bool.and_eq_true, decide_eq_true_eq] at hplain
    obtain ⟨⟨hquote, hslash⟩, hcontrol⟩ := hplain
    have hne : ∀ x : Char, x.toNat < 0x20 → c ≠ x := by
      rintro x hx rfl
      omega
    rw [dumpsCharacter, if_neg hquote, if_neg hslash, if_neg (hne _ (by decide)),
      if_neg (hne _ (by decide)), if_neg (hne _ (by decide)), if_neg (by omega), if_neg (by omega),
      if_neg (by omega)]
  have hbody : s.toList.flatMap dumpsCharacter = s.toList := by
    rw [List.flatMap_congr hcharacter, List.flatMap_singleton']
  simp [dumpsText, hbody, inQuotes]

/-- `json.loads` reads the payload of a button back. -/
theorem jsonLoads_buttonPayload (other : String → Except PyError Json) {kind id event : String}
    (hkind : IsPlainText kind) (hid : IsPlainText id) (hevent : IsPlainText event) :
    jsonLoads other (buttonPayload kind id event) =
      .ok (.obj [("kind", .str kind), ("id", .str id), ("event", .str event)]) := by
  set rest := inQuotes "kind" ++ ':' :: ' ' :: (inQuotes kind ++ ',' :: ' ' :: (inQuotes "id" ++
    ':' :: ' ' :: (inQuotes id ++ ',' :: ' ' :: (inQuotes "event" ++ ':' :: ' ' ::
      (inQuotes event ++ ['}']))))) with hrest
  have hlist : (buttonPayload kind id event).toList = '{' :: rest := by
    rw [hrest]
    simp only [buttonPayload, String.toList_append, dumpsText_of_plain hkind,
      dumpsText_of_plain hid, dumpsText_of_plain hevent, List.append_assoc]
    rfl
  have hkeys : IsPlainText "kind" ∧ IsPlainText "id" ∧ IsPlainText "event" := by decide
  have hpairs : ∀ n, readPairs (n + 3) rest =
      some [("kind", kind), ("id", id), ("event", event)] := by
    intro n
    rw [hrest, readPairs_cons hkeys.1 hkind, readPairs_space, readPairs_cons hkeys.2.1 hid,
      readPairs_space, readPairs_last hkeys.2.2 hevent]
    rfl
  have hlength : ∃ n, rest.length = n + 3 := by
    refine ⟨rest.length - 3, ?_⟩
    rw [hrest]
    simp only [List.length_append, List.length_cons]
    omega
  obtain ⟨n, hn⟩ := hlength
  have hread : readTexts (buttonPayload kind id event) =
      some [("kind", kind), ("id", id), ("event", event)] := by
    have hskip : skipBlank ('{' :: rest) = '{' :: rest := rfl
    simp only [readTexts, hlist, hskip, hn, hpairs]
    rfl
  simp only [jsonLoads, hread]
  rfl

theorem isPlainText_uuid (id : Uuid) : IsPlainText id.text := by
  intro c hc
  rcases mem_text hc with rfl | ⟨d, hd, rfl⟩
  · decide
  · interval_cases d <;> decide

theorem uuidText_ne_empty (id : Uuid) : id.text ≠ "" := by
  intro h
  have hread := readUuid_text id
  have hnone : readUuid "" = none := by decide +kernel
  rw [h, hnone] at hread
  cases hread

/-- What a press of a button of an order or a ticket says. -/
theorem pressOf_pressCallback (sender : Int) {kind event : String} {pressKind : PressKind}
    {id : Uuid} (hplain : IsPlainText kind)
    (hkind : PressKind.ofJson (.str kind) = some pressKind) (hevent : IsPlainText event)
    (hne : event ≠ "") :
    pressOf cfg (pressCallback sender (buttonPayload kind id.text event)) =
      .ok (some ⟨pressKind, id.text, event⟩) := by
  have hpayload := buttonPayload_ne_empty kind id.text event
  have hid := uuidText_ne_empty id
  have hread := jsonLoads_buttonPayload cfg.loads hplain (isPlainText_uuid id) hevent
  simp [pressOf, pressCallback, Json.get, Json.truthy, hpayload, hread, hkind, hid, hne, jsonText]

theorem OrderEvent.value_ne_empty (event : OrderEvent) : event.value ≠ "" := by
  cases event <;> decide

theorem KitchenEvent.value_ne_empty (event : KitchenEvent) : event.value ≠ "" := by
  cases event <;> decide

theorem OrderEvent.isPlainText_value (event : OrderEvent) : IsPlainText event.value := by
  cases event <;> decide

theorem KitchenEvent.isPlainText_value (event : KitchenEvent) : IsPlainText event.value := by
  cases event <;> decide

theorem OrderEvent.ofValue_value (event : OrderEvent) :
    OrderEvent.ofValue event.value = some event := by
  cases event <;> decide

theorem KitchenEvent.ofValue_value (event : KitchenEvent) :
    KitchenEvent.ofValue event.value = some event := by
  cases event <;> decide

section Dispatch

variable {role : StaffRole} {s s' : Quiet Database Memory}

theorem returns_dispatchPress_order {orderId : String} {event : OrderEvent} {result : OrderResult}
    (hrole : orderRoleEvents role event = true)
    (h : (transitionOrder orderId event).Returns E₀ s result s') :
    (dispatchPress role ⟨.order, orderId, event.value⟩).Returns E₀ s () s' := by
  simp only [dispatchPress, dispatchOrder, OrderEvent.ofValue_value, hrole, if_true, Prog.bind_eq,
    Prog.returns_andThen]
  exact ⟨_, _, ⟨_, _, h, (Prog.returns_ret _).mpr ⟨rfl, rfl⟩⟩, (Prog.returns_ret _).mpr ⟨rfl, rfl⟩⟩

theorem returns_dispatchPress_kitchen {ticketId : String} {event : KitchenEvent}
    {result : KitchenResult} (hrole : kitchenRoleEvents role event = true)
    (h : (transitionTicket ticketId event).Returns E₀ s result s') :
    (dispatchPress role ⟨.kitchen, ticketId, event.value⟩).Returns E₀ s () s' := by
  simp only [dispatchPress, dispatchKitchen, KitchenEvent.ofValue_value, hrole, if_true,
    Prog.bind_eq, Prog.returns_andThen]
  exact ⟨_, _, ⟨_, _, h, (Prog.returns_ret _).mpr ⟨rfl, rfl⟩⟩, (Prog.returns_ret _).mpr ⟨rfl, rfl⟩⟩

/-- A press of an event that the role lacks is dispatched to nothing. -/
theorem returns_dispatchPress_denied {press : Press} (horder : press.kind = .order →
      ∃ event, OrderEvent.ofValue press.event = some event ∧ orderRoleEvents role event = false)
    (hkitchen : press.kind = .kitchen →
      ∃ event, KitchenEvent.ofValue press.event = some event ∧
        kitchenRoleEvents role event = false) :
    (dispatchPress role press).Returns E₀ s () s := by
  cases hkind : press.kind with
  | order =>
      obtain ⟨event, hev, hrole⟩ := horder hkind
      simp [dispatchPress, hkind, dispatchOrder, hev, hrole]
  | kitchen =>
      obtain ⟨event, hev, hrole⟩ := hkitchen hkind
      simp [dispatchPress, hkind, dispatchKitchen, hev, hrole]

end Dispatch

/-- A press on an order, alone: where the card of the sender shows the button of the event, the
order is moved along it, and else nothing changes. -/
theorem order_press_moves_iff_shown (hset : cfg.maxWebhookSecret ≠ "")
    (hascii : cfg.maxWebhookSecret.toList.all (fun c => c.toNat < 128) = true)
    (hfits : ∀ w, E₀.fits w = true) (hbig : IsBigint sender)
    (hm : staffByMaxId d sender = some member) {row : Order}
    (hrow : d.orders.find row.id = some row) {event : OrderEvent}
    (ticket : Option (String × KitchenState)) :
    ∃ d', (maxWebhook cfg (some cfg.maxWebhookSecret)
        (some (pressUpdate sender (orderButton row.id.text event)))).Returns E₀
          (Quiet.start d m) 200
          (Quiet.start d' m) ∧
      (orderButton row.id.text event ∈ roleButtons member.role row.id.text row.state ticket →
        ∃ state trace, orderTransitions row.state event = some state ∧
          d' = movedOrder d row state trace) ∧
      (orderButton row.id.text event ∉ roleButtons member.role row.id.text row.state ticket →
        d' = d) := by
  have hpress : pressOf cfg (pressCallback sender (buttonPayload "order" row.id.text event.value)) =
      .ok (some ⟨.order, row.id.text, event.value⟩) :=
    pressOf_pressCallback sender (by decide) rfl event.isPlainText_value event.value_ne_empty
  have hdone : ∀ d', (dispatchPress member.role ⟨.order, row.id.text, event.value⟩).Returns E₀
      (Quiet.start d m) () (Quiet.start d' m) → _ := fun d' =>
    returns_maxWebhook hset hascii (callbackOf_pressUpdate sender (orderButton row.id.text event))
      hbig hm hpress
  rw [orderButton_mem_roleButtons, mem_allowedOrderEvents, mem_offeredOrderEvents]
  cases hrole : orderRoleEvents member.role event with
  | false =>
      refine ⟨d, hdone d ?_, fun h => absurd h.2 (by simp), fun _ => rfl⟩
      exact returns_dispatchPress_denied (fun _ => ⟨event, event.ofValue_value, hrole⟩) nofun
  | true =>
      cases htr : orderTransitions row.state event with
      | none =>
          have hstay : (transitionOrder row.id.text event).Returns E₀ (Quiet.start d m) _
              (Quiet.start d m) := returns_transitionOrder_none hrow htr
          exact ⟨d, hdone d (returns_dispatchPress_order hrole hstay),
            fun h => absurd h.1 (by simp),
            fun _ => rfl⟩
      | some state =>
          have hev : event ≠ .START_COOKING := by
            rintro rfl
            cases member.role <;> simp [orderRoleEvents] at hrole
          have hmoved := returns_transitionOrder (m := m) hfits hrow hev htr
          generalize aloneTrace E₀ d row state = trace at hmoved
          exact ⟨_, hdone _ (returns_dispatchPress_order hrole hmoved),
            fun _ => ⟨state, trace, rfl, rfl⟩, fun h => absurd ⟨rfl, rfl⟩ h⟩

/-- A press on a ticket, alone: where the card of the sender shows the button of the event, the
ticket is moved along it and a hand-off takes a cooked order on, and else nothing changes. -/
theorem ticket_press_moves_iff_shown (hset : cfg.maxWebhookSecret ≠ "")
    (hascii : cfg.maxWebhookSecret.toList.all (fun c => c.toNat < 128) = true)
    (hfits : ∀ w, E₀.fits w = true) (hbig : IsBigint sender)
    (hm : staffByMaxId d sender = some member) {ticket : KitchenTicket} {row : Order}
    (hticket : d.kitchenTickets.find ticket.id = some ticket)
    (hrow : d.orders.find ticket.orderId = some row) {event : KitchenEvent} :
    ∃ d', (maxWebhook cfg (some cfg.maxWebhookSecret)
        (some (pressUpdate sender (kitchenButton ticket.id.text event)))).Returns E₀
          (Quiet.start d m) 200 (Quiet.start d' m) ∧
      (kitchenButton ticket.id.text event ∈ roleButtons member.role row.id.text row.state
          (some (ticket.id.text, ticket.state)) →
        ∃ state, kitchenTransitions ticket.state event = some state ∧
          TicketDone (movedTicket d ticket state) row event d') ∧
      (kitchenButton ticket.id.text event ∉ roleButtons member.role row.id.text row.state
          (some (ticket.id.text, ticket.state)) → d' = d) := by
  have hpress : pressOf cfg
      (pressCallback sender (buttonPayload "kitchen" ticket.id.text event.value)) =
        .ok (some ⟨.kitchen, ticket.id.text, event.value⟩) :=
    pressOf_pressCallback sender (by decide) rfl event.isPlainText_value event.value_ne_empty
  have hdone : ∀ d', (dispatchPress member.role ⟨.kitchen, ticket.id.text, event.value⟩).Returns
      E₀ (Quiet.start d m) () (Quiet.start d' m) → _ := fun d' =>
    returns_maxWebhook hset hascii
      (callbackOf_pressUpdate sender (kitchenButton ticket.id.text event)) hbig hm hpress
  rw [kitchenButton_mem_roleButtons, mem_allowedKitchenEvents]
  cases hrole : kitchenRoleEvents member.role event with
  | false =>
      refine ⟨d, hdone d ?_, fun h => absurd h.2 (by simp), fun _ => rfl⟩
      exact returns_dispatchPress_denied nofun fun _ => ⟨event, event.ofValue_value, hrole⟩
  | true =>
      cases htr : kitchenTransitions ticket.state event with
      | none =>
          have hstay : (transitionTicket ticket.id.text event).Returns E₀ (Quiet.start d m) _
              (Quiet.start d m) := returns_transitionTicket_none hticket htr
          exact ⟨d, hdone d (returns_dispatchPress_kitchen hrole hstay),
            fun h => absurd h.1 (by simp), fun _ => rfl⟩
      | some state =>
          obtain ⟨d', hmoved, hafter⟩ := returns_transitionTicket (m := m) hfits hticket hrow htr
          exact ⟨d', hdone d' (returns_dispatchPress_kitchen hrole hmoved),
            fun _ => ⟨state, rfl, hafter⟩, fun h => absurd ⟨rfl, rfl⟩ h⟩

end Presses

/-- A shop with one order, one ticket and one member of the staff. -/
def pressShop (state : OrderState) (kitchenState : KitchenState) (role : StaffRole) : Database :=
  withStaff (withTickets (databaseWith [sampleOrder 1 state "cash" []] []) [⟨2, 1, kitchenState⟩])
    [sampleMember 3 role 42]

/-- A courier takes an order that is packed. -/
theorem order_press_moves_iff_shown_courier :
    ∃ d', (maxWebhook sampleSettings (some "secret")
        (some (pressUpdate 42 (orderButton (Uuid.text 1) .ASSIGN_COURIER)))).Returns (numbered 5)
          (Quiet.start (pressShop .PACKING .HANDED_OFF .courier) {}) 200 (Quiet.start d' {}) ∧
      ∃ row, d'.orders.find 1 = some row ∧ row.state = .COURIER_ASSIGNED := by
  obtain ⟨d', hreturns, hshown, -⟩ := @order_press_moves_iff_shown
    sampleSettings (numbered 5)
    (pressShop .PACKING .HANDED_OFF .courier) {} 42 (sampleMember 3 .courier 42)
    (by decide) (by decide) (fun _ => rfl) (by decide) rfl (sampleOrder 1 .PACKING "cash" []) rfl
    .ASSIGN_COURIER none
  obtain ⟨state, trace, htr, rfl⟩ := hshown (by decide +kernel)
  obtain rfl : state = .COURIER_ASSIGNED := (Option.some.inj htr).symm
  exact ⟨_, hreturns, _, Table.find_put_self _ _, rfl⟩

/-- The kitchen hands a pizza over that its customer picks up. -/
theorem ticket_press_moves_iff_shown_pickup :
    ∃ d', (maxWebhook sampleSettings (some "secret")
        (some (pressUpdate 42 (kitchenButton (Uuid.text 2) .HAND_OFF)))).Returns (numbered 5)
          (Quiet.start (pressShop .COOKING .READY .kitchen) {}) 200 (Quiet.start d' {}) ∧
      ∃ row, d'.orders.find 1 = some row ∧ row.state = .CLOSED := by
  obtain ⟨d', hreturns, hshown, -⟩ := @ticket_press_moves_iff_shown
    sampleSettings (numbered 5)
    (pressShop .COOKING .READY .kitchen) {} 42 (sampleMember 3 .kitchen 42)
    (by decide) (by decide) (fun _ => rfl) (by decide) rfl ⟨2, 1, .READY⟩
    (sampleOrder 1 .COOKING "cash" []) rfl rfl .HAND_OFF
  obtain ⟨state, -, hafter⟩ := hshown (by decide +kernel)
  obtain ⟨trace, rfl⟩ := hafter.1 ⟨rfl, rfl⟩
  exact ⟨_, hreturns, _, Table.find_put_self _ _, rfl⟩

end Sieshka
