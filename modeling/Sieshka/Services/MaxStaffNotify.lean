import Sieshka.Services.MaxClient

/-!
# Staff cards

The cards that tell the staff in MAX about orders and kitchen tickets: their texts, their
buttons, and how they reach the recipients.

## Implementation notes

The log is left out. Rows are listed in the order of their insertion, so the latest ticket of
an order is its last one. The services and clients that tests inject are the real ones here.
-/

namespace Sieshka

open Transactions

/-! ## Tables of texts and buttons -/

/-- `_KITCHEN_STATE_TEXT`. -/
def kitchenStateText : KitchenState → String
  | .NEW => "🆕 Новый тикет"
  | .QUEUED => "📋 В очереди"
  | .PREPARING => "🍳 Готовится"
  | .READY => "✅ Готово к выдаче"
  | .HANDED_OFF => "📤 Передано"

/-- `_KITCHEN_EVENT_BUTTON`. -/
def kitchenEventButton : KitchenEvent → String × String
  | .QUEUE => ("📋 В очередь", "default")
  | .START_PREP => ("🍳 Начать готовить", "default")
  | .MARK_READY => ("✅ Готово", "positive")
  | .HAND_OFF => ("📤 Передать", "positive")

/-- `_ORDER_STATE_TEXT.get(state, state.value)`. -/
def orderStateText : OrderState → String
  | .DRAFT => OrderState.DRAFT.value
  | .CONFIRMED => "🆕 Новый заказ"
  | .PAYMENT_PENDING => "🆕 Новый заказ (ожидает оплаты)"
  | .PAID => "🆕 Новый заказ (оплачен)"
  | .COOKING => "🍳 Готовится"
  | .PACKING => "📦 Упаковка"
  | .COURIER_ASSIGNED => "🛵 Курьер назначен"
  | .DELIVERING => "🚗 В пути"
  | .DELIVERED => "✅ Доставлено"
  | .CLOSED => "🏁 Завершён"
  | .CANCELLED => "❌ Отменён"

/-- `_ORDER_EVENT_BUTTON.get(event, (event.value, "default"))`. -/
def orderEventButton : OrderEvent → String × String
  | .ASSIGN_COURIER => ("🛵 Принять заказ", "positive")
  | .PICKUP => ("📦 Забрал", "default")
  | .DELIVER => ("✅ Доставил", "positive")
  | .CANCEL => ("❌ Отменить", "negative")
  | event => (event.value, "default")

/-- `_ORDER_ROLE_EVENTS` of the cards. -/
def offeredOrderEvents : StaffRole → List OrderEvent
  | .courier => [.ASSIGN_COURIER, .PICKUP, .DELIVER]
  | .admin => [.CANCEL]
  | .staff => [.ASSIGN_COURIER, .PICKUP, .DELIVER, .CANCEL]
  | .kitchen => []

/-- `_PAID_OR_LATER_STATES`. -/
def paidOrLaterStates : List OrderState :=
  [.PAID, .COOKING, .PACKING, .COURIER_ASSIGNED, .DELIVERING, .DELIVERED, .CLOSED]

/-- The keys of `ORDER_TRANSITIONS[state]`, in their order. -/
def allowedOrderEvents : OrderState → List OrderEvent
  | .DRAFT => [.CONFIRM, .CANCEL]
  | .CONFIRMED => [.REQUEST_PAYMENT, .START_COOKING, .CANCEL]
  | .PAYMENT_PENDING => [.PAYMENT_CONFIRMED, .PAYMENT_FAILED, .CANCEL]
  | .PAID => [.START_COOKING, .CANCEL]
  | .COOKING => [.START_PACKING]
  | .PACKING => [.ASSIGN_COURIER, .CLOSE]
  | .COURIER_ASSIGNED => [.PICKUP]
  | .DELIVERING => [.DELIVER]
  | .DELIVERED => [.CLOSE]
  | .CLOSED => []
  | .CANCELLED => []

/-- The keys of `KITCHEN_TRANSITIONS[state]`, in their order. -/
def allowedKitchenEvents : KitchenState → List KitchenEvent
  | .NEW => [.QUEUE]
  | .QUEUED => [.START_PREP]
  | .PREPARING => [.MARK_READY]
  | .READY => [.HAND_OFF]
  | .HANDED_OFF => []

/-! ## Keyboards -/

/-- A character in a string of `json.dumps(..., ensure_ascii=False)`. -/
def dumpsCharacter (c : Char) : List Char :=
  if c = '"' then ['\\', '"']
  else if c = '\\' then ['\\', '\\']
  else if c = '\n' then ['\\', 'n']
  else if c = '\r' then ['\\', 'r']
  else if c = '\t' then ['\\', 't']
  else if c.toNat = 0x08 then ['\\', 'b']
  else if c.toNat = 0x0c then ['\\', 'f']
  else if c.toNat < 0x20 then '\\' :: 'u' :: hexDigits 4 c.toNat
  else [c]

/-- `json.dumps(text, ensure_ascii=False)`. -/
def dumpsText (text : String) : String :=
  "\"" ++ String.ofList (text.toList.flatMap dumpsCharacter) ++ "\""

/-- `json.dumps({"kind": kind, "id": id, "event": event}, ensure_ascii=False)`. -/
def buttonPayload (kind id event : String) : String :=
  "\x7b\"kind\": " ++ dumpsText kind ++ ", \"id\": " ++ dumpsText id ++
    ", \"event\": " ++ dumpsText event ++ "\x7d"

/-- One inline keyboard of one row, or nothing. -/
def keyboardOf (row : List Button) : List InlineKeyboard :=
  if row.isEmpty then [] else [⟨[row]⟩]

/-- A button of a kitchen ticket. -/
def kitchenButton (ticketId : String) (event : KitchenEvent) : Button where
  text := (kitchenEventButton event).1
  intent := (kitchenEventButton event).2
  payload := buttonPayload "kitchen" ticketId event.value

/-- `_kitchen_keyboard`. -/
def kitchenKeyboard (ticketId : String) (state : KitchenState) : List InlineKeyboard :=
  keyboardOf ((allowedKitchenEvents state).map (kitchenButton ticketId))

/-- A button of an order. -/
def orderButton (orderId : String) (event : OrderEvent) : Button where
  text := (orderEventButton event).1
  intent := (orderEventButton event).2
  payload := buttonPayload "order" orderId event.value

/-- `_order_keyboard`. -/
def orderKeyboard (orderId : String) (state : OrderState) (role : StaffRole) :
    List InlineKeyboard :=
  keyboardOf (((allowedOrderEvents state).filter fun event => event ∈ offeredOrderEvents role).map
    (orderButton orderId))

/-- `_combine_keyboards`. -/
def combineKeyboards (keyboards : List (List InlineKeyboard)) : List InlineKeyboard :=
  let rows := keyboards.flatMap fun keyboard => keyboard.flatMap InlineKeyboard.buttons
  if rows.isEmpty then [] else [⟨rows⟩]

/-! ## Texts -/

/-- `order_id[:8]`. -/
def shortId (orderId : String) : String := String.ofList (orderId.toList.take 8)

/-- An item in the composition, when it is a dictionary. -/
def itemText (cfg : Settings) : Json → Option String
  | .obj fields => some (jsonText cfg (Json.get fields "name" (.str "?")) ++ " x" ++
      jsonText cfg (Json.get fields "qty" (.str "?")))
  | _ => none

/-- A line that is left out when its text is empty. -/
def detailLine (sign text : String) : List String := if text = "" then [] else [sign ++ text]

/-- The line about the payment. -/
def paymentLine (row : Order) : List String :=
  if row.paymentMethod = some "yookassa_sbp" ∨ row.paymentMethod = some "yookassa_sberbank" then
    let methodLabel := if row.paymentMethod = some "yookassa_sbp" then "СБП" else "SberPay"
    let paid := decide (row.state ∈ paidOrLaterStates)
    ["💳 " ++ methodLabel ++ " — " ++ (if paid then "оплачено" else "ожидает оплаты")]
  else if row.paymentMethod = some "cash" then ["💵 Наличные — при получении"]
  else []

/-- The part of `_fetch_order_details` after the row is found. -/
def orderDetails (cfg : Settings) (row : Order) (customer : Option Customer) :
    Except PyError String := do
  let items ← row.items.iter
  let composition := String.intercalate ", " (items.filterMap (itemText cfg))
  let lines := detailLine "🧺 " composition ++ detailLine "📍 " row.deliveryAddress ++
    detailLine "📞 " ((customer.map Customer.phone).getD "") ++
    detailLine "💬 " (row.comment.getD "") ++ paymentLine row
  return if lines.isEmpty then "" else "\n" ++ String.intercalate "\n" lines

/-- `kitchen_line`. -/
def kitchenLine : Option KitchenState → String
  | none => ""
  | some state => "\n🍳 Кухня: " ++ kitchenStateText state

/-- The text of a kitchen card. -/
def kitchenCardText (orderId : String) (state : KitchenState) (details : String) : String :=
  "🍳 Заказ " ++ shortId orderId ++ "\n" ++ kitchenStateText state ++ details

/-- The text of a card about an order. -/
def orderCardText (sign orderId : String) (state : OrderState) (kitchenState : Option KitchenState)
    (details : String) : String :=
  sign ++ " Заказ " ++ shortId orderId ++ "\n" ++ orderStateText state ++
    kitchenLine kitchenState ++ details

/-! ## Lookups -/

/-- `_fetch_order_details`: a query that fails, or finds no order, gives no details. -/
def fetchOrderDetails (cfg : CardSettings) (orderId : String) : CardAsync String :=
  match cfg.uuidParam orderId with
  | none => return ""
  | some id => do
      let found ← (readShop fun d =>
        (d.orders.find id).map fun row => (row, customerOf d row)).andThen .ret fun _ => .ret none
      match found with
      | none => return ""
      | some (row, customer) =>
          match orderDetails cfg.toSettings row customer with
          | .ok details => return details
          | .error e => throw e

/-- `_fetch_order_state`. -/
def fetchOrderState (cfg : CardSettings) (orderId : String) : CardAsync (Option OrderState) :=
  match cfg.uuidParam orderId with
  | none => return none
  | some id =>
      (readShop fun d => (d.orders.find id).map Order.state).andThen .ret fun _ => .ret none

/-- The latest ticket of an order. -/
def latestTicket (id : Uuid) (d : Database) : Option (String × KitchenState) :=
  (d.kitchenTickets.rows.filter fun ticket => ticket.orderId = id).getLast?.map fun ticket =>
    (ticket.id.text, ticket.state)

/-- `_fetch_kitchen_ticket_for_order`. -/
def fetchKitchenTicketForOrder (cfg : CardSettings) (orderId : String) :
    CardAsync (Option (String × KitchenState)) :=
  match cfg.uuidParam orderId with
  | none => return none
  | some id => (readShop (latestTicket id)).andThen .ret fun _ => .ret none

/-- The active members of a role. -/
def activeByRole (role : StaffRole) (d : Database) : List StaffMember :=
  d.staff.rows.filter fun member => member.role = role && member.active

/-- `StaffService.list_active_by_role`. -/
def listActiveByRole (role : StaffRole) : CardAsync (List StaffMember) :=
  readShop (activeByRole role)

/-! ## Sending -/

/-- The edit of the tracked message, when there is one. -/
def editTracked (cfg : CardSettings) (text : String) (keyboard : List InlineKeyboard) :
    Option String → CardAsync Bool
  | none => return false
  | some messageId => editMessage cfg messageId text keyboard

/-- A new message is sent, and tracked when MAX answers with its id. -/
def sendAndTrack (cfg : CardSettings) (key : CardKey) (text : String)
    (keyboard : List InlineKeyboard) : CardAsync Unit := do
  match ← sendMessage cfg key key.maxUserId text keyboard with
  | none => return ()
  | some messageId => saveMessageRef key messageId

/-- `_send_or_edit`: the tracked message is edited, else a new one is sent and tracked. -/
def sendOrEdit (cfg : CardSettings) (key : CardKey) (text : String)
    (keyboard : List InlineKeyboard) : CardAsync Unit := do
  let existing ← getMessageRef key
  let edited ← editTracked cfg text keyboard existing
  if edited then return () else sendAndTrack cfg key text keyboard

/-- The loop over the recipients: what one of them raises is only logged. -/
def sendToAll (cfg : CardSettings) (entityKind entityId text : String)
    (keyboard : List InlineKeyboard) : List StaffMember → CardAsync Unit
  | [] => return ()
  | member :: rest =>
      match member.maxUserId with
      | none => sendToAll cfg entityKind entityId text keyboard rest
      | some maxUserId => do
          (sendOrEdit cfg ⟨entityKind, entityId, maxUserId⟩ text keyboard).andThen .ret
            fun _ => .ret ()
          sendToAll cfg entityKind entityId text keyboard rest

/-- The end of each notification: a card for every active member of a role. -/
def notifyRole (cfg : CardSettings) (role : StaffRole) (entityKind entityId text : String)
    (keyboard : List InlineKeyboard) : CardAsync Unit := do
  let recipients ← (listActiveByRole role).andThen (fun members => .ret (some members))
    fun _ => .ret none
  match recipients with
  | none => return ()
  | some members => sendToAll cfg entityKind entityId text keyboard members

/-! ## Notifications -/

/-- `notify_kitchen_ticket_state`. -/
def notifyKitchenTicketState (cfg : CardSettings) (ticketId orderId : String)
    (state : KitchenState) : CardAsync Unit := do
  let details ← fetchOrderDetails cfg orderId
  notifyRole cfg .kitchen "kitchen" ticketId (kitchenCardText orderId state details)
    (kitchenKeyboard ticketId state)

/-- `notify_courier_order_state`. -/
def notifyCourierOrderState (cfg : CardSettings) (orderId : String) (state : OrderState) :
    CardAsync Unit := do
  let details ← fetchOrderDetails cfg orderId
  notifyRole cfg .courier "order" orderId (orderCardText "🚗" orderId state none details)
    (orderKeyboard orderId state .courier)

/-- The ticket state a card shows: the one that is given, or the one that is found. -/
def resolveKitchenState (cfg : CardSettings) (orderId : String) :
    Option KitchenState → CardAsync (Option KitchenState)
  | some state => return some state
  | none => do
      let ticket ← fetchKitchenTicketForOrder cfg orderId
      return ticket.map Prod.snd

/-- `_build_admin_card`: the text; the keyboard needs no lookup. -/
def buildAdminCard (cfg : CardSettings) (orderId : String) (orderState : OrderState)
    (kitchenState : Option KitchenState) : CardAsync String := do
  let details ← fetchOrderDetails cfg orderId
  let resolved ← resolveKitchenState cfg orderId kitchenState
  return orderCardText "🧾" orderId orderState resolved details

/-- The card of `notify_admin_order_state` and `notify_admin_kitchen_ticket_state`. -/
def notifyAdminCard (cfg : CardSettings) (orderId : String) (orderState : OrderState)
    (kitchenState : Option KitchenState) : CardAsync Unit := do
  let text ← buildAdminCard cfg orderId orderState kitchenState
  notifyRole cfg .admin "order" orderId text (orderKeyboard orderId orderState .admin)

/-- `notify_admin_order_state`. -/
def notifyAdminOrderState (cfg : CardSettings) (orderId : String) (state : OrderState) :
    CardAsync Unit :=
  notifyAdminCard cfg orderId state none

/-- `notify_admin_kitchen_ticket_state`. -/
def notifyAdminKitchenTicketState (cfg : CardSettings) (orderId : String)
    (state : KitchenState) : CardAsync Unit := do
  match ← fetchOrderState cfg orderId with
  | none => return ()
  | some orderState => notifyAdminCard cfg orderId orderState (some state)

/-- `_build_staff_card`: the keyboard. -/
def staffKeyboard (orderId : String) (orderState : OrderState)
    (ticket : Option (String × KitchenState)) : List InlineKeyboard :=
  combineKeyboards
    [match ticket with
      | some (ticketId, state) => kitchenKeyboard ticketId state
      | none => [],
     orderKeyboard orderId orderState .staff]

/-- The order state a staff card shows: the one that is given, or the one that is found. -/
def resolveOrderState (cfg : CardSettings) (orderId : String) :
    Option OrderState → CardAsync (Option OrderState)
  | some state => return some state
  | none => fetchOrderState cfg orderId

/-- The ticket of a staff card: the one that is given, or the one that is found. -/
def resolveTicket (cfg : CardSettings) (orderId : String) :
    Option (String × KitchenState) → CardAsync (Option (String × KitchenState))
  | some ticket => return some ticket
  | none => fetchKitchenTicketForOrder cfg orderId

/-- `notify_staff_card`; its callers give a ticket with its state or neither. -/
def notifyStaffCard (cfg : CardSettings) (orderId : String) (orderState : Option OrderState)
    (ticket : Option (String × KitchenState)) : CardAsync Unit := do
  match ← resolveOrderState cfg orderId orderState with
  | none => return ()
  | some state => do
      let ticket ← resolveTicket cfg orderId ticket
      let details ← fetchOrderDetails cfg orderId
      notifyRole cfg .staff "order" orderId
        (orderCardText "👤" orderId state (ticket.map Prod.snd) details)
        (staffKeyboard orderId state ticket)

/-- `notify_staff_new_kitchen_ticket`: what a notification raises is only logged. -/
def notifyStaffNewKitchenTicket (cfg : CardSettings) (orderId ticketId : String) :
    CardAsync Unit := do
  (notifyKitchenTicketState cfg ticketId orderId .NEW).andThen .ret fun _ => .ret ()
  (notifyAdminKitchenTicketState cfg orderId .NEW).andThen .ret fun _ => .ret ()
  (notifyStaffCard cfg orderId none (some (ticketId, .NEW))).andThen .ret fun _ => .ret ()

/-! ## Calls -/

/-- A notification, as a service or the webhook starts it. -/
inductive CardCall
  | kitchenTicketState (ticketId orderId : String) (state : KitchenState)
  | courierOrderState (orderId : String) (state : OrderState)
  | adminOrderState (orderId : String) (state : OrderState)
  | adminKitchenTicketState (orderId : String) (state : KitchenState)
  | staffCard (orderId : String) (orderState : Option OrderState)
      (ticket : Option (String × KitchenState))
  | staffNewKitchenTicket (orderId ticketId : String)

/-- The program of a notification. -/
def cardBody (cfg : CardSettings) : CardCall → CardAsync Unit
  | .kitchenTicketState ticketId orderId state =>
      notifyKitchenTicketState cfg ticketId orderId state
  | .courierOrderState orderId state => notifyCourierOrderState cfg orderId state
  | .adminOrderState orderId state => notifyAdminOrderState cfg orderId state
  | .adminKitchenTicketState orderId state => notifyAdminKitchenTicketState cfg orderId state
  | .staffCard orderId orderState ticket => notifyStaffCard cfg orderId orderState ticket
  | .staffNewKitchenTicket orderId ticketId => notifyStaffNewKitchenTicket cfg orderId ticketId

/-- Any number of notifications at once, of a shop whose databases all meet `P`. -/
def cards (cfg : CardSettings) (P : Database → Prop) :
    System CardCall RefDatabase MessageRef CardKey MaxWorld PyError Unit where
  body := cardBody cfg
  restart := id
  Move := MaxMove P
  move := maxMove

end Sieshka
