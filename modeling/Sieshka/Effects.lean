import Sieshka.Evolution
import Sieshka.Transactions.Runs
import Sieshka.Transactions.Rules

/-!
# What a commit of a call can do

Every way in which a call changes the shared state, with what the call had read
before. All invariants of the shop are derived from this list.

## Implementation notes

The effects are stated over what a run grants its calls (`A`) and over what the
others do meanwhile (`R`): a read without a lock is recorded as an earlier
state of the same call, from which the others have reached the present one.
-/

namespace Sieshka

open Transactions
open Relation (ReflTransGen)

abbrev ShopContract := Contract Call Database Write Lock Memory PyError Answer

/-- Where one call stands. -/
abbrev CallAt := CallState Database Write Lock Memory

abbrev ShopConfig := Config Call Database Write Lock Memory PyError Answer

abbrev ShopThread := Thread Call Database Write Lock Memory PyError Answer

/-- The commits of one call. -/
abbrev Past := List (Database × Database)

/-- The order is stored in the given state. -/
def StateAt (d : Database) (o : Uuid) (st : OrderState) : Prop :=
  ∃ row, d.orders.find o = some row ∧ row.state = st

/-- The call has inserted the order. -/
def Placed (past : Past) (o : Uuid) : Prop :=
  ∃ p ∈ past, p.1.orders.find o = none ∧ (p.2.orders.find o).isSome = true

/-- The call has moved the order from `PAYMENT_PENDING` to `PAID`. -/
def PaidIn (past : Past) (o : Uuid) : Prop :=
  ∃ p ∈ past, StateAt p.1 o .PAYMENT_PENDING ∧ StateAt p.2 o .PAID

/-- The call has inserted the idempotency key. -/
def KeyRecorded (past : Past) (key : String) : Prop :=
  ∃ p ∈ past, p.1.idempotencyKeys.find key = none ∧ (p.2.idempotencyKeys.find key).isSome = true

/-- What `_recover_idempotent_result` makes of what is written under a key. -/
def recovered (d : Database) (key : String) : Except PyError (Option CheckoutResponse) :=
  recoverIdempotentResult ((d.idempotencyKeys.find key).map IdempotencyKey.payload)

/-- The answer to a checkout with the key names an order and has what the customer needs to
finish it: nothing more where the order is paid in cash, and otherwise the token and the page
of a payment requested at the provider for this order under this key. -/
inductive Completes (key : String) (s : State) : CheckoutResponse → Prop
  | cash (row : Order) (hrow : s.1.orders.find row.id = some row)
      (hcash : row.paymentMethod = some "cash") : Completes key s { orderId := row.id.text }
  | card (row : Order) (remote : RemotePayment) (hrow : s.1.orders.find row.id = some row)
      (hcard : row.paymentMethod ≠ some "cash")
      (hremote : findRemote s.2.provider remote.id = some remote)
      (horder : ("order_id", row.id.text) ∈ remote.metadata) (hsent : remote.sentFor = some key) :
      Completes key s { orderId := row.id.text
                        confirmationToken := nonEmpty remote.confirmationToken
                        confirmationUrl := nonEmpty remote.confirmationUrl }

theorem Completes.later {key : String} {s s' : State} {response : CheckoutResponse}
    (h : Completes key s response) (hs : Evolves s s') : Completes key s' response := by
  cases h with
  | cash row hrow hcash =>
      obtain ⟨row', hrow', hlater⟩ := hs.orders _ _ hrow
      have hid : row'.id = row.id := by rw [hlater.same]
      rw [← hid] at hrow' ⊢
      exact .cash row' hrow' (by rw [hlater.same]; exact hcash)
  | card row remote hrow hcard hremote horder hsent =>
      obtain ⟨row', hrow', hlater⟩ := hs.orders _ _ hrow
      obtain ⟨remote', hremote', hchanged⟩ := hs.provider _ _ hremote
      have hid : row'.id = row.id := by rw [hlater.same]
      have hrid : remote'.id = remote.id := by rw [hchanged.same]; rfl
      have htoken : remote'.confirmationToken = remote.confirmationToken := by
        rw [hchanged.same]; rfl
      have hurl : remote'.confirmationUrl = remote.confirmationUrl := by rw [hchanged.same]; rfl
      rw [← hid] at hrow' ⊢
      rw [← hrid] at hremote'
      rw [← htoken, ← hurl]
      refine .card row' remote' hrow' (by rw [hlater.same]; exact hcard) hremote' ?_ ?_
      · rw [hid, hchanged.same]
        exact horder
      · rw [hchanged.same]
        exact hsent

/-- A restart of the process loses no payment at the provider. -/
theorem Completes.restart {key : String} {d : Database} {m : Memory} {response : CheckoutResponse}
    (h : Completes key (d, m) response) : Completes key (d, restart m) response := by
  cases h with
  | cash row hrow hcash => exact .cash row hrow hcash
  | card row remote hrow hcard hremote horder hsent =>
      exact .card row remote hrow hcard hremote horder hsent

/-- The payload of a key whose checkout has answered. -/
def answeredPayload (body : CheckoutRequest) (id : Uuid) (rest : List (String × Json)) : Json :=
  .obj (checkoutPayload body ++ ("order_id", .str id.text) :: rest)

/-- The sku `reserve_inventory_items` reads off an order item and its product. -/
def skuOf (products : Table Product.id) (sku productId : Json) : Except PyError Json :=
  if sku.truthy then .ok sku
  else if productId.truthy then
    productId.toUuid.map fun id => .str (((products.find id).bind Product.sku).getD "")
  else .ok sku

/-- The commit hands off the ticket, which is one of the order. -/
def HandsOff (p : Database × Database) (ticketId : String) (o : Uuid) : Prop :=
  ∃ ticket : KitchenTicket, readUuid ticketId = some ticket.id ∧
    p.1.kitchenTickets.find ticket.id = some ticket ∧ ticket.orderId = o ∧
    ticket.state = .READY ∧
    p.2.kitchenTickets = p.1.kitchenTickets.put { ticket with state := .HANDED_OFF }

/-- What follows the commit of a hand-off: the order is packed, and closed when
it is picked up. -/
def MayAdvance (past : Past) (ticketId : String) (kitchenEvent : KitchenEvent) (row : Order)
    (event : OrderEvent) : Prop :=
  kitchenEvent = .HAND_OFF ∧ ∃ p, HandsOff p ticketId row.id ∧
    (event = .START_PACKING ∧ past = [p] ∨
      event = .CLOSE ∧ row.deliveryMode = some "pickup" ∧
        ∃ q, past = [p, q] ∧ StateAt q.1 row.id .COOKING ∧ StateAt q.2 row.id .PACKING)

/-- What `reserve_inventory_items` takes an order item for: nothing, or a number
of pieces of one sku. -/
def lineOf (products : Table Product.id) (item : Json) : Except PyError (Option (String × Int)) :=
  match itemFields item with
  | .error e => .error e
  | .ok (sku, qty, productId) =>
      match skuOf products sku productId with
      | .error e => .error e
      | .ok sku =>
          if sku.truthy then
            match sku with
            | .str sku => .ok (some (sku, qty))
            | _ => .error .dbapiError
          else .ok none

/-! ## Stock -/

/-- The database after a sale of `qty` pieces. -/
def Database.sell (d : Database) (orderId : String) (stock : Inventory) (qty : Int) (id : Uuid) :
    Database :=
  { d with
    inventory := d.inventory.put { stock with quantity := stock.quantity - qty }
    inventoryMovements := d.inventoryMovements.put
      { id, sku := stock.sku, delta := -qty, reason := .SALE, sourceType := some "order"
        sourceId := some orderId, belowZero := stock.quantity - qty < 0 } }

/-- The sales of one order, line by line. -/
inductive Sells (orderId : String) : List (String × Int) → Database → Database → Prop
  | nil (d : Database) : Sells orderId [] d d
  | snoc {lines d d₁ stock qty id} (h : Sells orderId lines d d₁)
      (hs : d₁.inventory.find stock.sku = some stock)
      (hm : d₁.inventoryMovements.find id = none) :
      Sells orderId (lines ++ [(stock.sku, qty)]) d (d₁.sell orderId stock qty id)

/-- One change of the stock: a quantity with its movement, a recomputed state,
or a new row without stock. -/
inductive StockStep (d : Database) : Database → Prop
  | change (stock : Inventory) (m : InventoryMovement)
      (hs : d.inventory.find stock.sku = some stock)
      (hm : d.inventoryMovements.find m.id = none) (hsku : m.sku = stock.sku)
      (hsale : m.reason = .SALE → (m.belowZero = true ↔ stock.quantity + m.delta < 0)) :
      StockStep d { d with
        inventory := d.inventory.put { stock with quantity := stock.quantity + m.delta }
        inventoryMovements := d.inventoryMovements.put m }
  | restate (stock : Inventory) (st : InventoryState)
      (hs : d.inventory.find stock.sku = some stock) :
      StockStep d { d with inventory := d.inventory.put { stock with state := st } }
  | create (row : Inventory) (habs : d.inventory.find row.sku = none) (hq : row.quantity = 0) :
      StockStep d { d with inventory := d.inventory.put row }

/-- Any number of changes of the stock. -/
abbrev StockSteps : Database → Database → Prop := ReflTransGen StockStep

/-- Rows without stock have been added to the inventory, and nothing else. -/
def OnlyNewStock (d d' : Database) : Prop :=
  ∀ sku, d'.inventory.find sku = d.inventory.find sku ∨
    ∃ row, d'.inventory.find sku = some row ∧ row.quantity = 0 ∧ row.state = .OUT_OF_STOCK

/-- What the calls that manage the stock do to the inventory. -/
def StockDone (c : Call) (d d' : Database) : Prop :=
  match c with
  | .syncFromMenu => OnlyNewStock d d'
  | .setQuantity sku quantity => ∃ stock, d.inventory.find sku = some stock ∧
      d'.inventory = d.inventory.put
        { stock with quantity := quantity, state := stateOfQuantity quantity }
  | .applyRestock command => ∃ sku quantity stock,
      requiredApplyFields command = some (sku, quantity) ∧ d.inventory.find sku = some stock ∧
      d'.inventory = d.inventory.put { stock with quantity := stock.quantity + quantity }
  | _ => True

section Effects

variable (cfg : Settings)
variable (A : Call → CallAt → Prop) (R : Call → State → State → Prop) (c : Call)

/-- The call was at `z`, and the others have since reached the shared state `s`. -/
def Was (z : CallAt) (s : State) : Prop :=
  A c z ∧ ReflTransGen (R c) (z.db, z.mem) s

/-- The lines an order's items were taken for; a line whose sku had no
inventory row when it was looked up is left out. -/
inductive Reserves (s : State) : List Json → List (String × Int) → Prop
  | nil : Reserves s [] []
  | skip {items lines item} (h : Reserves s items lines)
      (hl : lineOf s.1.products item = .ok none) : Reserves s (items ++ [item]) lines
  | absent {items lines item sku qty} (h : Reserves s items lines)
      (hl : lineOf s.1.products item = .ok (some (sku, qty))) (z : CallAt) (hz : Was A R c z s)
      (habs : z.db.inventory.find sku = none) : Reserves s (items ++ [item]) lines
  | sold {items lines item sku qty} (h : Reserves s items lines)
      (hl : lineOf s.1.products item = .ok (some (sku, qty))) :
      Reserves s (items ++ [item]) (lines ++ [(sku, qty)])

/-- The button of a MAX request, pressed by an active member of the staff. -/
def Pressed (secret : Option String) (body : Option Json) (d : Database) (role : StaffRole)
    (press : Press) : Prop :=
  cfg.maxWebhookSecret ≠ "" ∧ secret = some cfg.maxWebhookSecret ∧
    ∃ update callback sender member, body = some update ∧
      callbackOf update = .ok (some (callback, sender)) ∧ staffByMaxId d sender = some member ∧
      member.role = role ∧ pressOf cfg callback = .ok (some press)

/-- The transitions the call may make in a session of their own. -/
def May (past : Past) (d : Database) (row : Order) (event : OrderEvent) : Prop :=
  match c with
  | .triggerEvent orderId e => row.id = orderId ∧ event = e
  | .transitionOrder orderId e => readUuid orderId = some row.id ∧ event = e
  | .handleEvent orderId e => readUuid orderId = some row.id ∧ event = e
  | .dispatchOrder role orderId e => readUuid orderId = some row.id ∧
      OrderEvent.ofValue e = some event ∧ orderRoleEvents role event = true
  | .dispatchKitchen role ticketId e => ∃ ev, KitchenEvent.ofValue e = some ev ∧
      kitchenRoleEvents role ev = true ∧ MayAdvance past ticketId ev row event
  | .transitionTicket ticketId ev => MayAdvance past ticketId ev row event
  | .maxWebhook secret body => ∃ role press, Pressed cfg secret body d role press ∧
      match press.kind with
      | .order => past = [] ∧ readUuid press.entityId = some row.id ∧
          OrderEvent.ofValue press.event = some event ∧ orderRoleEvents role event = true
      | .kitchen => ∃ ev, KitchenEvent.ofValue press.event = some ev ∧
          kitchenRoleEvents role ev = true ∧ MayAdvance past press.entityId ev row event
  | .checkout body => Placed past row.id ∧ row.paymentMethod = some body.paymentMethod ∧
      (event = .CONFIRM ∨ event = .REQUEST_PAYMENT ∧ body.paymentMethod ≠ "cash" ∨
        event = .START_COOKING ∧ body.paymentMethod = "cash")
  | .confirmPayment _ _ _ => event = .START_COOKING ∧ PaidIn past row.id
  | .webhook _ => event = .START_COOKING ∧ PaidIn past row.id
  | _ => False

/-- The transitions of a ticket the call may make. -/
def MayMove (past : Past) (d : Database) (ticketId : Uuid) (event : KitchenEvent) : Prop :=
  past = [] ∧ match c with
  | .dispatchKitchen role tid e => readUuid tid = some ticketId ∧
      KitchenEvent.ofValue e = some event ∧ kitchenRoleEvents role event = true
  | .transitionTicket tid e => readUuid tid = some ticketId ∧ e = event
  | .maxWebhook secret body => ∃ role press, Pressed cfg secret body d role press ∧
      press.kind = .kitchen ∧ readUuid press.entityId = some ticketId ∧
      KitchenEvent.ofValue press.event = some event ∧ kitchenRoleEvents role event = true
  | _ => False

/-- The payments the call may insert for an order. -/
def MayPay (past : Past) (row : Order) (amount : ℚ) (currency : String) : Prop :=
  match c with
  | .createPayment orderId a cur _ => readUuid orderId = some row.id ∧ amount = a ∧ currency = cur
  | .payOrder orderId _ => row.id = orderId ∧ row.totalRub.map Int.cast = some amount ∧
      currency = "RUB"
  | .checkout body => Placed past row.id ∧ row.paymentMethod = some body.paymentMethod ∧
      body.paymentMethod ≠ "cash" ∧ row.totalRub.map Int.cast = some amount ∧ currency = "RUB"
  | _ => False

/-- The payments the call may settle, and the order it does so for. -/
def MaySettle (past : Past) (kind : Settlement) (orderId : String) (row : Payment) (s : State) :
    Prop :=
  match c with
  | .confirmPayment oid providerId traceId => kind = .confirm ∧ orderId = oid ∧
      row.providerId = some providerId ∧ KeyRecorded past (kind.key traceId)
  | .failPayment oid providerId traceId => kind = .fail ∧ orderId = oid ∧
      row.providerId = some providerId ∧ KeyRecorded past (kind.key traceId)
  | .webhook body => ∃ n, parseNotification cfg body = .ok (some n) ∧ kind = n.kind ∧
      row.providerId = some n.paymentId ∧ KeyRecorded past (n.kind.key n.traceId) ∧
      (∃ e, findTrace s.2.trace n.traceId = some e ∧ e.entityId = orderId) ∧
      ∃ remote, findRemote s.2.provider n.paymentId = some remote ∧
        providerAgrees remote row n.kind.expected = true
  | _ => False

/-- The idempotency keys the call may record. -/
def MayRecord (row : IdempotencyKey) : Prop :=
  match c with
  | .checkout body => row = ⟨checkoutKey body, .obj (checkoutPayload body)⟩
  | .confirmPayment _ _ traceId => row.key = Settlement.confirm.key traceId
  | .failPayment _ _ traceId => row.key = Settlement.fail.key traceId
  | .webhook body =>
      ∃ n, parseNotification cfg body = .ok (some n) ∧ row.key = n.kind.key n.traceId
  | _ => False

/-- The trace events the call may record: `create_payment` records one for the
order it is called for. -/
def MayTrace (past : Past) (e : TraceEvent) : Prop :=
  match c with
  | .checkout body => KeyRecorded past (checkoutKey body) ∧
      ∃ id, Placed past id ∧ e.entityId = id.text
  | .payOrder orderId _ => e.entityId = orderId.text
  | .createPayment orderId _ _ _ => e.entityId = orderId
  | _ => False

/-- The payments a checkout requests at the provider: for the order it has
placed under its key. -/
def MayRequest (past : Past) (p : RemotePayment) : Prop :=
  match c with
  | .checkout body => KeyRecorded past (checkoutKey body) ∧
      ∃ id, Placed past id ∧ ("order_id", id.text) ∈ p.metadata
  | _ => True

/-- What became of an order in the session that settled or created a payment, and
`why` it was not moved. -/
inductive Moves (orders : Table Order.id) (row : Order) (event : OrderEvent) (why : Prop) :
    Table Order.id → Prop
  | moved {st} (h : orderTransitions row.state event = some st) :
      Moves orders row event why (orders.put { row with state := st })
  | kept (h : why) : Moves orders row event why orders

/-- The calls that change stock outside an order. -/
def Call.isStock : Call → Bool
  | .syncFromMenu => true
  | .setQuantity _ _ => true
  | .applyRestock _ => true
  | .stockSession _ _ => true
  | _ => false

/-- A commit of the writes `ws` in the state `s`: the database it gives. -/
inductive Commits (past : Past) (s : State) (ws : List Write) : Database → Prop
  | duplicate (row : IdempotencyKey) (hk : MayRecord cfg c row)
      (hold : (s.1.idempotencyKeys.find row.key).isSome = true) : Commits past s ws s.1
  | recorded (row : IdempotencyKey) (hk : MayRecord cfg c row)
      (habs : s.1.idempotencyKeys.find row.key = none) :
      Commits past s ws { s.1 with idempotencyKeys := s.1.idempotencyKeys.put row }
  | answered (body : CheckoutRequest) (hc : c = .checkout body) (id : Uuid)
      (rest : List (String × Json)) (hrec : KeyRecorded past (checkoutKey body))
      (hplaced : Placed past id)
      (hcomp : ∀ response, recoverIdempotentResult (some (answeredPayload body id rest)) =
        .ok (some response) → Completes (checkoutKey body) s response) :
      Commits past s ws { s.1 with
        idempotencyKeys := s.1.idempotencyKeys.put
          ⟨checkoutKey body, answeredPayload body id rest⟩ }
  | customer (body : CheckoutRequest) (hc : c = .checkout body) (row : Customer)
      (habs : s.1.customers.find row.phone = none) :
      Commits past s ws { s.1 with customers := s.1.customers.put row }
  | placed (body : CheckoutRequest) (hc : c = .checkout body) (id customerId : Uuid)
      (items : List OrderItem) (totalRub : Int) (promoCode : Option String) (discountRub : Int)
      (hrec : KeyRecorded past (checkoutKey body)) (hfirst : ∀ p ∈ past, p.2.orders = p.1.orders)
      (habs : s.1.orders.find id = none) :
      Commits past s ws { s.1 with
        orders := s.1.orders.put
          (checkoutOrder id body customerId items totalRub promoCode discountRub) }
  | moved (row row' : Order) (event : OrderEvent) (st : OrderState)
      (hfind : s.1.orders.find row.id = some row) (hmay : May cfg c past s.1 row event)
      (htr : orderTransitions row.state event = some st) (hev : event ≠ .START_COOKING)
      (hrow : row' = { row with state := st, traceId := row'.traceId }) :
      Commits past s ws { s.1 with orders := s.1.orders.put row' }
  | cooked (row row' : Order) (orderId : String) (items : List Json)
      (lines : List (String × Int)) (d₁ : Database) (ticket : KitchenTicket)
      (hfind : s.1.orders.find row.id = some row) (hmay : May cfg c past s.1 row .START_COOKING)
      (hid : readUuid orderId = some row.id)
      (htr : orderTransitions row.state .START_COOKING = some .COOKING)
      (hrow : row' = { row with state := .COOKING, traceId := row'.traceId })
      (hitems : row.items.iter = .ok items) (hlines : Reserves A R c s items lines)
      (hsells : Sells orderId lines s.1 d₁)
      (habs : s.1.kitchenTickets.find ticket.id = none) (horder : ticket.orderId = row.id)
      (hnew : ticket.state = .NEW) :
      Commits past s ws { d₁ with
        orders := d₁.orders.put row'
        kitchenTickets := d₁.kitchenTickets.put ticket }
  | paymentCreated (row : Payment) (order : Order) (orders' : Table Order.id)
      (habs : s.1.payments.find row.id = none) (hws : .payment row ∈ ws)
      (hfind : s.1.orders.find row.orderId = some order)
      (hmay : MayPay c past order row.amount row.currency) (hst : row.state = .PENDING)
      (hmoves : Moves s.1.orders order .REQUEST_PAYMENT True orders') :
      Commits past s ws { s.1 with payments := s.1.payments.put row, orders := orders' }
  | settled (kind : Settlement) (orderId : String) (row : Payment) (order : Order)
      (orders' : Table Order.id)
      (hfind : s.1.payments.find row.id = some row)
      (hws : .payment { row with state := kind.state } ∈ ws)
      (hmay : MaySettle cfg c past kind orderId row s)
      (hread : ∃ z r, Was A R c z s ∧ z.db.payments.find row.id = some r ∧
        kind.skip r.state = none)
      (hid : readUuid orderId = some order.id) (horder : s.1.orders.find order.id = some order)
      (hmoves : Moves s.1.orders order kind.event
        (∃ z, Was A R c z s ∧ .payment { row with state := kind.state } ∈ z.txn.writes ∧
          ¬ StateAt z.db order.id .PAYMENT_PENDING) orders') :
      Commits past s ws { s.1 with
        payments := s.1.payments.put { row with state := kind.state }
        orders := orders' }
  | ticketMoved (row : KitchenTicket) (event : KitchenEvent) (st : KitchenState)
      (hfind : s.1.kitchenTickets.find row.id = some row)
      (hmay : MayMove cfg c past s.1 row.id event)
      (htr : kitchenTransitions row.state event = some st) :
      Commits past s ws { s.1 with kitchenTickets := s.1.kitchenTickets.put { row with state := st } }
  | stock (hc : c.isStock = true) {d' : Database} (h : StockSteps s.1 d')
      (hdone : StockDone c s.1 d') : Commits past s ws d'

/-- A change of the memory: a trace event or a payment at the provider. -/
inductive Remembers (past : Past) (s : State) : Memory → Prop
  | traced (e : TraceEvent) (hmay : MayTrace c past e) :
      Remembers past s { s.2 with trace := s.2.trace ++ [e] }
  | requested (p : RemotePayment) (hmay : MayRequest c past p) :
      Remembers past s { s.2 with provider := s.2.provider ++ [p] }

variable {c} in
theorem Remembers.ne {past : Past} {s : State} {m' : Memory} (h : Remembers c past s m') :
    m' ≠ s.2 := by
  cases h with
  | traced e _ => exact fun he => by simpa using congrArg (fun m => m.trace.length) he
  | requested p _ => exact fun he => by simpa using congrArg (fun m => m.provider.length) he

/-- What a call does to the shared state. -/
inductive Does (past : Past) (s : State) : State → Prop
  | committed (txn : Txn Write Lock) (ha : A c ⟨txn, past, s.1, s.2⟩) {d' : Database}
      (h : Commits cfg A R c past s txn.writes d') : Does past s (d', s.2)
  | remembered {m' : Memory} (h : Remembers c past s m') : Does past s (s.1, m')

end Effects

/-! ## Every effect evolves the shared state -/

/-- A database that differs in its stock only. -/
def SameButStock (d d' : Database) : Prop :=
  d' = { d with inventory := d'.inventory, inventoryMovements := d'.inventoryMovements }

theorem SameButStock.trans {d d' d'' : Database} (h : SameButStock d d')
    (h' : SameButStock d' d'') : SameButStock d d'' := by
  unfold SameButStock at *
  rw [h] at h'
  exact h'

theorem StockStep.same {d d' : Database} (h : StockStep d d') : SameButStock d d' := by
  cases h <;> rfl

theorem StockSteps.same {d d' : Database} (h : StockSteps d d') : SameButStock d d' := by
  induction h with
  | refl => rfl
  | tail _ hs ih => exact ih.trans hs.same

/-- A sale is a change of the stock. -/
theorem stockStep_sell {d : Database} (orderId : String) {stock : Inventory} (qty : Int)
    {id : Uuid} (hs : d.inventory.find stock.sku = some stock)
    (hm : d.inventoryMovements.find id = none) : StockStep d (d.sell orderId stock qty id) := by
  have h := StockStep.change (d := d) stock
    { id, sku := stock.sku, delta := -qty, reason := .SALE, sourceType := some "order"
      sourceId := some orderId, belowZero := stock.quantity - qty < 0 }
    hs hm rfl fun _ => by simp [Int.sub_eq_add_neg]
  exact h

theorem Sells.steps {orderId : String} {lines : List (String × Int)} {d d' : Database}
    (h : Sells orderId lines d d') : StockSteps d d' := by
  induction h with
  | nil d => exact .refl
  | snoc _ hs hm ih => exact ih.tail (stockStep_sell orderId _ hs hm)

theorem Evolves.of_stock {d d' : Database} (h : SameButStock d d') (m : Memory) :
    Evolves (d, m) (d', m) := by
  unfold SameButStock at h
  rw [h]
  exact { Evolves.refl (d, m) with }

theorem Order.Later.of_edge {row row' : Order} {event : OrderEvent} {st : OrderState}
    (htr : orderTransitions row.state event = some st)
    (hrow : row' = { row with state := st, traceId := row'.traceId }) : row.Later row' := by
  have hst : row'.state = st := by rw [hrow]
  exact ⟨by rw [hst]; exact hrow, .single ⟨event, by rw [hst]; exact htr⟩⟩

theorem Order.Later.grows {t : Table Order.id} {row row' : Order} (hfind : t.find row.id = some row)
    (hid : row'.id = row.id) (h : row.Later row') : t.Grows Order.Later (t.put row') := by
  refine .put Order.Later.refl fun old hold => ?_
  rw [hid, hfind] at hold
  exact Option.some.inj hold ▸ h

theorem Moves.grows {t t' : Table Order.id} {row : Order} {event : OrderEvent} {why : Prop}
    (hfind : t.find row.id = some row) (h : Moves t row event why t') :
    t.Grows Order.Later t' := by
  cases h with
  | moved h => exact Order.Later.grows hfind rfl (.of_edge h rfl)
  | kept _ => exact .refl Order.Later.refl _

section Evolution

variable {cfg : Settings} {A : Call → CallAt → Prop} {R : Call → State → State → Prop} {c : Call}
variable {past : Past} {s s' : State}

theorem Commits.evolves {ws : List Write} {d' : Database} (h : Commits cfg A R c past s ws d') :
    Evolves s (d', s.2) := by
  have hbase := Evolves.refl s
  cases h with
  | duplicate _ _ _ => exact hbase
  | recorded row _ habs =>
      exact { hbase with keys := .put_absent (fun _ => trivial) habs }
  | answered body _ id rest _ _ _ =>
      exact { hbase with keys := .put (fun _ => trivial) fun _ _ => trivial }
  | customer body _ row _ => exact { hbase with }
  | placed body _ id customerId items totalRub promoCode discountRub _ _ habs =>
      exact { hbase with orders := .put_absent Order.Later.refl habs }
  | moved row row' event st hfind _ htr _ hrow =>
      have hid : row'.id = row.id := by rw [hrow]
      exact { hbase with orders := Order.Later.grows hfind hid (.of_edge htr hrow) }
  | cooked row row' orderId items lines d₁ ticket hfind _ _ htr hrow _ _ hsells habs _ _ =>
      have hid : row'.id = row.id := by rw [hrow]
      have hsame := hsells.steps.same
      have horders : d₁.orders = s.1.orders := by rw [hsame]
      have htickets : d₁.kitchenTickets = s.1.kitchenTickets := by rw [hsame]
      have hstock := Evolves.of_stock hsame s.2
      refine { hstock with orders := ?_, tickets := ?_ }
      · rw [horders]
        exact Order.Later.grows hfind hid (.of_edge htr hrow)
      · rw [htickets]
        exact .put_absent KitchenTicket.Later.refl habs
  | paymentCreated row order orders' habs _ hfind _ _ hmoves =>
      have hid : order.id = row.orderId := (Table.find_some hfind).2
      exact { hbase with
        orders := hmoves.grows (hid ▸ hfind)
        payments := .put_absent Payment.Later.refl habs }
  | settled kind orderId row order orders' hfind _ _ _ _ horder hmoves =>
      refine { hbase with orders := hmoves.grows horder, payments := ?_ }
      refine .put Payment.Later.refl fun old hold => ?_
      rw [show ({ row with state := kind.state } : Payment).id = row.id from rfl, hfind] at hold
      obtain rfl := Option.some.inj hold
      rfl
  | ticketMoved row event st hfind _ _ =>
      refine { hbase with tickets := .put KitchenTicket.Later.refl fun old hold => ?_ }
      rw [show ({ row with state := st } : KitchenTicket).id = row.id from rfl, hfind] at hold
      obtain rfl := Option.some.inj hold
      rfl
  | stock _ h _ => exact Evolves.of_stock h.same s.2

/-- What a call does is a step of the evolution. -/
theorem Does.evolves (h : Does cfg A R c past s s') : Evolves s s' := by
  cases h with
  | committed txn _ h => exact h.evolves
  | remembered h =>
      cases h with
      | traced e _ => exact evolves_trace s.1 s.2 e
      | requested p _ => exact evolves_provider s.1 s.2 p

end Evolution

end Sieshka
