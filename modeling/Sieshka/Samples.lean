import Sieshka.FreeNames
import Sieshka.Shop

/-!
# A small shop

Settings and rows of a shop small enough to evaluate runs on.
-/

namespace Sieshka

open Transactions

theorem numberText_injective : Function.Injective (toString : Nat → String) := by
  intro i j h
  have hdigits : Nat.toDigits 10 i = Nat.toDigits 10 j := String.ofList_injective h
  calc
    i = Nat.ofDigitChars 10 (Nat.toDigits 10 i) 0 :=
      (Nat.ofDigitChars_toDigits (by omega) (by omega)).symm
    _ = Nat.ofDigitChars 10 (Nat.toDigits 10 j) 0 := by rw [hdigits]
    _ = j := Nat.ofDigitChars_toDigits (by omega) (by omega)

/-- The first number that is not among some ids. -/
def unusedNumber (taken : List String) : String := nextFree taken numberText_injective

theorem unusedNumber_not_mem (taken : List String) : unusedNumber taken ∉ taken :=
  nextFree_not_mem taken numberText_injective

/-- `OrderItem.model_validate` of a dictionary whose values have the types of the fields. -/
def plainOrderItem (fields : List (String × Json)) : Option OrderItem :=
  match Json.get fields "product_id" .null, Json.get fields "name" .null,
      Json.get fields "price_rub" .null, Json.get fields "qty" .null with
  | .str productId, .str name, .int priceRub, .int qty =>
      (readUuid productId).map fun productId => { productId, name, priceRub, qty }
  | _, _, _, _ => none

/-- A provider that numbers the payments, all with one page. -/
def numberingProvider : ProviderApi where
  nextRemoteId provider := unusedNumber (provider.map RemotePayment.id)
  fresh provider p hp heq := by
    apply unusedNumber_not_mem (provider.map RemotePayment.id)
    rw [← heq]
    exact List.mem_map_of_mem hp
  confirmationUrl _ := "https://yookassa.example/confirm"
  confirmationToken _ := ""

/-- A shop with a flat delivery fee. -/
def sampleSettings : Settings where
  deliveryFee := 200
  lower := String.toLower
  percentOf total discount := .ok (truncated (total * discount / 100))
  percentOf_error _ _ _ h := by cases h
  orderItem := plainOrderItem
  repr _ := ""
  provider := numberingProvider
  maxWebhookSecret := "secret"
  loads _ := .error (.valueError "")

/-- The shop on a server with ASCII texts. -/
def asciiSettings : Settings := { sampleSettings with lower := asciiLower }

/-- A database without rows. -/
def emptyDatabase : Database where
  orders := .empty
  payments := .empty
  idempotencyKeys := .empty
  kitchenTickets := .empty
  inventory := .empty
  inventoryMovements := .empty
  customers := .empty
  products := .empty
  promotions := []
  deliveryZones := .empty
  staff := .empty

/-- A database that numbers its next row. -/
def numbered (n : Nat) : Engine Database Write where
  supply _ := n

/-- An order over 500 rubles for `items`. -/
def sampleOrder (id : Uuid) (state : OrderState) (paymentMethod : String) (items : List Json) :
    Order where
  id := id
  customerId := 7
  state := state
  items := .arr items
  deliveryAddress := ""
  deliveryMode := some "pickup"
  zoneId := none
  comment := none
  clientMaxUid := none
  clientZaloUid := none
  clientTelegramUid := none
  totalRub := some 500
  paymentMethod := some paymentMethod
  promoCode := none
  discountRub := 0
  traceId := none

/-- A payment of 500 rubles for an order. -/
def samplePayment (id orderId : Uuid) (providerId : String) (state : PaymentState) : Payment where
  id := id
  orderId := orderId
  providerId := some providerId
  amount := 500
  currency := "RUB"
  state := state

/-- The database with the given orders and payments. -/
def databaseWith (orders : List Order) (payments : List Payment) : Database :=
  { emptyDatabase with
    orders := orders.foldl Table.put .empty
    payments := payments.foldl Table.put .empty }

/-- The database with the given stock. -/
def stockWith (stock : List Inventory) : Database :=
  { emptyDatabase with inventory := stock.foldl Table.put .empty }

/-- The database with the given tickets as well. -/
def withTickets (d : Database) (tickets : List KitchenTicket) : Database :=
  { d with kitchenTickets := tickets.foldl Table.put .empty }

/-- The database with the given staff as well. -/
def withStaff (d : Database) (staff : List StaffMember) : Database :=
  { d with staff := staff.foldl Table.put .empty }

/-- An active member of the staff with a MAX user id. -/
def sampleMember (id : Uuid) (role : StaffRole) (maxUserId : Int) : StaffMember where
  id := id
  role := role
  maxUserId := some maxUserId
  zaloUserId := none
  active := true

/-- The text of a button that cancels the first order. -/
def cancelButton : String :=
  "\x7b\"kind\":\"order\",\"id\":\"00000000-0000-0000-0000-000000000001\"," ++
    "\"event\":\"CANCEL\"\x7d"

/-- A checkout of one pizza under the key `k`, which the customer picks up. -/
def sampleCheckout (paymentMethod : String) : CheckoutRequest where
  name := "Anna"
  phone := "89991234567"
  address := none
  comment := none
  deliveryMode := "pickup"
  paymentMethod := paymentMethod
  zoneId := none
  items := [⟨3, 1, by decide⟩]
  idempotencyKey := "k"
  clientMaxUid := none
  clientZaloUid := none
  clientTelegramUid := none
  promoCode := none

/-- The database with one pizza on the menu. -/
def withMenu (d : Database) : Database :=
  { d with products := Table.empty.put ⟨3, "Pizza", some 500, none, true⟩ }

/-- A checkout of one pizza under the given key, which the customer pays by card. -/
def cardCheckout (key : String) : Call :=
  .checkout { sampleCheckout "yookassa_sbp" with idempotencyKey := key }

/-- A notification of the provider. -/
def sampleNotification (event paymentId traceId : String) : Json :=
  .obj [("event", .str event), ("object", .obj [("id", .str paymentId),
    ("metadata", .obj [("trace_id", .str traceId)])])]

/-- The press of a button by a MAX user. -/
def sampleUpdate (sender : Int) (button : String) : Json :=
  .obj [("update_type", .str "message_callback"),
    ("callback", .obj [("user", .obj [("user_id", .int sender)]), ("payload", .str button)])]

/-- The states of all orders. -/
def orderStates (c : Config Call Database Write Lock Memory PyError Answer) :
    List (Uuid × OrderState) :=
  c.db.orders.rows.map fun row => (row.id, row.state)

/-- The states of all tickets. -/
def ticketStates (c : Config Call Database Write Lock Memory PyError Answer) :
    List (Uuid × KitchenState) :=
  c.db.kitchenTickets.rows.map fun row => (row.id, row.state)

/-- Let the `i`-th call take the given number of steps. -/
def runs (i n : Nat) : List (Action Call ProviderMove) := List.replicate n (.run i 0)

/-- Let the `i`-th call take the given number of steps with one pick for all. -/
def runsWith (i pick n : Nat) : List (Action Call ProviderMove) := List.replicate n (.run i pick)

/-- Two card checkouts, one after the other: orders and payments 3 and 5, payments
`0` and `1` at the provider. -/
def twoCheckouts : List (Action Call ProviderMove) :=
  .call (cardCheckout "k") :: runsWith 0 3 41 ++ .call (cardCheckout "l") :: runsWith 1 5 38

end Sieshka
