import Sieshka.Services.Checkout
import Sieshka.Services.MaxWebhook
import Sieshka.Services.InventoryService

/-!
# The shop

Every call that can be in flight, its program, and the system they run in.
-/

namespace Sieshka

open Transactions

/-- One inventory or order tool, run by a caller that owns the session. -/
inductive StockTool
  | decrement (sku : String) (quantity : Int)
  | increment (sku : String) (quantity : Int) (reason : Option MovementReason)
      (sourceType sourceId : Option String)
  | setQuantity (sku : String) (quantity : Int)
  | setState (sku : String)
  | reserve (orderId : String)

/-- A call: a request to a route, a press of a staff button, or a call of a
service. -/
inductive Call
  /-- `POST /api/orders` -/
  | checkout (body : CheckoutRequest)
  /-- `POST /orders/{order_id}/pay` -/
  | payOrder (orderId : Uuid) (body : PaymentRequest)
  /-- `POST /webhooks/yookassa` -/
  | webhook (body : Option Json)
  /-- `POST /orders/{order_id}/events` -/
  | triggerEvent (orderId : Uuid) (event : OrderEvent)
  | dispatchOrder (role : StaffRole) (orderId event : String)
  | dispatchKitchen (role : StaffRole) (ticketId event : String)
  | transitionTicket (ticketId : String) (event : KitchenEvent)
  /-- `POST /webhooks/max` -/
  | maxWebhook (secret : Option String) (body : Option Json)
  | transitionOrder (orderId : String) (event : OrderEvent)
  | handleEvent (orderId : String) (event : OrderEvent)
  | createPayment (orderId : String) (amount : Int) (currency : String)
      (paymentMethodType : Option String)
  | confirmPayment (orderId providerId traceId : String)
  | failPayment (orderId providerId traceId : String)
  | syncFromMenu
  | setQuantity (sku : String) (quantity : Int)
  | applyRestock (command : Json)
  /-- tools run in one session that ends with a commit or without -/
  | stockSession (tools : List StockTool) (commit : Bool)

/-- What a call returns. -/
inductive Answer
  | checkout (response : CheckoutResponse)
  | payment (result : PaymentInitResult)
  | status (code : Nat)
  | transition (result : OrderResult)
  | order (result : Option OrderResult)
  | ticket (result : Option KitchenResult)
  | sync (result : InventorySyncResult)
  | item (row : Inventory)
  | applied (yes : Bool)
  | done

/-- One tool of a stock session. -/
def runStockTool : StockTool → Async Unit
  | .decrement sku quantity => do
      let _ ← decrementInventory sku quantity
  | .increment sku quantity reason sourceType sourceId => do
      let _ ← incrementInventory sku quantity reason sourceType sourceId
  | .setQuantity sku quantity => do
      let _ ← setInventoryQuantity sku quantity
  | .setState sku => do
      let _ ← setInventoryState sku
  | .reserve orderId => do
      let _ ← reserveInventoryItems orderId

/-- The tools of a stock session, in order. -/
def runStockTools : List StockTool → Async Unit
  | [] => return ()
  | tool :: rest => do
      runStockTool tool
      runStockTools rest

/-- A session that runs tools and commits, or ends without a commit. -/
def stockSession (tools : List StockTool) (commit : Bool) : Async Unit :=
  Prog.withSession do
    runStockTools tools
    if commit then Prog.commitSession else return ()

/-- The program of a call. -/
def body (cfg : Settings) : Call → Async Answer
  | .checkout body => do
      let response ← checkout cfg body
      return .checkout response
  | .payOrder orderId body => do
      let result ← payOrder cfg orderId body
      return .payment result
  | .webhook body => do
      let code ← yookassaWebhook cfg body
      return .status code
  | .triggerEvent orderId event => do
      let result ← transitionOrder orderId.text event
      return .transition result
  | .dispatchOrder role orderId event => do
      let result ← dispatchOrder role orderId event
      return .order result
  | .dispatchKitchen role ticketId event => do
      let result ← dispatchKitchen role ticketId event
      return .ticket result
  | .transitionTicket ticketId event => do
      let result ← transitionTicket ticketId event
      return .ticket (some result)
  | .maxWebhook secret body => do
      let code ← maxWebhook cfg secret body
      return .status code
  | .transitionOrder orderId event => do
      let result ← transitionOrder orderId event
      return .transition result
  | .handleEvent orderId event => do
      let result ← handleEvent orderId event
      return .transition result
  | .createPayment orderId amount currency paymentMethodType => do
      let result ← createPayment cfg none orderId amount currency paymentMethodType
      return .payment result
  | .confirmPayment orderId providerId traceId => do
      let result ← confirmPayment orderId providerId traceId
      return .transition result
  | .failPayment orderId providerId traceId => do
      let result ← failPayment orderId providerId traceId
      return .transition result
  | .syncFromMenu => do
      let result ← syncFromMenu
      return .sync result
  | .setQuantity sku quantity => do
      let row ← setQuantity sku quantity
      return .item row
  | .applyRestock command => do
      let yes ← applyRestock command
      return .applied yes
  | .stockSession tools commit => do
      stockSession tools commit
      return .done

/-- The shop: any number of calls on one database, one process, one provider. -/
def shop (cfg : Settings) : System Call Database Write Lock Memory PyError Answer where
  body := body cfg
  restart := restart
  Move := ProviderMove
  move := providerMove cfg.provider

end Sieshka
