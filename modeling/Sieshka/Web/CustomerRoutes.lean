import Sieshka.Services.OrderService

/-!
# Pages of the customer

The page `/thanks/{order_id}`, up to its template: it shows the delivery fee of an
order, which no column keeps, as what the total leaves over.

## Implementation notes

The request, the nonce and the rendering of the template are left out.
-/

namespace Sieshka

open Transactions

/-- `ORDER_STATE_LABELS_RU`. -/
def orderStateLabelsRu : OrderState → String
  | .DRAFT => "Оформляется"
  | .CONFIRMED => "Подтверждён"
  | .PAYMENT_PENDING => "Ожидает оплаты"
  | .PAID => "Оплачен"
  | .COOKING => "Готовится"
  | .PACKING => "Упаковывается"
  | .COURIER_ASSIGNED => "Курьер назначен"
  | .DELIVERING => "В пути"
  | .DELIVERED => "Доставлен"
  | .CLOSED => "Завершён"
  | .CANCELLED => "Отменён"

/-- What `shop_thanks` gives to its template. -/
structure ThanksPage where
  order : Option OrderRead := none
  deliveryFee : Option Int := none
  goodsTotal : Option Int := none
  stateLabel : Option String := none

/-- The delivery fee that `shop_thanks` shows. An order without a total is one from
before the column was there. -/
def shownFee (cfg : Settings) (order : OrderRead) : Int :=
  match order.totalRub with
  | some totalRub => totalRub - goodsTotal order.items + order.discountRub.getD 0
  | none => if order.deliveryAddress = "" then 0 else cfg.deliveryFee

/-- The page of an order. -/
def thanksPage (cfg : Settings) (order : OrderRead) : ThanksPage where
  order := some order
  deliveryFee := some (shownFee cfg order)
  goodsTotal := some (goodsTotal order.items)
  stateLabel := some (orderStateLabelsRu order.state)

/-- `shop_thanks`. -/
def shopThanks (cfg : Settings) (orderId : String) : Async ThanksPage := do
  match readUuid orderId with
  | none => return {}
  | some id =>
      match ← getOrder cfg id with
      | none => return {}
      | some order => return thanksPage cfg order

end Sieshka
