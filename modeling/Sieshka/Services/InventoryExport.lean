import Sieshka.Python.Csv
import Sieshka.Python.DateTime
import Sieshka.Tallies
import Sieshka.Database
import Mathlib.Data.List.Sort

/-!
# The CSV export of stock movements

`InventoryService.export_movements_csv`: one row for each movement of a period, with the
price of a sale looked up in the items of its order, and two summary sections.

## Implementation notes

The two queries by `ANY(...)` become filters of the tables. Rows with one `created_at`
keep their order in the table. The ids of products and orders are compared as the texts
that `str(UUID)` writes.
-/

namespace Sieshka

open Transactions

/-- A row of `inventory_movements` with its `created_at`. -/
structure DatedMovement extends InventoryMovement where
  createdAt : DateTime

namespace InventoryExport

/-- `_CSV_FORMULA_PREFIXES`. -/
def csvFormulaPrefixes : List Char := ['=', '+', '-', '@', '\t', '\r']

/-- `value.startswith(_CSV_FORMULA_PREFIXES)`. -/
def startsFormula (value : String) : Bool :=
  value.toList.head?.any fun c => c ∈ csvFormulaPrefixes

/-- `_csv_safe` of a string. -/
def csvSafe (value : String) : String :=
  if startsFormula value then String.ofList ('\'' :: value.toList) else value

/-- The midnights a period begins and ends with; a bound that is `None` bounds nothing. -/
structure Period where
  since : Option DateTime
  before : Option DateTime

/-- The condition of the query on `created_at`. -/
def Period.covers (period : Period) (m : DatedMovement) : Bool :=
  period.since.all (fun t => t.instant ≤ m.createdAt.instant) &&
    period.before.all fun t => m.createdAt.instant < t.instant

/-- The rows of the period, `ORDER BY created_at`. -/
def fetchMovements (movements : List DatedMovement) (period : Period) : List DatedMovement :=
  (movements.filter period.covers).insertionSort fun m m' =>
    m.createdAt.instant ≤ m'.createdAt.instant

/-- `row["reason"] == "SALE" and row["source_id"]`. -/
def isSale (m : DatedMovement) : Bool :=
  m.reason = .SALE ∧ m.sourceId.getD "" ≠ ""

/-- The entries of `sku_to_product_id`. -/
def skuToProductId (products : Table Product.id) (saleRows : List DatedMovement) :
    List (String × String) :=
  products.rows.filterMap fun p =>
    match p.sku with
    | none => none
    | some sku =>
        if sku ∈ saleRows.map fun m => m.sku then some (sku, p.id.text) else none

/-- The entries of `items_by_order`; a `source_id` that is no UUID is passed over. -/
def itemsByOrder (orders : Table Order.id) (saleRows : List DatedMovement) :
    List (String × Json) :=
  let validOrderUuids := saleRows.filterMap fun m => readUuid (m.sourceId.getD "")
  (orders.rows.filter fun order => order.id ∈ validOrderUuids).map fun order =>
    (order.id.text, order.items)

/-- `str(value) == id`: of all values only a string spells an id. -/
def spells (value : Json) (id : String) : Bool :=
  match value with
  | .str s => s = id
  | _ => false

/-- The first of the items with the product. -/
def matched (productId : String) : List Json → Except PyError (Option (List (String × Json)))
  | [] => .ok none
  | .obj fields :: rest =>
      if spells (Json.get fields "product_id" .null) productId then .ok (some fields)
      else matched productId rest
  | _ :: _ => .error (.attributeError "object has no attribute 'get'")

/-- The price of a sale that was resolved, and what was paid. -/
structure Sale where
  priceRub : Int
  saleAmount : Int
deriving DecidableEq

/-- `int(matched["price_rub"])`, times the quantity. -/
def saleOf (m : DatedMovement) (fields : List (String × Json)) : Except PyError Sale :=
  match fields.find? fun f => f.1 = "price_rub" with
  | none => .error (.keyError "'price_rub'")
  | some price => do
      let priceRub ← price.2.toInt
      return { priceRub, saleAmount := priceRub * m.delta.natAbs }

/-- The sale of a row, where there is one and it is resolved. -/
def resolveSale (skuToProductId : List (String × String)) (itemsByOrder : List (String × Json))
    (m : DatedMovement) : Except PyError (Option Sale) :=
  if isSale m then
    match dictGet skuToProductId m.sku with
    | none => .ok none
    | some productId => do
        let orderItems ← ((dictGet itemsByOrder (m.sourceId.getD "")).getD (.arr [])).iter
        match ← matched productId orderItems with
        | none => return none
        | some fields => do
            let sale ← saleOf m fields
            return some sale
  else .ok none

/-- The row that is written for a movement. -/
def detailRow (m : DatedMovement) (sale : Option Sale) : List Csv.Cell :=
  [.text (csvSafe m.sku), .int m.delta, .text m.reason.value,
    .text (csvSafe (m.sourceType.getD "")), .text (csvSafe (m.sourceId.getD "")),
    .bool m.belowZero, .text m.createdAt.isoformat,
    (sale.map fun sale => Csv.Cell.int sale.priceRub).getD (.text ""),
    (sale.map fun sale => Csv.Cell.int sale.saleAmount).getD (.text "")]

/-- What the loop over the rows has written and added up. -/
structure ExportState where
  written : List (List Csv.Cell)
  dailyTotals : List (String × Int)
  grandTotal : Int

/-- A row is written, and a sale is added to the totals. -/
def ExportState.add (st : ExportState) (m : DatedMovement) (sale : Option Sale) : ExportState :=
  match sale with
  | none => { st with written := st.written ++ [detailRow m none] }
  | some sale =>
      { written := st.written ++ [detailRow m (some sale)]
        dailyTotals := tally st.dailyTotals m.createdAt.date sale.saleAmount
        grandTotal := st.grandTotal + sale.saleAmount }

/-- The loop over the rows. -/
def exportRows (skuToProductId : List (String × String)) (itemsByOrder : List (String × Json)) :
    ExportState → List DatedMovement → Except PyError ExportState
  | st, [] => .ok st
  | st, m :: rest => do
      let sale ← resolveSale skuToProductId itemsByOrder m
      exportRows skuToProductId itemsByOrder (st.add m sale) rest

/-- The names of the columns. -/
def header : List Csv.Cell :=
  [.text "sku", .text "delta", .text "reason", .text "source_type", .text "source_id",
    .text "below_zero", .text "created_at", .text "price_rub", .text "sale_amount"]

/-- The two summary sections. -/
def summary (dailyTotals : List (String × Int)) (grandTotal : Int) : List (List Csv.Cell) :=
  [] :: [.text "Daily sales totals"] :: [.text "date", .text "sale_amount"] ::
    (dailyTotals.insertionSort fun a b => a.1 ≤ b.1).map (fun entry =>
      [.text entry.1, .int entry.2]) ++ [[], [.text "Grand total", .int grandTotal]]

/-- `InventoryService.export_movements_csv`. -/
def exportMovementsCsv (products : Table Product.id) (orders : Table Order.id)
    (movements : List DatedMovement) (period : Period) : Except PyError String := do
  let rows := fetchMovements movements period
  let saleRows := rows.filter isSale
  let st ← exportRows (skuToProductId products saleRows) (itemsByOrder orders saleRows)
    { written := [header], dailyTotals := [], grandTotal := 0 } rows
  return Csv.write (st.written ++ summary st.dailyTotals st.grandTotal)

end InventoryExport

end Sieshka
