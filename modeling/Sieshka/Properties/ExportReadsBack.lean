import Sieshka.Properties.ExportTotals
import Sieshka.Specs.Csv

/-!
# An export reads back

Whatever the texts in it, `csv.reader` finds in an export the rows that were written to it: no
comma, quote or end of a line in a sku or a source moves a cell or a row.
-/

namespace Sieshka

open Transactions

namespace InventoryExport

variable {products : Table Product.id} {orders : Table Order.id}
variable {movements : List DatedMovement} {period : Period} {text : String}

/-- The text of an export is its header, one row for each movement of the period, in the order of
their time, and the two summaries, and is read back as these rows, as long as no cell is larger
than the reader takes. -/
theorem export_reads_back (h : exportMovementsCsv products orders movements period = .ok text) :
    ∃ rows dailyTotals grandTotal, AddsUp movements period rows dailyTotals grandTotal ∧
      text = Csv.write (header :: rows.map Prod.snd ++ summary dailyTotals grandTotal) ∧
      ((∀ row ∈ header :: rows.map Prod.snd ++ summary dailyTotals grandTotal,
          ∀ cell ∈ row, cell.str.length ≤ Csv.fieldLimit) →
        Csv.read text = .ok ((header :: rows.map Prod.snd ++ summary dailyTotals grandTotal).map
          fun row => row.map Csv.Cell.str)) := by
  obtain ⟨details, hfst, -, rfl⟩ := exportMovementsCsv_eq_ok.mp h
  have hwritten : (reported details).written = header :: (detailRows details).map Prod.snd := by
    rw [detailRows, List.map_map]
    rfl
  refine ⟨detailRows details, _, _, addsUp_reported hfst, ?_, ?_⟩
  · rw [exportText, hwritten]
  · intro hshort
    rw [exportText, hwritten]
    exact Csv.read_write hshort

/-- A sale from a sku with a comma and a quote in it. -/
def inchSold : DatedMovement where
  id := 1
  sku := "12\", thin"
  delta := -1
  reason := .SALE
  sourceType := none
  sourceId := none
  belowZero := false
  createdAt := rollsSold.createdAt

theorem export_reads_back_quoted :
    ∃ text, exportMovementsCsv Table.empty Table.empty [inchSold] ⟨none, none⟩ = .ok text ∧
      ∃ rows dailyTotals grandTotal,
        AddsUp [inchSold] ⟨none, none⟩ rows dailyTotals grandTotal ∧
          text = Csv.write (header :: rows.map Prod.snd ++ summary dailyTotals grandTotal) ∧
          Csv.read text = .ok ((header :: rows.map Prod.snd ++
            summary dailyTotals grandTotal).map fun row => row.map Csv.Cell.str) := by
  have hexport : exportMovementsCsv Table.empty Table.empty [inchSold] ⟨none, none⟩ = .ok
      ("sku,delta,reason,source_type,source_id,below_zero,created_at,price_rub,sale_amount\r\n" ++
        "\"12\"\", thin\",-1,SALE,,,False,2026-08-01T12:30:00+00:00,,\r\n\r\n" ++
        "Daily sales totals\r\ndate,sale_amount\r\n\r\nGrand total,0\r\n") := by
    decide +kernel
  obtain ⟨rows, dailyTotals, grandTotal, hadds, htext, hread⟩ := export_reads_back hexport
  refine ⟨_, hexport, rows, dailyTotals, grandTotal, hadds, htext, ?_⟩
  -- no cell is longer than the whole text
  apply hread
  intro row hrow cell hcell
  calc
    cell.str.length ≤ _ := Csv.length_le_write hrow hcell
    _ = _ := congrArg String.length htext.symm
    _ ≤ Csv.fieldLimit := by decide +kernel

end InventoryExport

end Sieshka
