import Sieshka.Samples
import Sieshka.Specs.InventoryExport

/-!
# Totals that add up

The daily totals and the grand total of an export are sums of the `sale_amount` cells of
its detail rows, of which there is one for each movement of the period, and no text in it
begins like a formula.
-/

namespace Sieshka

open Transactions

namespace InventoryExport

/-! ## The specification -/

/-- The cells that repeat a movement. -/
def movementCells (m : DatedMovement) : List Csv.Cell :=
  [.text (csvSafe m.sku), .int m.delta, .text m.reason.value,
    .text (csvSafe (m.sourceType.getD "")), .text (csvSafe (m.sourceId.getD "")),
    .bool m.belowZero, .text m.createdAt.isoformat]

/-- The number in the last cell of a row, where one stands there. -/
def saleAmountCell (row : List Csv.Cell) : Option Int :=
  match row.getLast? with
  | some (.int n) => some n
  | _ => none

/-- The sum of the `sale_amount` cells of rows. -/
def saleAmounts (rows : List (DatedMovement × List Csv.Cell)) : Int :=
  (rows.map fun row => (saleAmountCell row.2).getD 0).sum

/-- Detail rows and totals that agree with the movements of a period and with each other. -/
structure AddsUp (movements : List DatedMovement) (period : Period)
    (rows : List (DatedMovement × List Csv.Cell)) (dailyTotals : List (String × Int))
    (grandTotal : Int) : Prop where
  one_row_each : (rows.map Prod.fst).Perm (movements.filter period.covers)
  in_order : rows.Pairwise fun row row' => row.1.createdAt.instant ≤ row'.1.createdAt.instant
  cells : ∀ row ∈ rows, row.2.length = 9 ∧ row.2.take 7 = movementCells row.1
  grand_of_daily : grandTotal = (dailyTotals.map Prod.snd).sum
  grand_of_rows : grandTotal = saleAmounts rows
  daily_of_rows : ∀ total ∈ dailyTotals,
    total.2 = saleAmounts (rows.filter fun row => row.1.createdAt.date = total.1)
  one_total_each : (dailyTotals.map Prod.fst).Nodup
  every_day : ∀ row ∈ rows, (saleAmountCell row.2).isSome →
    row.1.createdAt.date ∈ dailyTotals.map Prod.fst

/-! ## The totals -/

/-- The rows that are written for details. -/
def detailRows (details : List Detail) : List (DatedMovement × List Csv.Cell) :=
  details.map fun d => (d.1, detailRow d.1 d.2)

theorem saleAmountCell_detailRow (m : DatedMovement) (sale : Option Sale) :
    saleAmountCell (detailRow m sale) = sale.map Sale.saleAmount := by
  cases sale <;> rfl

theorem saleAmounts_detailRows (details : List Detail) :
    saleAmounts (detailRows details) = ((amounts details).map Prod.snd).sum := by
  induction details with
  | nil => rfl
  | cons d rest ih =>
      obtain ⟨m, sale⟩ := d
      have hcons : saleAmounts (detailRows ((m, sale) :: rest)) =
          (sale.map Sale.saleAmount).getD 0 + saleAmounts (detailRows rest) := by
        simp [saleAmounts, detailRows, saleAmountCell_detailRow]
      rw [hcons, ih]
      cases sale <;> simp [amounts]

theorem amountOf_amounts (details : List Detail) (day : String) :
    amountOf (amounts details) day =
      saleAmounts ((detailRows details).filter fun row => row.1.createdAt.date = day) := by
  have hfilter : (detailRows details).filter (fun row => row.1.createdAt.date = day) =
      detailRows (details.filter fun d => d.1.createdAt.date = day) := by
    rw [detailRows, List.filter_map]
    rfl
  rw [hfilter, saleAmounts_detailRows, amountOf]
  apply congrArg fun entries : List (String × Int) => (entries.map Prod.snd).sum
  rw [amounts, amounts, List.filter_filterMap, List.filterMap_filter]
  apply List.filterMap_congr
  intro d _
  obtain ⟨m, sale⟩ := d
  cases sale with
  | none => simp
  | some sale => by_cases h : m.createdAt.date = day <;> simp [h, Option.filter]

theorem mem_days {details : List Detail} {d : Detail} (h : d ∈ details)
    (hsale : d.2.isSome) : d.1.createdAt.date ∈ (amounts details).map Prod.fst := by
  obtain ⟨sale, hsome⟩ := Option.isSome_iff_exists.mp hsale
  rw [List.mem_map]
  refine ⟨(d.1.createdAt.date, sale.saleAmount), ?_, rfl⟩
  rw [amounts, List.mem_filterMap]
  exact ⟨d, h, by rw [hsome]; rfl⟩

theorem addsUp_reported {movements : List DatedMovement} {period : Period}
    {details : List Detail} (h : details.map Prod.fst = fetchMovements movements period) :
    AddsUp movements period (detailRows details) (reported details).dailyTotals
      (reported details).grandTotal := by
  have hfst : (detailRows details).map Prod.fst = fetchMovements movements period := by
    rw [← h, detailRows, List.map_map]
    rfl
  constructor
  · rw [hfst]
    exact List.perm_insertionSort _ _
  · rw [← List.pairwise_map (f := Prod.fst)
      (R := fun m m' : DatedMovement => m.createdAt.instant ≤ m'.createdAt.instant), hfst]
    exact List.pairwise_insertionSort _ _
  · intro row hrow
    obtain ⟨d, -, rfl⟩ := List.mem_map.mp hrow
    exact ⟨rfl, rfl⟩
  · exact (sum_tallies _).symm
  · exact (saleAmounts_detailRows details).symm
  · intro total htotal
    rw [eq_amountOf_of_mem_tallies _ htotal, amountOf_amounts]
  · exact nodup_tallies _
  · intro row hrow hsale
    obtain ⟨d, hd, rfl⟩ := List.mem_map.mp hrow
    rw [saleAmountCell_detailRow, Option.isSome_map] at hsale
    exact (mem_keys_tallies _).mpr (mem_days hd hsale)

/-! ## Formulas -/

@[simp] theorem startsFormula_csvSafe (value : String) : startsFormula (csvSafe value) = false := by
  by_cases h : startsFormula value = true
  · rw [csvSafe, if_pos h, startsFormula, String.toList_ofList]
    rfl
  · rw [csvSafe, if_neg h]
    simpa using h

/-- A text that begins with the digits of a number is no formula. -/
theorem startsFormula_padded (width n : ℕ) (rest : List Char) :
    startsFormula (String.ofList (padded (width + 1) n ++ rest)) = false := by
  obtain ⟨d, hd, hhead⟩ := head_padded width n
  rw [startsFormula, String.toList_ofList, List.head?_append, hhead, Option.some_or]
  interval_cases d <;> decide

theorem startsFormula_date (t : DateTime) : startsFormula t.date = false := by
  rw [DateTime.date, DateTime.dateChars]
  apply startsFormula_padded

theorem startsFormula_isoformat (t : DateTime) : startsFormula t.isoformat = false := by
  rw [DateTime.isoformat, DateTime.dateChars, List.append_assoc]
  apply startsFormula_padded

theorem startsFormula_value (reason : MovementReason) : startsFormula reason.value = false := by
  cases reason <;> decide

theorem startsFormula_of_mem_detailRow {m : DatedMovement} {sale : Option Sale} {s : String}
    (h : .text s ∈ detailRow m sale) : startsFormula s = false := by
  have hblank : startsFormula "" = false := by decide
  cases sale with
  | none =>
      simp only [detailRow, Option.map_none, Option.getD_none, List.mem_cons, Csv.Cell.text.injEq,
        reduceCtorEq, List.not_mem_nil, false_or, or_false] at h
      rcases h with rfl | rfl | rfl | rfl | rfl | rfl | rfl
      all_goals
        simp only [startsFormula_csvSafe, startsFormula_value, startsFormula_isoformat, hblank]
  | some sale =>
      simp only [detailRow, Option.map_some, Option.getD_some, List.mem_cons, Csv.Cell.text.injEq,
        reduceCtorEq, List.not_mem_nil, false_or, or_false] at h
      rcases h with rfl | rfl | rfl | rfl | rfl
      all_goals simp only [startsFormula_csvSafe, startsFormula_value, startsFormula_isoformat]

theorem startsFormula_of_mem_header {s : String} (h : .text s ∈ header) :
    startsFormula s = false := by
  simp only [header, List.mem_cons, Csv.Cell.text.injEq, List.not_mem_nil, or_false] at h
  rcases h with rfl | rfl | rfl | rfl | rfl | rfl | rfl | rfl | rfl <;> decide

theorem startsFormula_of_mem_summary {details : List Detail} {row : List Csv.Cell}
    (hrow : row ∈ summary (reported details).dailyTotals (reported details).grandTotal)
    {s : String} (h : .text s ∈ row) : startsFormula s = false := by
  simp only [summary, List.cons_append, List.mem_cons, List.mem_append, List.mem_map,
    List.mem_insertionSort, List.not_mem_nil, or_false] at hrow
  rcases hrow with rfl | rfl | rfl | ⟨total, htotal, rfl⟩ | rfl | rfl
  · cases h
  · obtain rfl := Csv.Cell.text.inj (List.mem_singleton.mp h)
    decide
  · simp only [List.mem_cons, Csv.Cell.text.injEq, List.not_mem_nil, or_false] at h
    rcases h with rfl | rfl <;> decide
  · simp only [List.mem_cons, Csv.Cell.text.injEq, reduceCtorEq, List.not_mem_nil, or_false] at h
    subst h
    have hday := (mem_keys_tallies _).mp (List.mem_map_of_mem htotal)
    obtain ⟨entry, hentry, hfst⟩ := List.mem_map.mp hday
    obtain ⟨d, -, hd⟩ := List.mem_filterMap.mp hentry
    obtain ⟨sale, -, rfl⟩ := Option.map_eq_some_iff.mp hd
    rw [← hfst]
    exact startsFormula_date _
  · cases h
  · simp only [List.mem_cons, Csv.Cell.text.injEq, reduceCtorEq, List.not_mem_nil, or_false] at h
    subst h
    decide

/-- The totals of an export add up, and no text in it is a formula. -/
theorem exportMovementsCsv_addsUp (products : Table Product.id) (orders : Table Order.id)
    (movements : List DatedMovement) (period : Period) (text : String)
    (h : exportMovementsCsv products orders movements period = .ok text) :
    ∃ rows dailyTotals grandTotal,
      AddsUp movements period rows dailyTotals grandTotal ∧
        text = Csv.write (header :: rows.map Prod.snd ++ summary dailyTotals grandTotal) ∧
        ∀ row ∈ header :: rows.map Prod.snd ++ summary dailyTotals grandTotal,
          ∀ s, .text s ∈ row → startsFormula s = false := by
  obtain ⟨details, hfst, -, rfl⟩ := exportMovementsCsv_eq_ok.mp h
  have hwritten : (reported details).written = header :: (detailRows details).map Prod.snd := by
    rw [detailRows, List.map_map]
    rfl
  refine ⟨detailRows details, _, _, addsUp_reported hfst, ?_, ?_⟩
  · rw [exportText, hwritten]
  · intro row hrow s hs
    rcases List.mem_append.mp hrow with hrow | hrow
    · rcases List.mem_cons.mp hrow with rfl | hrow
      · exact startsFormula_of_mem_header hs
      · obtain ⟨_, hmem, rfl⟩ := List.mem_map.mp hrow
        obtain ⟨d, -, rfl⟩ := List.mem_map.mp hmem
        exact startsFormula_of_mem_detailRow hs
    · exact startsFormula_of_mem_summary hrow hs

/-- Two rolls of an order, sold. -/
def rollsSold : DatedMovement where
  id := 1
  sku := "roll"
  delta := -2
  reason := .SALE
  sourceType := some "order"
  sourceId := some (Uuid.text 1)
  belowZero := false
  createdAt := ⟨2026, 8, 1, 12, 30, 0, 0, by decide⟩

/-- A restock the day before, under a sku that a spreadsheet would compute. -/
def sumRestocked : DatedMovement where
  id := 2
  sku := "=1+1"
  delta := 3
  reason := .RESTOCK_MANUAL
  sourceType := none
  sourceId := none
  belowZero := false
  createdAt := ⟨2026, 7, 31, 9, 0, 0, 250000, by decide⟩

/-- The order of two rolls at 250 rubles each. -/
def rollsOrder : Order :=
  sampleOrder 1 .PAID "yookassa"
    [OrderItem.dump { productId := 5, name := "Roll", priceRub := 250, qty := 2 }]

/-- The roll as the menu has it. -/
def rollProduct : Product where
  id := 5
  name := "Roll"
  priceRub := some 250
  sku := some "roll"
  isActive := true

/-- The export of both movements. -/
def rollsExport : String :=
  "sku,delta,reason,source_type,source_id,below_zero,created_at,price_rub,sale_amount\r\n" ++
  "'=1+1,3,RESTOCK_MANUAL,,,False,2026-07-31T09:00:00.250000+00:00,,\r\n" ++
  "roll,-2,SALE,order,00000000-0000-0000-0000-000000000001,False,2026-08-01T12:30:00+00:00," ++
  "250,500\r\n\r\nDaily sales totals\r\ndate,sale_amount\r\n2026-08-01,500\r\n\r\n" ++
  "Grand total,500\r\n"

theorem rollsExport_addsUp :
    exportMovementsCsv (Table.empty.put rollProduct) (Table.empty.put rollsOrder)
        [rollsSold, sumRestocked] ⟨none, none⟩ = .ok rollsExport ∧
      ∃ rows dailyTotals grandTotal,
        AddsUp [rollsSold, sumRestocked] ⟨none, none⟩ rows dailyTotals grandTotal ∧
          rollsExport = Csv.write (header :: rows.map Prod.snd ++ summary dailyTotals grandTotal) ∧
          ∀ row ∈ header :: rows.map Prod.snd ++ summary dailyTotals grandTotal,
            ∀ s, .text s ∈ row → startsFormula s = false := by
  have hexport : exportMovementsCsv (Table.empty.put rollProduct) (Table.empty.put rollsOrder)
      [rollsSold, sumRestocked] ⟨none, none⟩ = .ok rollsExport := by
    decide +kernel
  exact ⟨hexport, exportMovementsCsv_addsUp _ _ _ _ _ hexport⟩

end InventoryExport

end Sieshka
