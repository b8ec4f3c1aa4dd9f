import Sieshka.Services.InventoryExport

/-!
# What the export writes

The loop of the export, as the list of the rows it has passed, each with the sale it
resolved for it.
-/

namespace Sieshka

open Transactions

namespace InventoryExport

/-- A movement with its sale, where that was resolved. -/
abbrev Detail := DatedMovement × Option Sale

/-- The amounts of the sales, each with its day. -/
def amounts (details : List Detail) : List (String × Int) :=
  details.filterMap fun d => d.2.map fun sale => (d.1.createdAt.date, sale.saleAmount)

/-- What the loop has written and added up after some rows. -/
def reported (details : List Detail) : ExportState where
  written := header :: details.map fun d => detailRow d.1 d.2
  dailyTotals := tallies (amounts details)
  grandTotal := ((amounts details).map Prod.snd).sum

theorem add_reported (details : List Detail) (m : DatedMovement) (sale : Option Sale) :
    (reported details).add m sale = reported (details ++ [(m, sale)]) := by
  cases sale with
  | none => simp [ExportState.add, reported, amounts]
  | some sale => simp [ExportState.add, reported, amounts, tallies_append]

theorem exportRows_reported {skuToProductId : List (String × String)}
    {itemsByOrder : List (String × Json)} (done : List Detail) (rows : List DatedMovement)
    (st : ExportState) :
    exportRows skuToProductId itemsByOrder (reported done) rows = .ok st ↔
      ∃ details : List Detail, details.map Prod.fst = rows ∧
        (∀ d ∈ details, resolveSale skuToProductId itemsByOrder d.1 = .ok d.2) ∧
        st = reported (done ++ details) := by
  induction rows generalizing done with
  | nil =>
      constructor
      · intro h
        obtain rfl := Except.ok.inj h
        exact ⟨[], rfl, by simp, by simp⟩
      · rintro ⟨details, hrows, -, rfl⟩
        obtain rfl := List.map_eq_nil_iff.mp hrows
        simp [exportRows]
  | cons m rest ih =>
      cases hsale : resolveSale skuToProductId itemsByOrder m with
      | error e =>
          constructor
          · intro h
            simp [exportRows, hsale, bind, Except.bind] at h
          · rintro ⟨details, hrows, hall, -⟩
            obtain ⟨d, details', rfl, rfl, -⟩ := List.map_eq_cons_iff.mp hrows
            have hd := hall d List.mem_cons_self
            rw [hsale] at hd
            cases hd
      | ok sale =>
          have hstep : exportRows skuToProductId itemsByOrder (reported done) (m :: rest) =
              exportRows skuToProductId itemsByOrder (reported (done ++ [(m, sale)])) rest := by
            rw [← add_reported, exportRows, hsale]
            rfl
          rw [hstep, ih]
          constructor
          · rintro ⟨details, rfl, hall, rfl⟩
            refine ⟨(m, sale) :: details, rfl, ?_, by simp⟩
            simpa [hsale] using hall
          · rintro ⟨details, hrows, hall, rfl⟩
            obtain ⟨d, details', rfl, rfl, hrest⟩ := List.map_eq_cons_iff.mp hrows
            obtain ⟨hd, hdetails⟩ := List.forall_mem_cons.mp hall
            rw [hsale] at hd
            obtain rfl := Except.ok.inj hd
            exact ⟨details', hrest, hdetails, by simp⟩

/-- The text that is written for details. -/
def exportText (details : List Detail) : String :=
  Csv.write ((reported details).written ++
    summary (reported details).dailyTotals (reported details).grandTotal)

/-- The rows of the sales in a period. -/
abbrev saleRows (movements : List DatedMovement) (period : Period) : List DatedMovement :=
  (fetchMovements movements period).filter isSale

theorem exportMovementsCsv_eq_ok {products : Table Product.id} {orders : Table Order.id}
    {movements : List DatedMovement} {period : Period} {text : String} :
    exportMovementsCsv products orders movements period = .ok text ↔
      ∃ details : List Detail, details.map Prod.fst = fetchMovements movements period ∧
        (∀ d ∈ details, resolveSale (skuToProductId products (saleRows movements period))
          (itemsByOrder orders (saleRows movements period)) d.1 = .ok d.2) ∧
        text = exportText details := by
  have hexport : exportMovementsCsv products orders movements period =
      (exportRows (skuToProductId products (saleRows movements period))
        (itemsByOrder orders (saleRows movements period)) (reported [])
          (fetchMovements movements period)).map fun st =>
            Csv.write (st.written ++ summary st.dailyTotals st.grandTotal) := rfl
  constructor
  · intro h
    cases hst : exportRows (skuToProductId products (saleRows movements period))
        (itemsByOrder orders (saleRows movements period)) (reported [])
          (fetchMovements movements period) with
    | error e =>
        rw [hexport, hst] at h
        cases h
    | ok st =>
        rw [hexport, hst] at h
        obtain rfl := Except.ok.inj h
        obtain ⟨details, hrows, hall, rfl⟩ := (exportRows_reported [] _ st).mp hst
        exact ⟨details, hrows, hall, rfl⟩
  · rintro ⟨details, hrows, hall, rfl⟩
    rw [hexport, (exportRows_reported [] _ (reported details)).mpr ⟨details, hrows, hall, rfl⟩]
    rfl

end InventoryExport

end Sieshka
