import Sieshka.Delimiters
import Sieshka.Properties.ExportTotals
import Mathlib.Algebra.Order.BigOperators.Group.List

/-!
# Past sales and the menu of today

The export finds the line of a sale through the product that has the sku now. A sale of a
checkout order therefore has its price in the export as long as a product of that line has
the sku, and no price once none has.
-/

namespace Sieshka

open Transactions

namespace InventoryExport

/-! ## The specification -/

/-- A movement that sold what is in an order. -/
def SaleOf (m : DatedMovement) (order : Order) : Prop :=
  m.reason = .SALE ∧ m.sourceId.bind readUuid = some order.id

/-- The items of an order are these lines, as the checkout stores them. -/
def CheckoutLines (order : Order) (lines : List OrderItem) : Prop :=
  lines ≠ [] ∧ order.items = .arr (lines.map OrderItem.dump)

/-- The export of a period does not depend on the products, and it shows what each sale of
a checkout order was paid with. -/
structure PastSalesKept (orders : Table Order.id) (movements : List DatedMovement)
    (period : Period) : Prop where
  independent : ∀ products products' : Table Product.id,
    exportMovementsCsv products orders movements period =
      exportMovementsCsv products' orders movements period
  returns : ∀ products, ∃ text, exportMovementsCsv products orders movements period = .ok text
  snapshotted : ∀ products (details : List Detail),
    details.map Prod.fst = fetchMovements movements period →
      exportMovementsCsv products orders movements period = .ok (exportText details) →
        ∀ d ∈ details, ∀ order ∈ orders.rows, SaleOf d.1 order →
          ∀ lines, CheckoutLines order lines →
            ∃ line ∈ lines, d.2.map Sale.saleAmount = some (line.priceRub * line.qty)

/-- Items of which none can be looked up by the id of a product: objects that name no
product. -/
def NameNoProduct (items : Json) : Prop :=
  ∃ elements, items.iter = .ok elements ∧
    ∀ element ∈ elements, ∃ fields, element = .obj fields ∧
      ∀ id : Uuid, spells (Json.get fields "product_id" .null) id.text = false

/-- No sale of the period is one of a checkout order, and where a row is looked up in
another order, that one names no product. -/
def NothingToLookUp (orders : Table Order.id) (movements : List DatedMovement)
    (period : Period) : Prop :=
  ∀ m ∈ movements, period.covers m = true → ∀ order ∈ orders.rows, SaleOf m order →
    (∀ lines, ¬ CheckoutLines order lines) ∧
      (m.sourceId = some order.id.text → NameNoProduct order.items)

/-! ## Looking up -/

theorem text_ne_empty (id : Uuid) : id.text ≠ "" := by
  intro h
  have hread := readUuid_text id
  have hnone : readUuid "" = none := by decide +kernel
  rw [h, hnone] at hread
  cases hread

theorem matched_eq_none_iff {elements : List Json} :
    (∀ id : Uuid, matched id.text elements = .ok none) ↔
      ∀ element ∈ elements, ∃ fields, element = .obj fields ∧
        ∀ id : Uuid, spells (Json.get fields "product_id" .null) id.text = false := by
  induction elements with
  | nil => simp [matched]
  | cons element rest ih =>
      rw [List.forall_mem_cons, ← ih]
      constructor
      · intro h
        cases element with
        | obj fields =>
            have hno : ∀ id : Uuid, spells (Json.get fields "product_id" .null) id.text = false := by
              intro id
              by_contra hspells
              have hid := h id
              rw [matched, if_pos (by simpa using hspells)] at hid
              cases hid
            constructor
            · exact ⟨fields, rfl, hno⟩
            · intro id
              have hid := h id
              rwa [matched, if_neg (by simp [hno id])] at hid
        | _ => cases h 0
      · rintro ⟨⟨fields, rfl, hno⟩, hrest⟩ id
        rw [matched, if_neg (by simp [hno id]), hrest id]

theorem nameNoProduct_iff {items : Json} :
    NameNoProduct items ↔
      ∀ id : Uuid, (do matched id.text (← items.iter)) = Except.ok none := by
  cases hiter : items.iter with
  | error e =>
      constructor
      · rintro ⟨elements, h, -⟩
        rw [hiter] at h
        cases h
      · intro h
        cases h 0
  | ok elements =>
      have hbind : ∀ id : Uuid, (do matched id.text (← Except.ok elements)) =
          matched id.text elements := fun _ => rfl
      simp only [hbind]
      rw [matched_eq_none_iff, NameNoProduct, hiter]
      constructor
      · rintro ⟨_, h, hall⟩
        obtain rfl := Except.ok.inj h
        exact hall
      · intro h
        exact ⟨elements, rfl, h⟩

theorem mem_saleRows {movements : List DatedMovement} {period : Period} {m : DatedMovement} :
    m ∈ saleRows movements period ↔
      m ∈ movements ∧ period.covers m = true ∧ isSale m = true := by
  rw [saleRows, List.mem_filter, fetchMovements, List.mem_insertionSort, List.mem_filter,
    and_assoc]

/-- The items that a row finds are those of the order it names. -/
theorem dictGet_itemsByOrder {orders : Table Order.id} {rows : List DatedMovement}
    {m : DatedMovement} (hm : m ∈ rows) {order : Order} (horder : order ∈ orders.rows)
    (hsource : m.sourceId = some order.id.text) :
    dictGet (itemsByOrder orders rows) (m.sourceId.getD "") = some order.items := by
  apply dictGet_of_mem
  · rw [itemsByOrder, List.map_map]
    have hkeys : ((orders.rows.filter fun order =>
        order.id ∈ rows.filterMap fun m => readUuid (m.sourceId.getD "")).map Order.id).Nodup :=
      (List.filter_sublist.map Order.id).nodup orders.nodup
    rw [show (Prod.fst ∘ fun order : Order => (order.id.text, order.items)) =
      Uuid.text ∘ Order.id from rfl, ← List.map_map]
    apply hkeys.map
    intro u v huv
    have hread : readUuid u.text = readUuid v.text := congrArg readUuid huv
    simpa using hread
  · rw [itemsByOrder, List.mem_map]
    refine ⟨order, ?_, by rw [hsource]; rfl⟩
    rw [List.mem_filter]
    constructor
    · exact horder
    · apply decide_eq_true
      rw [List.mem_filterMap]
      exact ⟨m, hm, by rw [hsource]; exact readUuid_text _⟩

theorem mem_of_dictGet_itemsByOrder {orders : Table Order.id} {rows : List DatedMovement}
    {m : DatedMovement} {items : Json}
    (h : dictGet (itemsByOrder orders rows) (m.sourceId.getD "") = some items) :
    ∃ order ∈ orders.rows, m.sourceId.getD "" = order.id.text ∧ items = order.items := by
  obtain ⟨order, horder, heq⟩ := List.mem_map.mp (mem_of_dictGet h)
  obtain ⟨hid, hitems⟩ := Prod.mk.inj heq
  exact ⟨order, (List.mem_filter.mp horder).1, hid.symm, hitems.symm⟩

theorem exists_text_of_dictGet {products : Table Product.id} {rows : List DatedMovement}
    {sku productId : String} (h : dictGet (skuToProductId products rows) sku = some productId) :
    ∃ id : Uuid, productId = id.text := by
  obtain ⟨product, -, heq⟩ := List.mem_filterMap.mp (mem_of_dictGet h)
  split at heq
  · cases heq
  · split_ifs at heq
    obtain rfl := (Prod.mk.inj (Option.some.inj heq)).2
    exact ⟨product.id, rfl⟩

theorem resolveSale_eq_none {orders : Table Order.id} {movements : List DatedMovement}
    {period : Period} (h : NothingToLookUp orders movements period) (products : Table Product.id)
    {m : DatedMovement} (hm : m ∈ fetchMovements movements period) :
    resolveSale (skuToProductId products (saleRows movements period))
      (itemsByOrder orders (saleRows movements period)) m = .ok none := by
  by_cases hsale : isSale m = true
  · rw [resolveSale, if_pos hsale]
    cases hproduct : dictGet (skuToProductId products (saleRows movements period)) m.sku with
    | none => rfl
    | some productId =>
        cases hitems : dictGet (itemsByOrder orders (saleRows movements period))
            (m.sourceId.getD "") with
        | none => rfl
        | some items =>
            obtain ⟨id, rfl⟩ := exists_text_of_dictGet hproduct
            obtain ⟨order, horder, hsource, rfl⟩ := mem_of_dictGet_itemsByOrder hitems
            obtain ⟨hreason, hne⟩ := of_decide_eq_true hsale
            have hsome : m.sourceId = some order.id.text := by
              cases hid : m.sourceId with
              | none => simp [hid] at hne
              | some text => rw [← hsource, hid]; rfl
            rw [fetchMovements, List.mem_insertionSort, List.mem_filter] at hm
            have hof : SaleOf m order := by
              constructor
              · exact hreason
              · rw [hsome]
                exact readUuid_text _
            have hno := nameNoProduct_iff.mp ((h m hm.1 hm.2 order horder hof).2 hsome) id
            simp only [Option.getD_some]
            cases hiter : order.items.iter with
            | error e => rw [hiter] at hno; cases hno
            | ok elements =>
                rw [hiter] at hno
                change matched id.text elements = .ok none at hno
                change (matched id.text elements >>= _) = _
                rw [hno]
                rfl
  · rw [resolveSale, if_neg hsale]

/-- Where one product has the sku of a row and the row has no price, the order of the row
does not name that product. -/
theorem of_resolveSale_eq_none {orders : Table Order.id} {rows : List DatedMovement}
    {m : DatedMovement} (hm : m ∈ rows) (hsale : isSale m = true) (product : Product)
    (hsku : product.sku = some m.sku) {order : Order} (horder : order ∈ orders.rows)
    (hsource : m.sourceId = some order.id.text)
    (h : resolveSale (skuToProductId (Table.empty.put product) rows) (itemsByOrder orders rows) m =
      .ok none) :
    (do matched product.id.text (← order.items.iter)) = Except.ok none := by
  have hproduct : dictGet (skuToProductId (Table.empty.put product) rows) m.sku =
      some product.id.text := by
    have hmem : m.sku ∈ rows.map fun m => m.sku := List.mem_map.mpr ⟨m, hm, rfl⟩
    have hentries : skuToProductId (Table.empty.put product) rows =
        [(m.sku, product.id.text)] := by
      change List.filterMap _ [product] = _
      simp only [List.filterMap_cons, hsku, if_pos hmem, List.filterMap_nil]
    rw [hentries]
    simp [dictGet]
  rw [resolveSale, if_pos hsale, hproduct, dictGet_itemsByOrder hm horder hsource] at h
  simp only [Option.getD_some] at h
  cases hiter : order.items.iter with
  | error e => rw [hiter] at h; cases h
  | ok elements =>
      rw [hiter] at h
      change (matched product.id.text elements >>= _) = _ at h
      change matched product.id.text elements = _
      cases hmatched : matched product.id.text elements with
      | error e => rw [hmatched] at h; cases h
      | ok found =>
          cases found with
          | none => rfl
          | some fields =>
              rw [hmatched] at h
              change (saleOf m fields >>= _) = _ at h
              cases hsaleOf : saleOf m fields with
              | error e => rw [hsaleOf] at h; cases h
              | ok sale => rw [hsaleOf] at h; cases h

/-! ## The length of an export -/

theorem length_writeField_le (field : List Char) : field.length ≤ (Csv.writeField field).length := by
  have hdouble : field.length ≤
      (field.flatMap fun c => if c = '"' then ['"', '"'] else [c]).length := by
    rw [List.length_flatMap]
    induction field with
    | nil => simp
    | cons c rest ih =>
        rw [List.map_cons, List.sum_cons, List.length_cons]
        split <;> simp only [List.length_cons, List.length_nil] <;> omega
  unfold Csv.writeField
  split
  · simp only [List.length_append, List.length_cons]
    omega
  · exact le_refl _

theorem length_writeField_int_pos (n : Int) :
    0 < (Csv.writeField (Csv.Cell.int n).str.toList).length := by
  apply lt_of_lt_of_le _ (length_writeField_le _)
  change 0 < (toString n).toList.length
  rw [Int.toString_eq_repr, Int.repr_eq_if, String.length_toList]
  split
  · exact Nat.length_repr_pos
  · rw [String.length_append]
    exact Nat.add_pos_left (by decide) _

theorem length_writeRow (cell cell' : Csv.Cell) (rest : List Csv.Cell) :
    (Csv.writeRow (cell :: cell' :: rest)).length =
      ((cell :: cell' :: rest).map fun cell => (Csv.writeField cell.str.toList).length + 1).sum +
        1 := by
  have hlong : (cell :: cell' :: rest).map Csv.Cell.str ≠ [""] := by simp
  rw [Csv.writeRow, if_neg hlong, List.map_cons, intercalate_cons]
  simp only [List.length_append, List.length_flatten, List.map_map, List.length_cons,
    List.map_cons, List.sum_cons, List.length_nil, Function.comp_def]
  omega

/-- A row with a price is longer than one without. -/
theorem length_detailRow_lt (m : DatedMovement) (sale : Sale) :
    (Csv.writeRow (detailRow m none)).length < (Csv.writeRow (detailRow m (some sale))).length := by
  have hblank : (Csv.writeField (Csv.Cell.text "").str.toList).length = 0 := rfl
  have hprice := length_writeField_int_pos sale.priceRub
  have hamount := length_writeField_int_pos sale.saleAmount
  rw [detailRow, detailRow, length_writeRow, length_writeRow]
  simp only [List.map_cons, List.sum_cons, List.map_nil, List.sum_nil, Option.map_none,
    Option.map_some, Option.getD_none, Option.getD_some]
  omega

theorem length_detailRow_le (m : DatedMovement) (sale : Option Sale) :
    (Csv.writeRow (detailRow m none)).length ≤ (Csv.writeRow (detailRow m sale)).length := by
  cases sale with
  | none => exact le_refl _
  | some sale => exact (length_detailRow_lt m sale).le

theorem length_summary_le (dailyTotals : List (String × Int)) (grandTotal : Int) :
    ((summary [] 0).flatMap Csv.writeRow).length ≤
      ((summary dailyTotals grandTotal).flatMap Csv.writeRow).length := by
  have hzero : (Csv.writeField (Csv.Cell.int 0).str.toList).length = 1 := rfl
  have hpos := length_writeField_int_pos grandTotal
  have hlast : (Csv.writeRow [.text "Grand total", .int 0]).length ≤
      (Csv.writeRow [.text "Grand total", .int grandTotal]).length := by
    rw [length_writeRow, length_writeRow]
    simp only [List.map_cons, List.sum_cons, List.map_nil, List.sum_nil]
    omega
  simp only [summary, List.flatMap_cons, List.flatMap_append, List.length_append,
    List.insertionSort_nil, List.map_nil, List.nil_append, List.cons_append, List.flatMap_nil,
    List.length_nil]
  omega

/-- The details of rows none of which has a price. -/
def blank (rows : List DatedMovement) : List Detail :=
  rows.map fun m => (m, none)

theorem length_exportText (details : List Detail) :
    (exportText details).toList.length = (Csv.writeRow header).length +
      (details.map fun d => (Csv.writeRow (detailRow d.1 d.2)).length).sum +
        ((summary (reported details).dailyTotals (reported details).grandTotal).flatMap
          Csv.writeRow).length := by
  rw [exportText, Csv.write, String.toList_ofList, List.flatMap_append, List.length_append,
    reported, List.flatMap_cons, List.length_append,
    List.length_flatMap (l := details.map _), List.map_map]
  rfl

theorem reported_blank (rows : List DatedMovement) :
    (reported (blank rows)).dailyTotals = [] ∧ (reported (blank rows)).grandTotal = 0 := by
  have hnone : amounts (blank rows) = [] := by simp [amounts, blank]
  simp only [reported, hnone]
  exact ⟨rfl, rfl⟩

/-- An export with a price in it is longer than the one without prices. -/
theorem eq_none_of_exportText_eq {details : List Detail}
    (h : exportText details = exportText (blank (details.map Prod.fst))) :
    ∀ d ∈ details, d.2 = none := by
  intro d hd
  cases hsale : d.2 with
  | none => rfl
  | some sale =>
      exfalso
      obtain ⟨hdaily, hgrand⟩ := reported_blank (details.map Prod.fst)
      have hsummary := length_summary_le (reported details).dailyTotals (reported details).grandTotal
      have hrows : (details.map fun d => (Csv.writeRow (detailRow d.1 none)).length).sum <
          (details.map fun d => (Csv.writeRow (detailRow d.1 d.2)).length).sum := by
        apply List.sum_lt_sum
        · intro d _
          exact length_detailRow_le d.1 d.2
        · exact ⟨d, hd, by rw [hsale]; exact length_detailRow_lt d.1 sale⟩
      have hblank : (blank (details.map Prod.fst)).map
          (fun d => (Csv.writeRow (detailRow d.1 d.2)).length) =
            details.map fun d => (Csv.writeRow (detailRow d.1 none)).length := by
        simp [blank, Function.comp_def]
      have hlength := congrArg (fun text : String => text.toList.length) h
      simp only [length_exportText, hdaily, hgrand, hblank] at hlength
      omega

/-! ## What decides -/

theorem export_blank {products : Table Product.id} {orders : Table Order.id}
    {movements : List DatedMovement} {period : Period}
    (h : ∀ m ∈ fetchMovements movements period,
      resolveSale (skuToProductId products (saleRows movements period))
        (itemsByOrder orders (saleRows movements period)) m = .ok none) :
    exportMovementsCsv products orders movements period =
      .ok (exportText (blank (fetchMovements movements period))) := by
  rw [exportMovementsCsv_eq_ok]
  refine ⟨blank (fetchMovements movements period), by simp [blank, Function.comp_def], ?_, rfl⟩
  intro d hd
  obtain ⟨m, hm, rfl⟩ := List.mem_map.mp hd
  exact h m hm

/-- Without products no row has a price. -/
theorem export_no_products (orders : Table Order.id) (movements : List DatedMovement)
    (period : Period) :
    exportMovementsCsv .empty orders movements period =
      .ok (exportText (blank (fetchMovements movements period))) := by
  apply export_blank
  intro m _
  unfold resolveSale
  split <;> rfl

theorem nameNoProduct_of_kept {orders : Table Order.id} {movements : List DatedMovement}
    {period : Period} (h : PastSalesKept orders movements period) {m : DatedMovement}
    (hm : m ∈ movements) (hcovers : period.covers m = true) {order : Order}
    (horder : order ∈ orders.rows) (hof : SaleOf m order)
    (hsource : m.sourceId = some order.id.text) : NameNoProduct order.items := by
  rw [nameNoProduct_iff]
  intro id
  have hsale : isSale m = true := by
    apply decide_eq_true
    refine ⟨hof.1, ?_⟩
    rw [hsource]
    exact text_ne_empty _
  have hrow : m ∈ saleRows movements period := mem_saleRows.mpr ⟨hm, hcovers, hsale⟩
  let product : Product := ⟨id, "", none, some m.sku, true⟩
  apply of_resolveSale_eq_none hrow hsale product rfl horder hsource
  obtain ⟨text, htext⟩ := h.returns (Table.empty.put product)
  obtain ⟨details, hfst, hall, rfl⟩ := exportMovementsCsv_eq_ok.mp htext
  have hsame : exportText details = exportText (blank (details.map Prod.fst)) := by
    have hind := h.independent (Table.empty.put product) .empty
    rw [htext, export_no_products] at hind
    rw [hfst]
    exact Except.ok.inj hind
  have hmem : m ∈ details.map Prod.fst := by
    rw [hfst]
    exact (List.mem_filter.mp hrow).1
  obtain ⟨d, hd, rfl⟩ := List.mem_map.mp hmem
  rw [hall d hd, eq_none_of_exportText_eq hsame d hd]

/-- The export keeps past sales as they were exactly when no row of it is looked up in the
products. -/
theorem pastSalesKept_iff (orders : Table Order.id) (movements : List DatedMovement)
    (period : Period) :
    PastSalesKept orders movements period ↔ NothingToLookUp orders movements period := by
  constructor
  · intro h m hm hcovers order horder hof
    constructor
    · intro lines hlines
      have hmem : m ∈ fetchMovements movements period := by
        rw [fetchMovements, List.mem_insertionSort, List.mem_filter]
        exact ⟨hm, hcovers⟩
      obtain ⟨line, -, hline⟩ := h.snapshotted .empty (blank (fetchMovements movements period))
        (by simp [blank, Function.comp_def]) (export_no_products orders movements period)
        (m, none) (List.mem_map.mpr ⟨m, hmem, rfl⟩) order horder hof lines hlines
      cases hline
    · exact nameNoProduct_of_kept h hm hcovers horder hof
  · intro h
    have hblank : ∀ products, exportMovementsCsv products orders movements period =
        .ok (exportText (blank (fetchMovements movements period))) := by
      intro products
      apply export_blank
      intro m hm
      exact resolveSale_eq_none h products hm
    constructor
    · intro products products'
      rw [hblank, hblank]
    · intro products
      exact ⟨_, hblank products⟩
    · intro products details hfst _ d hd order horder hof lines hlines
      have hmem : d.1 ∈ fetchMovements movements period := by
        rw [← hfst]
        exact List.mem_map_of_mem hd
      rw [fetchMovements, List.mem_insertionSort, List.mem_filter] at hmem
      exact absurd hlines ((h d.1 hmem.1 hmem.2 order horder hof).1 lines)

/-- When the roll is deleted, the export of its sale loses the price. -/
theorem deleted_roll_loses_price :
    ¬ PastSalesKept (Table.empty.put rollsOrder) [rollsSold] ⟨none, none⟩ := by
  intro h
  have hne : exportMovementsCsv (Table.empty.put rollProduct) (Table.empty.put rollsOrder)
      [rollsSold] ⟨none, none⟩ ≠
        exportMovementsCsv .empty (Table.empty.put rollsOrder) [rollsSold] ⟨none, none⟩ := by
    decide +kernel
  exact hne (h.independent _ _)

end InventoryExport

end Sieshka
