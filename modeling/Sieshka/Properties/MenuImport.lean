import Sieshka.Services.MenuImportService
import Sieshka.Traces

/-!
# What the parser makes of a file

Every data row is taken or skipped, unless the file is no CSV or one of its rows, which
would be taken otherwise, has the price `nan` or `inf`: `int` of such a number raises, and
the loop does not catch it.
-/

namespace Sieshka

namespace MenuImportService

variable (P : TextFunctions) (categories : List Category) (existing : List MenuProduct)
  (columns : List (Column × Nat))

/-! ## The specification -/

/-- The name in a data row. -/
def nameOf (raw : List String) : String := strip (cell columns raw .name)

/-- The name in a data row, normalized. -/
def normOf (raw : List String) : String := normalize P (nameOf columns raw)

/-- A price that can be taken: none, or a number that is not negative. -/
def Priced (priceRaw : String) : Prop :=
  priceRaw = "" ∨ ∃ q, P.float priceRaw = some (.value q) ∧ 0 ≤ q

/-- A price that `float` reads and `int` does not, without being negative. -/
def Endless (priceRaw : String) : Prop :=
  priceRaw ≠ "" ∧ (P.float priceRaw = some .nan ∨ P.float priceRaw = some (.inf false))

/-- The row names a product, which no two products are meant by, and a known category. -/
structure Named (raw : List String) : Prop where
  name : nameOf columns raw ≠ ""
  unambiguous : existing.countP (fun p => normalize P p.name = normOf P columns raw) ≤ 1
  category : ∃ categoryId,
    categoryOf P categories (strip (cell columns raw .category)) = some categoryId

/-- The row can be taken, unless one before it has its name. -/
structure Sound (raw : List String) : Prop extends Named P categories existing columns raw where
  price : Priced P (strip (cell columns raw .price_rub))

/-- The row would be taken after the rows before it, and has an endless price. -/
structure Fatal (before : List (List String)) (raw : List String) : Prop
    extends Named P categories existing columns raw where
  price : Endless P (strip (cell columns raw .price_rub))
  fresh : ∀ earlier ∈ before, Sound P categories existing columns earlier →
    normOf P columns earlier ≠ normOf P columns raw

/-- The row as it is to be written. -/
structure Reads (raw : List String) (row : ProductRow) : Prop where
  name : row.name = nameOf columns raw
  category : categoryOf P categories (strip (cell columns raw .category)) = some row.categoryId
  price : priceOf P (strip (cell columns raw .price_rub)) = .ok (some row.priceRub)
  description : row.description = orNone (strip (cell columns raw .description))
  imageUrl : row.imageUrl = orNone (strip (cell columns raw .image_url))
  active : row.isActive = row.priceRub.isSome

/-- Every data row, the first of which has the number `n`, is in one of the two results,
in the order of the file. -/
inductive Partition : Nat → List (List String) → List ProductRow → List SkippedRow → Prop
  | nil {n} : Partition n [] [] []
  | taken {n raw rest row validRows skipped} (hrow : Reads P categories columns raw row)
      (h : Partition (n + 1) rest validRows skipped) :
      Partition n (raw :: rest) (row :: validRows) skipped
  | skipped {n raw rest skip validRows skipped} (hnum : skip.rowNum = n)
      (h : Partition (n + 1) rest validRows skipped) :
      Partition n (raw :: rest) validRows (skip :: skipped)

/-- A row that may be written. -/
structure ProductRow.Valid (row : ProductRow) : Prop where
  name : row.name ≠ ""
  price : ∀ n ∈ row.priceRub, 0 ≤ n
  active : row.isActive = true ↔ row.priceRub.isSome = true

/-- What is to hold of the result of parsing. -/
structure Parsed (n : Nat) (rows : List (List String)) (validRows : List ProductRow)
    (skipped : List SkippedRow) : Prop where
  partition : Partition P categories columns n rows validRows skipped
  valid : ∀ row ∈ validRows, row.Valid
  distinct : (validRows.map fun row => normalize P row.name).Nodup

/-- No row, after the rows before it, is fatal. -/
def NoFatal (before rows : List (List String)) : Prop :=
  ∀ mid raw after, rows = mid ++ raw :: after →
    ¬ Fatal P categories existing columns (before ++ mid) raw

/-- The rows of the text are parsed into the two results. -/
def Reported (text : String) (validRows : List ProductRow) (skipped : List SkippedRow) : Prop :=
  ∃ rawRows, Csv.read (withoutMark text) = .ok rawRows ∧
    Parsed P categories (colIndex P (rawRows.headD [])) 2 rawRows.tail validRows skipped

/-- The text is a CSV file without a fatal row. -/
def Readable (text : String) : Prop :=
  ∃ rawRows, Csv.read (withoutMark text) = .ok rawRows ∧
    NoFatal P categories existing (colIndex P (rawRows.headD [])) [] rawRows.tail

variable {P categories existing columns} {existing' : List MenuProduct}

/-! ## One row -/

/-- What a price comes to. -/
inductive PriceOutcome (P : TextFunctions) (priceRaw : String) :
    Except PyError (Option (Option Int)) → Prop
  | taken {price} (h : Priced P priceRaw) (hprice : ∀ n ∈ price, 0 ≤ n) :
      PriceOutcome P priceRaw (.ok (some price))
  | invalid (h : ¬ Priced P priceRaw) (hendless : ¬ Endless P priceRaw) :
      PriceOutcome P priceRaw (.ok none)
  | raised {e} (hendless : Endless P priceRaw) : PriceOutcome P priceRaw (.error e)

theorem priceOf_outcome (priceRaw : String) :
    PriceOutcome P priceRaw (priceOf P priceRaw) := by
  by_cases hblank : priceRaw = ""
  · rw [priceOf, if_pos hblank]
    exact .taken (Or.inl hblank) (by simp)
  · rw [priceOf, if_neg hblank]
    cases hfloat : P.float priceRaw with
    | none => exact .invalid (by simp [Priced, hblank, hfloat]) (by simp [Endless, hfloat])
    | some num =>
        cases num with
        | value q =>
            by_cases hq : q < 0
            · have hnot : ¬ Priced P priceRaw := by simp [Priced, hblank, hfloat, hq]
              simpa [PyFloat.negative, hq] using
                PriceOutcome.invalid hnot (by simp [Endless, hfloat])
            · have hq' : 0 ≤ q := not_lt.mp hq
              have hnum : ∀ n ∈ some (truncated q), 0 ≤ n := by
                intro n hn
                obtain rfl : truncated q = n := by simpa using hn
                exact Int.tdiv_nonneg (Rat.num_nonneg.mpr hq') (Int.natCast_nonneg _)
              simpa [PyFloat.negative, PyFloat.toInt, Except.map, hq] using
                PriceOutcome.taken (Or.inr ⟨q, hfloat, hq'⟩) hnum
        | nan => exact .raised ⟨hblank, Or.inl hfloat⟩
        | inf negative =>
            cases negative with
            | false => exact .raised ⟨hblank, Or.inr hfloat⟩
            | true => exact .invalid (by simp [Priced, hblank, hfloat]) (by simp [Endless, hfloat])

theorem not_priced_of_endless {priceRaw : String} (h : Endless P priceRaw) :
    ¬ Priced P priceRaw := by
  rintro (hblank | ⟨q, hq, -⟩)
  · exact h.1 hblank
  · rcases h.2 with h | h <;> simp [h] at hq

/-- What a data row comes to. -/
inductive RowOutcome (P : TextFunctions) (categories : List Category)
    (existing : List MenuProduct) (columns : List (Column × Nat)) (norms : List String) (n : Nat)
    (raw : List String) : Except PyError (ProductRow ⊕ SkippedRow) → Prop
  | taken {row} (hfresh : normOf P columns raw ∉ norms)
      (hsound : Sound P categories existing columns raw) (hreads : Reads P categories columns raw row)
      (hvalid : row.Valid) : RowOutcome P categories existing columns norms n raw (.ok (.inl row))
  | skipped {skip} (hnum : skip.rowNum = n)
      (h : normOf P columns raw ∈ norms ∨ ¬ Sound P categories existing columns raw ∧
        ¬ (Named P categories existing columns raw ∧
          Endless P (strip (cell columns raw .price_rub)))) :
      RowOutcome P categories existing columns norms n raw (.ok (.inr skip))
  | raised {e} (hfresh : normOf P columns raw ∉ norms)
      (hnamed : Named P categories existing columns raw)
      (hendless : Endless P (strip (cell columns raw .price_rub))) :
      RowOutcome P categories existing columns norms n raw (.error e)

theorem validateRow_outcome (P : TextFunctions) (categories : List Category)
    (existing : List MenuProduct) (columns : List (Column × Nat)) (norms : List String) (n : Nat)
    (raw : List String) :
    RowOutcome P categories existing columns norms n raw
      (validateRow P categories existing columns norms n raw) := by
  have hunnamed : ∀ {skip : SkippedRow}, skip.rowNum = n →
      ¬ Named P categories existing columns raw →
      RowOutcome P categories existing columns norms n raw (.ok (.inr skip)) := by
    intro skip hnum hnot
    exact .skipped hnum (Or.inr ⟨fun h => hnot h.toNamed, fun h => hnot h.1⟩)
  unfold validateRow
  dsimp only
  split_ifs with hname hcount hdup
  · exact hunnamed rfl fun h => h.name hname
  · exact hunnamed rfl fun h => absurd h.unambiguous (Nat.not_le.mpr hcount)
  · exact .skipped rfl (Or.inl hdup)
  · cases hcategory : categoryOf P categories (strip (cell columns raw .category)) with
    | none =>
        refine hunnamed rfl fun h => ?_
        obtain ⟨categoryId, hsome⟩ := h.category
        rw [hcategory] at hsome
        cases hsome
    | some categoryId =>
        have hnamed : Named P categories existing columns raw :=
          ⟨hname, Nat.not_lt.mp hcount, categoryId, hcategory⟩
        have hout := priceOf_outcome (P := P) (strip (cell columns raw .price_rub))
        cases hprice : priceOf P (strip (cell columns raw .price_rub)) with
        | error e =>
            rw [hprice] at hout
            cases hout with
            | raised hendless => exact .raised hdup hnamed hendless
        | ok result =>
            rw [hprice] at hout
            cases hout with
            | taken hpriced hnum =>
                exact .taken hdup ⟨hnamed, hpriced⟩ ⟨rfl, hcategory, hprice, rfl, rfl, rfl⟩
                  ⟨hname, hnum, Iff.rfl⟩
            | invalid hnot hendless =>
                exact .skipped rfl (Or.inr ⟨fun h => hnot h.price, fun h => hendless h.2⟩)

/-! ## The loop -/

theorem noFatal_cons {before rest : List (List String)} {raw : List String} :
    NoFatal P categories existing columns before (raw :: rest) ↔
      ¬ Fatal P categories existing columns before raw ∧
        NoFatal P categories existing columns (before ++ [raw]) rest :=
  forall_split_cons fun before raw => ¬ Fatal P categories existing columns before raw

/-- The loop after a row: the result of the row is put before those of the others. -/
theorem validateRows_cons (norms : List String) (n : Nat) (raw : List String)
    (rest : List (List String)) :
    validateRows P categories existing columns norms n (raw :: rest) =
      match validateRow P categories existing columns norms n raw with
      | .error e => .error e
      | .ok (.inl row) =>
          (validateRows P categories existing columns (normalize P row.name :: norms) (n + 1)
            rest).map fun r => (row :: r.1, r.2)
      | .ok (.inr skip) =>
          (validateRows P categories existing columns norms (n + 1) rest).map
            fun r => (r.1, skip :: r.2) := by
  rw [validateRows]
  rcases validateRow P categories existing columns norms n raw with e | row | skip
  · rfl
  · cases validateRows P categories existing columns (normalize P row.name :: norms) (n + 1)
        rest <;> simp [bind, Except.bind, Except.map, pure, Except.pure]
  · cases validateRows P categories existing columns norms (n + 1) rest <;>
      simp [bind, Except.bind, Except.map, pure, Except.pure]

theorem map_eq_ok {α β : Type} {x : Except PyError α} {f : α → β} {b : β} :
    x.map f = .ok b ↔ ∃ a, x = .ok a ∧ f a = b := by
  cases x <;> simp [Except.map]

theorem exists_map_eq_ok {α β : Type} {x : Except PyError α} {f : α → β} :
    (∃ b, x.map f = .ok b) ↔ ∃ a, x = .ok a := by
  simp [map_eq_ok]

/-- When the loop ends, every row is in one of the results, and no two rows that were
taken have one name. -/
theorem validateRows_parsed {norms : List String} {n : Nat} {rows : List (List String)}
    {validRows : List ProductRow} {skipped : List SkippedRow}
    (h : validateRows P categories existing columns norms n rows = .ok (validRows, skipped)) :
    Parsed P categories columns n rows validRows skipped ∧
      ∀ row ∈ validRows, normalize P row.name ∉ norms := by
  induction rows generalizing norms n validRows skipped with
  | nil =>
      obtain ⟨rfl, rfl⟩ : validRows = [] ∧ skipped = [] := by
        simpa [validateRows, pure, Except.pure, eq_comm] using h
      exact ⟨⟨.nil, by simp, by simp⟩, by simp⟩
  | cons raw rest ih =>
      rw [validateRows_cons] at h
      have hout := validateRow_outcome P categories existing columns norms n raw
      generalize validateRow P categories existing columns norms n raw = out at h hout
      cases hout with
      | @taken row hfresh hsound hreads hvalid =>
          obtain ⟨⟨validRows', skipped'⟩, hrest, heq⟩ := map_eq_ok.mp h
          obtain ⟨rfl, rfl⟩ := Prod.mk.inj heq
          obtain ⟨⟨hpart, hall, hnodup⟩, hnew⟩ := ih hrest
          have hname : normalize P row.name ∉ norms := by
            rw [hreads.name]
            exact hfresh
          have hapart : normalize P row.name ∉ validRows'.map fun row => normalize P row.name := by
            intro hmem
            obtain ⟨row', hmem, heq⟩ := List.mem_map.mp hmem
            exact hnew row' hmem (heq ▸ List.mem_cons_self)
          refine ⟨⟨.taken hreads hpart, ?_, ?_⟩, ?_⟩
          · exact List.forall_mem_cons.mpr ⟨hvalid, hall⟩
          · exact List.nodup_cons.mpr ⟨hapart, hnodup⟩
          · refine List.forall_mem_cons.mpr ⟨hname, ?_⟩
            intro row' hmem hold
            exact hnew row' hmem (List.mem_cons_of_mem _ hold)
      | @skipped skip hnum _ =>
          obtain ⟨⟨validRows', skipped'⟩, hrest, heq⟩ := map_eq_ok.mp h
          obtain ⟨rfl, rfl⟩ := Prod.mk.inj heq
          obtain ⟨⟨hpart, hall, hnodup⟩, hnew⟩ := ih hrest
          exact ⟨⟨.skipped hnum hpart, hall, hnodup⟩, hnew⟩
      | raised => cases h

/-- The names that were taken are those of the sound rows so far. -/
def Taken (P : TextFunctions) (categories : List Category) (existing : List MenuProduct)
    (columns : List (Column × Nat)) (before : List (List String)) (norms : List String) : Prop :=
  ∀ x, x ∈ norms ↔
    ∃ earlier ∈ before, Sound P categories existing columns earlier ∧ normOf P columns earlier = x

theorem Taken.fatal_iff {before : List (List String)} {norms : List String} {raw : List String}
    (h : Taken P categories existing columns before norms) :
    Fatal P categories existing columns before raw ↔
      normOf P columns raw ∉ norms ∧ Named P categories existing columns raw ∧
        Endless P (strip (cell columns raw .price_rub)) := by
  constructor
  · intro hfatal
    refine ⟨?_, hfatal.toNamed, hfatal.price⟩
    intro hmem
    obtain ⟨earlier, hbefore, hsound, heq⟩ := (h _).mp hmem
    exact hfatal.fresh earlier hbefore hsound heq
  · rintro ⟨hfresh, hnamed, hendless⟩
    refine ⟨hnamed, hendless, ?_⟩
    intro earlier hbefore hsound heq
    exact hfresh ((h _).mpr ⟨earlier, hbefore, hsound, heq⟩)

theorem Taken.append {before : List (List String)} {norms norms' : List String}
    {raw : List String} (h : Taken P categories existing columns before norms)
    (hraw : ∀ x, x ∈ norms' ↔
      x ∈ norms ∨ Sound P categories existing columns raw ∧ normOf P columns raw = x) :
    Taken P categories existing columns (before ++ [raw]) norms' := by
  intro x
  rw [hraw, h x]
  constructor
  · rintro (⟨earlier, hmem, hx⟩ | hx)
    · exact ⟨earlier, List.mem_append_left _ hmem, hx⟩
    · exact ⟨raw, by simp, hx⟩
  · rintro ⟨earlier, hmem, hx⟩
    rcases List.mem_append.mp hmem with hmem | hmem
    · exact Or.inl ⟨earlier, hmem, hx⟩
    · obtain rfl := List.mem_singleton.mp hmem
      exact Or.inr hx

theorem Taken.append_taken {before : List (List String)} {norms : List String}
    {raw : List String} {row : ProductRow} (h : Taken P categories existing columns before norms)
    (hsound : Sound P categories existing columns raw)
    (hreads : Reads P categories columns raw row) :
    Taken P categories existing columns (before ++ [raw]) (normalize P row.name :: norms) := by
  refine h.append fun x => ?_
  rw [hreads.name, List.mem_cons, eq_comm, or_comm]
  simp [hsound, normOf]

theorem Taken.append_skipped {before : List (List String)} {norms : List String}
    {raw : List String} (h : Taken P categories existing columns before norms)
    (hskip : normOf P columns raw ∈ norms ∨ ¬ Sound P categories existing columns raw) :
    Taken P categories existing columns (before ++ [raw]) norms := by
  refine h.append fun x => (or_iff_left_of_imp ?_).symm
  rintro ⟨hsound, rfl⟩
  exact hskip.resolve_right (not_not_intro hsound)

/-- The loop ends exactly when none of its rows is fatal. -/
theorem validateRows_returns_iff {before : List (List String)} {norms : List String} {n : Nat}
    {rows : List (List String)} (h : Taken P categories existing columns before norms) :
    (∃ r, validateRows P categories existing columns norms n rows = .ok r) ↔
      NoFatal P categories existing columns before rows := by
  induction rows generalizing before norms n with
  | nil => simp [validateRows, NoFatal, pure, Except.pure]
  | cons raw rest ih =>
      rw [noFatal_cons, h.fatal_iff, validateRows_cons]
      have hout := validateRow_outcome P categories existing columns norms n raw
      generalize validateRow P categories existing columns norms n raw = out at hout
      cases hout with
      | @taken row hfresh hsound hreads _ =>
          have hnot : ¬ (normOf P columns raw ∉ norms ∧ Named P categories existing columns raw ∧
              Endless P (strip (cell columns raw .price_rub))) :=
            fun hf => not_priced_of_endless hf.2.2 hsound.price
          rw [exists_map_eq_ok, ih (h.append_taken hsound hreads)]
          exact (and_iff_right hnot).symm
      | @skipped skip _ hskip =>
          have hnot : ¬ (normOf P columns raw ∉ norms ∧ Named P categories existing columns raw ∧
              Endless P (strip (cell columns raw .price_rub))) := by
            rintro ⟨hfresh, hfatal⟩
            rcases hskip with hmem | ⟨-, hno⟩
            · exact hfresh hmem
            · exact hno hfatal
          rw [exists_map_eq_ok, ih (h.append_skipped (hskip.imp_right And.left))]
          exact (and_iff_right hnot).symm
      | raised hfresh hnamed hendless => simp [hfresh, hnamed, hendless]

/-- The rows of a file, the header included. -/
def rowsOf (fileBytes : ByteArray) : Except PyError (List (List String)) :=
  decodeUtf8Sig fileBytes >>= Csv.read

theorem rowsOf_toUTF8 (text : String) : rowsOf text.toUTF8 = Csv.read (withoutMark text) := by
  rw [rowsOf, decodeUtf8Sig_toUTF8]
  rfl

/-- Parsing is the loop over the rows after the first one. -/
theorem parseAndValidateCsv_eq (fileBytes : ByteArray) :
    parseAndValidateCsv P categories existing fileBytes =
      rowsOf fileBytes >>= fun rawRows =>
        validateRows P categories existing (colIndex P (rawRows.headD [])) [] 2 rawRows.tail := by
  rw [parseAndValidateCsv, rowsOf]
  cases decodeUtf8Sig fileBytes with
  | error e => rfl
  | ok text =>
      change (Csv.read text >>= _) = (Csv.read text >>= _)
      congr
      funext rawRows
      cases rawRows <;> rfl

theorem parseAndValidateCsv_eq_ok {fileBytes : ByteArray}
    {r : List ProductRow × List SkippedRow} :
    parseAndValidateCsv P categories existing fileBytes = .ok r ↔
      ∃ rawRows, rowsOf fileBytes = .ok rawRows ∧
        validateRows P categories existing (colIndex P (rawRows.headD [])) [] 2 rawRows.tail =
          .ok r := by
  rw [parseAndValidateCsv_eq]
  cases rowsOf fileBytes <;> simp [bind, Except.bind]

/-- Parsing a text returns, with every data row in exactly one of the results, exactly when
the text is a CSV file without a fatal row. -/
theorem parse_iff (P : TextFunctions) (categories : List Category) (existing : List MenuProduct)
    (text : String) :
    (∃ validRows skipped,
      parseAndValidateCsv P categories existing text.toUTF8 = .ok (validRows, skipped) ∧
        Reported P categories text validRows skipped) ↔
      Readable P categories existing text := by
  have hnone : ∀ columns, Taken P categories existing columns [] [] := by
    intro columns x
    simp
  constructor
  · rintro ⟨validRows, skipped, hparse, -⟩
    obtain ⟨rawRows, hread, hloop⟩ := parseAndValidateCsv_eq_ok.mp hparse
    rw [rowsOf_toUTF8] at hread
    exact ⟨rawRows, hread, (validateRows_returns_iff (hnone _)).mp ⟨_, hloop⟩⟩
  · rintro ⟨rawRows, hread, hfatal⟩
    obtain ⟨⟨validRows, skipped⟩, hloop⟩ :=
      (validateRows_returns_iff (n := 2) (hnone _)).mpr hfatal
    have hparse := parseAndValidateCsv_eq_ok.mpr
      ⟨rawRows, (rowsOf_toUTF8 text).trans hread, hloop⟩
    exact ⟨validRows, skipped, hparse, rawRows, hread, (validateRows_parsed hloop).1⟩

/-! ## A sample -/

/-- A Python on ASCII texts, with floats that are small whole numbers or `nan`. -/
def asciiTextFunctions : TextFunctions where
  lower := asciiLower
  float text := if text = "nan" then some .nan else (readInt 10 text.toList).map fun n => .value n

/-- A product whose price is no number aborts the import. -/
theorem nan_price_aborts :
    ¬ ∀ (P : TextFunctions) categories existing (text : String),
      ∃ validRows skipped,
        parseAndValidateCsv P categories existing text.toUTF8 = .ok (validRows, skipped) ∧
          Reported P categories text validRows skipped := by
  intro hall
  obtain ⟨validRows, skipped, hparse, -⟩ := hall asciiTextFunctions [] [] "name,price\ntea,nan\n"
  obtain ⟨rawRows, hread, hloop⟩ := parseAndValidateCsv_eq_ok.mp hparse
  rw [rowsOf_toUTF8] at hread
  have hrows : Csv.read (withoutMark "name,price\ntea,nan\n") =
      .ok [["name", "price"], ["tea", "nan"]] := by
    decide +kernel
  obtain rfl := Except.ok.inj (hrows.symm.trans hread)
  have herror : validateRows asciiTextFunctions [] [] [(.name, 0), (.price_rub, 1)] [] 2
      [["tea", "nan"]] = .error (.valueError "cannot convert float NaN to integer") := by
    decide +kernel
  have hcolumns : colIndex asciiTextFunctions ["name", "price"] =
      [(.name, 0), (.price_rub, 1)] := by
    decide +kernel
  simp only [List.headD_cons, List.tail_cons, hcolumns, herror] at hloop
  cases hloop

end MenuImportService

end Sieshka
