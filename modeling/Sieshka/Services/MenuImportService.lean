import Sieshka.Python.Csv
import Sieshka.Python.Floats
import Sieshka.Tools.MenuImportTools

/-!
# The menu import

A CSV file is parsed into rows that can be written and rows that are skipped, and the
former are handed to the import tool in one session. The parser compares names without
case and white space, the tool without case only.
-/

namespace Sieshka

/-- `num < 0`. -/
def PyFloat.negative : PyFloat → Bool
  | value q => q < 0
  | nan => false
  | inf negative => negative

/-- `int(num)`. -/
def PyFloat.toInt : PyFloat → Except PyError Int
  | value q => .ok (truncated q)
  | nan => .error (.valueError "cannot convert float NaN to integer")
  | inf _ => .error (.overflowError "cannot convert float infinity to integer")

/-- What the parser leaves to Python. -/
structure TextFunctions where
  /-- `str.lower` -/
  lower : String → String
  /-- `float` of a text; `none` is a `ValueError` -/
  float : String → Option PyFloat

namespace MenuImportService

open Transactions MenuDatabase

/-- A validated row. -/
structure ProductRow where
  name : String
  categoryId : Option Uuid
  priceRub : Option Int
  description : Option String
  imageUrl : Option String
  isActive : Bool
deriving DecidableEq

/-- `model_dump(mode="json")`. -/
def ProductRow.dump (row : ProductRow) : MenuImportTools.ProductRow where
  name := row.name
  categoryId := row.categoryId.map Uuid.text
  priceRub := row.priceRub
  description := row.description
  imageUrl := row.imageUrl
  isActive := row.isActive

structure SkippedRow where
  rowNum : Nat
  nameIfPresent : Option String
  reason : String
deriving DecidableEq

/-- The columns an import knows. -/
inductive Column
  | name
  | category
  | description
  | price_rub
  | image_url
deriving DecidableEq

/-- `_HEADER_ALIASES`. -/
def headerAliases : List (String × Column) :=
  [("name", .name), ("category", .category), ("description", .description),
    ("pricerub", .price_rub), ("price", .price_rub), ("price(rub)", .price_rub),
    ("photourl", .image_url), ("photo", .image_url), ("image", .image_url),
    ("imageurl", .image_url), ("img", .image_url), ("url", .image_url)]

/-- A text without the byte order mark it begins with. -/
def withoutMark (text : String) : String :=
  match text.toList with
  | '\ufeff' :: rest => String.ofList rest
  | _ => text

/-- `file_bytes.decode("utf-8-sig")`. -/
def decodeUtf8Sig (fileBytes : ByteArray) : Except PyError String :=
  match String.fromUTF8? fileBytes with
  | none => .error (.valueError "'utf-8' codec can't decode the file")
  | some text => .ok (withoutMark text)

@[simp] theorem decodeUtf8Sig_toUTF8 (text : String) :
    decodeUtf8Sig text.toUTF8 = .ok (withoutMark text) := by
  have hread : String.fromUTF8? text.toUTF8 = some text := dif_pos text.isValidUTF8
  rw [decodeUtf8Sig, hread]

section Parsing

variable (P : TextFunctions)

/-- `_normalize`. -/
def normalize (value : String) : String :=
  String.ofList ((P.lower value).toList.filter fun c => c.toNat ∉ spaces)

/-- `col_index`. -/
def colIndex (header : List String) : List (Column × Nat) :=
  header.zipIdx.filterMap fun cell =>
    let key := String.ofList ((P.lower (strip cell.1)).toList.filter fun c => c ≠ ' ')
    (dictGet headerAliases key).map fun field => (field, cell.2)

/-- `_get`: the cell of a column; a column or cell that is not there is blank. -/
def cell (columns : List (Column × Nat)) (row : List String) (field : Column) : String :=
  match dictGet columns field with
  | none => ""
  | some idx => row[idx]?.getD ""

/-- The category a text names, by external id or by name. -/
def resolveCategory (categories : List Category) (categoryRaw : String) : Option Uuid :=
  let byExternalId := categories.filterMap fun cat =>
    cat.externalId.map fun externalId => (strip externalId, cat.id)
  let byNormalizedName := categories.map fun cat => (normalize P cat.name, cat.id)
  let resolved :=
    match Json.toInt (.str categoryRaw) with
    | .ok asInt => dictGet byExternalId (toString asInt)
    | .error _ => none
  match resolved with
  | some id => some id
  | none => dictGet byNormalizedName (normalize P categoryRaw)

/-- The category of a row: `none` is an unknown one, a blank cell is no category. -/
def categoryOf (categories : List Category) (categoryRaw : String) : Option (Option Uuid) :=
  if categoryRaw = "" then some none else (resolveCategory P categories categoryRaw).map some

/-- The price of a row: `none` is an invalid one, a blank cell is no price. -/
def priceOf (priceRaw : String) : Except PyError (Option (Option Int)) :=
  if priceRaw = "" then .ok (some none)
  else
    match P.float priceRaw with
    | none => .ok none
    | some num => if num.negative then .ok none else num.toInt.map fun n => some (some n)

/-- `text or None`. -/
def orNone (text : String) : Option String := if text = "" then none else some text

variable (categories : List Category) (existing : List MenuProduct)
  (columns : List (Column × Nat))

/-- The body of the loop: a data row is taken or skipped. `norms` are the normalized names
of the rows that were taken before. -/
def validateRow (norms : List String) (rowNum : Nat) (raw : List String) :
    Except PyError (ProductRow ⊕ SkippedRow) := do
  let name := strip (cell columns raw .name)
  if name = "" then return .inr { rowNum, nameIfPresent := none, reason := "missing name" }
  let existingCount := existing.countP fun p => normalize P p.name = normalize P name
  if 1 < existingCount then
    return .inr { rowNum, nameIfPresent := some name,
                  reason := "ambiguous name match: " ++ toString existingCount ++ " rows" }
  if normalize P name ∈ norms then
    return .inr { rowNum, nameIfPresent := some name,
                  reason := "duplicate name within this file" }
  let categoryRaw := strip (cell columns raw .category)
  match categoryOf P categories categoryRaw with
  | none =>
      return .inr { rowNum, nameIfPresent := some name,
                    reason := "unknown category: " ++ categoryRaw }
  | some categoryId =>
      match ← priceOf P (strip (cell columns raw .price_rub)) with
      | none => return .inr { rowNum, nameIfPresent := some name, reason := "invalid price" }
      | some priceRub =>
          return .inl { name, categoryId, priceRub
                        description := orNone (strip (cell columns raw .description))
                        imageUrl := orNone (strip (cell columns raw .image_url))
                        isActive := priceRub.isSome }

/-- The loop over the data rows. -/
def validateRows (norms : List String) (rowNum : Nat) :
    List (List String) → Except PyError (List ProductRow × List SkippedRow)
  | [] => return ([], [])
  | raw :: rest => do
      match ← validateRow P categories existing columns norms rowNum raw with
      | .inl row =>
          let (validRows, skipped) ←
            validateRows (normalize P row.name :: norms) (rowNum + 1) rest
          return (row :: validRows, skipped)
      | .inr skip =>
          let (validRows, skipped) ← validateRows norms (rowNum + 1) rest
          return (validRows, skip :: skipped)

/-- `parse_and_validate_csv`. -/
def parseAndValidateCsv (fileBytes : ByteArray) :
    Except PyError (List ProductRow × List SkippedRow) := do
  let text ← decodeUtf8Sig fileBytes
  let rawRows ← Csv.read text
  match rawRows with
  | [] => return ([], [])
  | header :: rows => validateRows P categories existing (colIndex P header) [] 2 rows

/-! ## The import -/

end Parsing

end MenuImportService

end Sieshka
