import Sieshka.Python.Values

/-!
# Reading and writing CSV

`csv.reader` of the default dialect over `io.StringIO(text)`: fields are separated by
commas and may be quoted, a quote inside a quoted field is doubled, and a quoted field
may run over the end of a line. `csv.writer` puts quotes only where they are needed.

## Implementation notes

The reader is the state machine of the `csv` module. It is handed one line after another,
and the end of each line as a character of its own. A carriage return ends a row as a
newline does, but only a newline ends a line, so what follows a carriage return in the
same line is refused.
-/

namespace Sieshka

namespace Csv

inductive ReaderState
  | startRecord
  | startField
  | inField
  | inQuotedField
  | quoteInQuotedField
  | eatCrnl
deriving DecidableEq

/-- The reader within a row: the fields it has saved and the one it is at. -/
structure Reader where
  state : ReaderState
  field : List Char
  fields : List String
deriving DecidableEq

/-- The reader between two rows. -/
def start : Reader := { state := .startRecord, field := [], fields := [] }

/-- `csv.field_size_limit()`. -/
def fieldLimit : Nat := 131072

namespace Reader

/-- `parse_save_field`. -/
def saveField (r : Reader) (state : ReaderState) : Reader :=
  { state, field := [], fields := r.fields ++ [String.ofList r.field] }

/-- `parse_add_char`. -/
def addChar (r : Reader) (state : ReaderState) (c : Char) : Except PyError Reader :=
  if fieldLimit ≤ r.field.length then .error (.csvError "field larger than field limit (131072)")
  else .ok { r with state, field := r.field ++ [c] }

/-- The end of a field at the end of a row: `none` is the end of the line. -/
def endRecord (r : Reader) : Option Char → Reader
  | none => r.saveField .startRecord
  | some _ => r.saveField .eatCrnl

/-- A character at the start of a field. -/
def startFieldChar (r : Reader) (c : Char) : Except PyError Reader :=
  if c = '\n' ∨ c = '\r' then .ok (r.endRecord (some c))
  else if c = '"' then .ok { r with state := .inQuotedField }
  else if c = ',' then .ok (r.saveField .startField)
  else r.addChar .inField c

/-- `parse_process_char`: `none` is the end of the line. -/
def processChar (r : Reader) (c : Option Char) : Except PyError Reader :=
  match r.state, c with
  | .startRecord, none => .ok r
  | .startRecord, some c =>
      if c = '\n' ∨ c = '\r' then .ok { r with state := .eatCrnl } else r.startFieldChar c
  | .startField, none => .ok (r.endRecord none)
  | .startField, some c => r.startFieldChar c
  | .inField, none => .ok (r.endRecord none)
  | .inField, some c =>
      if c = '\n' ∨ c = '\r' then .ok (r.endRecord (some c))
      else if c = ',' then .ok (r.saveField .startField)
      else r.addChar .inField c
  | .inQuotedField, none => .ok r
  | .inQuotedField, some c =>
      if c = '"' then .ok { r with state := .quoteInQuotedField }
      else r.addChar .inQuotedField c
  | .quoteInQuotedField, none => .ok (r.endRecord none)
  | .quoteInQuotedField, some c =>
      if c = '"' then r.addChar .inQuotedField c
      else if c = ',' then .ok (r.saveField .startField)
      else if c = '\n' ∨ c = '\r' then .ok (r.endRecord (some c))
      else r.addChar .inField c
  | .eatCrnl, none => .ok { r with state := .startRecord }
  | .eatCrnl, some c =>
      if c = '\n' ∨ c = '\r' then .ok r
      else .error (.csvError ("new-line character seen in unquoted field - " ++
        "do you need to open the file with newline=''?"))

/-- One line, with its end. -/
def processLine (r : Reader) (line : List Char) : Except PyError Reader := do
  let r ← line.foldlM (fun r c => r.processChar (some c)) r
  r.processChar none

end Reader

/-- The lines of `io.StringIO(text)`, each with its newline. -/
def lines : List Char → List (List Char)
  | [] => []
  | c :: rest =>
      if c = '\n' then [c] :: lines rest
      else
        match lines rest with
        | [] => [[c]]
        | line :: others => (c :: line) :: others

/-- `list(reader)`: a row is complete when the reader is back at its start, and the end of
the text completes a field whose quotes are open. -/
def readRows (r : Reader) : List (List Char) → Except PyError (List (List String))
  | [] =>
      if r.field ≠ [] ∨ r.state = .inQuotedField then .ok [(r.saveField .startRecord).fields]
      else .ok []
  | line :: rest => do
      let r ← r.processLine line
      if r.state = .startRecord then
        let rows ← readRows start rest
        return r.fields :: rows
      else readRows r rest

/-- `list(csv.reader(io.StringIO(text)))`. -/
def read (text : String) : Except PyError (List (List String)) :=
  readRows start (lines text.toList)

example : read "a,\"b\"\"c\"\r\nd" = .ok [["a", "b\"c"], ["d"]] := by decide +kernel

example : read "\"a\nb\",\n\n\"c" = .ok [["a\nb", ""], [], ["c"]] := by decide +kernel

/-! ## Writing -/

/-- A value in a row that is written. -/
inductive Cell
  | text (s : String)
  | int (n : Int)
  | bool (b : Bool)
deriving DecidableEq

/-- `str(value)`. -/
def Cell.str : Cell → String
  | text s => s
  | int n => toString n
  | bool true => "True"
  | bool false => "False"

/-- A field, in quotes where something in it would end it. -/
def writeField (field : List Char) : List Char :=
  if field.any fun c => c ∈ [',', '"', '\r', '\n'] then
    '"' :: (field.flatMap fun c => if c = '"' then ['"', '"'] else [c]) ++ ['"']
  else field

/-- `writer.writerow(cells)`; a row of one field that is empty is written as a quoted one. -/
def writeRow (cells : List Cell) : List Char :=
  (if cells.map Cell.str = [""] then ['"', '"']
    else List.intercalate [','] (cells.map fun cell => writeField cell.str.toList)) ++ ['\r', '\n']

/-- What is in the buffer after the rows. -/
def write (rows : List (List Cell)) : String := String.ofList (rows.flatMap writeRow)

example : write [[.text "a,b", .int (-2), .bool true], [], [.text "\""]] =
    "\"a,b\",-2,True\r\n\r\n\"\"\"\"\r\n" := by decide +kernel

end Csv

end Sieshka
