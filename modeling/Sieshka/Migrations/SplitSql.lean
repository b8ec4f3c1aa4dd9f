import Sieshka.Python.Text

/-!
# `split_sql_statements`

The scanner that cuts a migration script into statements: a loop over the text with a
mode and a buffer.
-/

namespace Sieshka

namespace SplitSql

/-- Where the scanner is: `in_line`, `in_block`, `in_single`, `in_double`, `dollar_tag`, of
which one at most is set. -/
inductive Mode
  | plain
  | line
  | block
  | single
  | double
  | dollar (tag : List Char)
deriving DecidableEq

/-- `[A-Za-z_]`. -/
def tagStart (c : Char) : Bool := ('A' ≤ c && c ≤ 'Z') || ('a' ≤ c && c ≤ 'z') || c = '_'

/-- `[A-Za-z0-9_]`. -/
def tagChar (c : Char) : Bool := tagStart c || ('0' ≤ c && c ≤ '9')

/-- `_DOLLAR_TAG.match` behind the dollar sign. -/
@[grind =] def dollarTag (rest : List Char) : Option (List Char) :=
  let name := rest.takeWhile tagChar
  if name.head?.all tagStart && (rest.drop name.length).head? = some '$' then
    some ('$' :: (name ++ ['$']))
  else none

/-- The statement in a buffer, if there is one. -/
@[grind =] def statement (buf : List Char) : List String :=
  let stmt := strip (String.ofList buf)
  if stmt = "" then [] else [stmt]

/-- The loop of `split_sql_statements` on what is left of the text. -/
@[grind =] def splitLoop (mode : Mode) (buf : List Char) : List Char → List String
  | [] => statement buf
  | ch :: rest =>
      match mode with
      | .line => splitLoop (if ch = '\n' then .plain else .line) (buf ++ [ch]) rest
      | .block =>
          if ch = '*' ∧ rest.head? = some '/' then splitLoop .plain (buf ++ [ch]) rest.tail
          else splitLoop .block (buf ++ [ch]) rest
      | .single =>
          if ch = '\'' then
            if rest.head? = some '\'' then splitLoop .single (buf ++ [ch, '\'']) rest.tail
            else splitLoop .plain (buf ++ [ch]) rest
          else splitLoop .single (buf ++ [ch]) rest
      | .double =>
          if ch = '"' then
            if rest.head? = some '"' then splitLoop .double (buf ++ [ch, '"']) rest.tail
            else splitLoop .plain (buf ++ [ch]) rest
          else splitLoop .double (buf ++ [ch]) rest
      | .dollar tag =>
          if ch = '$' ∧ tag <+: ch :: rest then
            splitLoop .plain (buf ++ tag) (rest.drop (tag.length - 1))
          else splitLoop (.dollar tag) (buf ++ [ch]) rest
      | .plain =>
          if ch = '-' ∧ rest.head? = some '-' then
            splitLoop .line (buf ++ [ch, '-']) rest.tail
          else if ch = '/' ∧ rest.head? = some '*' then
            splitLoop .block (buf ++ [ch, '*']) rest.tail
          else if ch = '\'' then splitLoop .single (buf ++ [ch]) rest
          else if ch = '"' then splitLoop .double (buf ++ [ch]) rest
          else if ch = '$' then
            match dollarTag rest with
            | some tag => splitLoop (.dollar tag) (buf ++ tag) (rest.drop (tag.length - 1))
            | none => splitLoop .plain (buf ++ [ch]) rest
          else if ch = ';' then statement buf ++ splitLoop .plain [] rest
          else splitLoop .plain (buf ++ [ch]) rest
termination_by text => text.length
decreasing_by
  all_goals simp only [List.length_cons, List.length_drop, List.length_tail]
  all_goals omega

/-- `split_sql_statements`. -/
def splitSqlStatements (sql : String) : List String := splitLoop .plain [] sql.toList

end SplitSql

end Sieshka
