import Sieshka.Python.Values

/-!
# Objects of plain texts

What `json.loads` makes of an object whose keys and values are texts without escapes, as the
payload of a button is. Any other text is left to a decoder of the environment.
-/

namespace Sieshka

/-- The white space of JSON. -/
def isBlank (c : Char) : Bool := c = ' ' || c = '\t' || c = '\n' || c = '\r'

def skipBlank (cs : List Char) : List Char := cs.dropWhile isBlank

/-- A character that stands for itself in a text of JSON. -/
def isPlain (c : Char) : Bool := c ≠ '"' && c ≠ '\\' && 0x20 ≤ c.toNat

/-- A text of plain characters, and what comes after it. -/
def readPlain (cs : List Char) : Option (String × List Char) :=
  match skipBlank cs with
  | '"' :: cs =>
      match cs.dropWhile isPlain with
      | '"' :: rest => some (String.ofList (cs.takeWhile isPlain), rest)
      | _ => none
  | _ => none

/-- A key and its value, and what comes after them. -/
def readPair (cs : List Char) : Option ((String × String) × List Char) :=
  match readPlain cs with
  | some (key, cs) =>
      match skipBlank cs with
      | ':' :: cs => (readPlain cs).map fun value => ((key, value.1), skipBlank value.2)
      | _ => none
  | none => none

/-- The pairs up to the brace that ends the text, within a number of pairs. -/
def readPairs : Nat → List Char → Option (List (String × String))
  | 0, _ => none
  | n + 1, cs =>
      match readPair cs with
      | some (pair, '}' :: rest) => if skipBlank rest = [] then some [pair] else none
      | some (pair, ',' :: rest) => (readPairs n rest).map (pair :: ·)
      | _ => none

/-- The pairs of a text that is an object of plain texts under distinct keys. -/
def readTexts (text : String) : Option (List (String × String)) :=
  match skipBlank text.toList with
  | '{' :: cs => (readPairs cs.length cs).filter fun pairs => (pairs.map Prod.fst).Nodup
  | _ => none

/-- `json.loads`, where `other` decodes all but an object of plain texts. -/
def jsonLoads (other : String → Except PyError Json) (text : String) : Except PyError Json :=
  match readTexts text with
  | some pairs => .ok (.obj (pairs.map fun pair => (pair.1, .str pair.2)))
  | none => other text

/-! ## Reading back what was written -/

/-- The text has no character that JSON escapes. -/
def IsPlainText (s : String) : Prop := ∀ c ∈ s.toList, isPlain c = true

instance (s : String) : Decidable (IsPlainText s) :=
  decidable_of_iff (s.toList.all isPlain = true) List.all_eq_true

/-- A text between quotes. -/
def inQuotes (s : String) : List Char := '"' :: (s.toList ++ ['"'])

theorem readPlain_space (cs : List Char) : readPlain (' ' :: cs) = readPlain cs := rfl

theorem readPlain_quoted {s : String} (h : IsPlainText s) (rest : List Char) :
    readPlain (inQuotes s ++ rest) = some (s, rest) := by
  have hquote : isPlain '"' = false := by decide
  have hdrop : (s.toList ++ '"' :: rest).dropWhile isPlain = '"' :: rest := by
    rw [List.dropWhile_append_of_pos h, List.dropWhile_cons_of_neg (by simp [hquote])]
  have htake : (s.toList ++ '"' :: rest).takeWhile isPlain = s.toList := by
    rw [List.takeWhile_append_of_pos h, List.takeWhile_cons_of_neg (by simp [hquote]),
      List.append_nil]
  have hskip : skipBlank (inQuotes s ++ rest) = '"' :: (s.toList ++ '"' :: rest) := by
    rw [inQuotes, List.cons_append, List.append_assoc, List.singleton_append]
    rfl
  simp only [readPlain, hskip, hdrop, htake, String.ofList_toList]

theorem readPair_quoted {key value : String} (hkey : IsPlainText key) (hvalue : IsPlainText value)
    (rest : List Char) : readPair (inQuotes key ++ ':' :: ' ' :: (inQuotes value ++ rest)) =
      some ((key, value), skipBlank rest) := by
  have hcolon : ∀ cs, skipBlank (':' :: cs) = ':' :: cs := fun _ => rfl
  simp only [readPair, readPlain_quoted hkey, hcolon, readPlain_space, readPlain_quoted hvalue,
    Option.map_some]

theorem readPairs_space (n : Nat) (cs : List Char) : readPairs n (' ' :: cs) = readPairs n cs := by
  cases n with
  | zero => rfl
  | succ n => rw [readPairs, readPairs, readPair, readPair, readPlain_space]

/-- A pair before the last. -/
theorem readPairs_cons {key value : String} (hkey : IsPlainText key) (hvalue : IsPlainText value)
    (n : Nat) (rest : List Char) :
    readPairs (n + 1) (inQuotes key ++ ':' :: ' ' :: (inQuotes value ++ ',' :: rest)) =
      (readPairs n rest).map ((key, value) :: ·) := by
  rw [readPairs, readPair_quoted hkey hvalue]
  rfl

/-- The last pair. -/
theorem readPairs_last {key value : String} (hkey : IsPlainText key) (hvalue : IsPlainText value)
    (n : Nat) :
    readPairs (n + 1) (inQuotes key ++ ':' :: ' ' :: (inQuotes value ++ ['}'])) =
      some [(key, value)] := by
  rw [readPairs, readPair_quoted hkey hvalue]
  rfl

end Sieshka
