import Sieshka.Properties.NumberTexts

/-!
# The texts of a value

Between brackets, a value's text is found again in whatever it stands in. So two values that
are written by two programs have the same text where everything in them has.
-/

namespace Sieshka

open MaxWebappAuth

namespace ZaloEvents

/-! ## The specification -/

/-- A code point that is written alike in the strings of an object. -/
def plainChar (c : CodePoint) : Bool := c.val < 0x7f || surrogate c

/-- A code point that is written alike in the strings of a list. -/
def plainReprChar (printable : CodePoint → Bool) (c : CodePoint) : Bool :=
  c.val ∈ [0x09, 0x0a, 0x0d] || (0x20 ≤ c.val && c.val < 0x7f) || surrogate c ||
    (0x7f < c.val && printable c)

def plainStr (s : Text) : Bool := s.all plainChar

/-- Python writes a string of a list with double quotes only for the sake of a single one. -/
def plainReprStr (printable : CodePoint → Bool) (s : Text) : Bool :=
  s.contains (codePoint '\'') && !s.contains (codePoint '"') && s.all (plainReprChar printable)

namespace Value

mutual

/-- A value that `json.dumps` and `JSON.stringify` write alike. -/
def plain : Value → Bool
  | null => true
  | bool _ => true
  | int n => plainInt n
  | float _ coefficient exponent => plainSize (floatSize coefficient exponent)
  | str s => plainStr s
  | arr items => plainItems items
  | obj fields =>
      decide (fields.Pairwise fun a b => rank a.1 ≤ rank b.1) && plainFields fields

def plainItems : List Value → Bool
  | [] => true
  | item :: items => item.plain && plainItems items

def plainFields : List (Text × Value) → Bool
  | [] => true
  | (key, value) :: fields => plainStr key && value.plain && plainFields fields

end

/-- A value that `repr` and `JSON.stringify` write alike: `None`, `True` and `False` are not,
and neither is what has a space behind a comma or a colon. -/
def plainRepr (printable : CodePoint → Bool) : Value → Bool
  | null => false
  | bool _ => false
  | int n => plainInt n
  | float _ coefficient exponent => plainSize (floatSize coefficient exponent)
  | str s => plainReprStr printable s
  | arr [] => true
  | arr [item] => item.plainRepr printable
  | arr (_ :: _ :: _) => false
  | obj fields => fields.isEmpty

/-- Induction over what is in a value. -/
@[elab_as_elim, induction_eliminator]
theorem induct {motive : Value → Prop} (null : motive null) (bool : ∀ b, motive (bool b))
    (int : ∀ n, motive (int n))
    (float : ∀ negative coefficient exponent, motive (float negative coefficient exponent))
    (str : ∀ s, motive (str s))
    (arr : ∀ items, (∀ item ∈ items, motive item) → motive (arr items))
    (obj : ∀ fields, (∀ field ∈ fields, motive field.2) → motive (obj fields)) (v : Value) :
    motive v := by
  apply @Value.rec motive (fun items => ∀ item ∈ items, motive item)
    (fun fields => ∀ field ∈ fields, motive field.2) (fun field => motive field.2)
    null bool int float str arr obj
  case nil => simp
  case cons =>
    intro item items hitem hitems
    exact List.forall_mem_cons.mpr ⟨hitem, hitems⟩
  case nil => simp
  case cons =>
    intro field fields hfield hfields
    exact List.forall_mem_cons.mpr ⟨hfield, hfields⟩
  case mk => exact fun _ _ hvalue => hvalue

theorem writeItems_eq (S : Style) (items : List Value) :
    writeItems S items = items.map (write S) := by
  induction items with
  | nil => rfl
  | cons item items ih => rw [writeItems, ih, List.map_cons]

theorem writeFields_eq (S : Style) (fields : List (Text × Value)) :
    writeFields S fields = fields.map fun field => (field.1, field.2.write S) := by
  induction fields with
  | nil => rfl
  | cons field fields ih => rw [writeFields, ih, List.map_cons]

theorem plainItems_iff (items : List Value) :
    plainItems items = true ↔ ∀ item ∈ items, item.plain = true := by
  induction items with
  | nil => simp [plainItems]
  | cons item items ih => simp [plainItems, ih]

theorem plainFields_iff (fields : List (Text × Value)) :
    plainFields fields = true ↔
      ∀ field ∈ fields, plainStr field.1 = true ∧ field.2.plain = true := by
  induction fields with
  | nil => simp [plainFields]
  | cons field fields ih => simp [plainFields, ih]

end Value

/-! ## Characters -/

theorem val_codePoint (c : Char) : (codePoint c).val = c.toNat := by
  have hlt : c.toNat < 0x110000 := by
    rcases c.valid with h | h
    · exact lt_trans h (by norm_num)
    · exact h.2
  exact Nat.mod_eq_of_lt hlt

theorem codePoint_injective : Function.Injective codePoint := by
  intro c d h
  have hval := congrArg Fin.val h
  rw [val_codePoint, val_codePoint] at hval
  exact Char.toNat_inj.mp hval

theorem eq_codePoint_iff {c : CodePoint} {d : Char} : c = codePoint d ↔ c.val = d.toNat := by
  rw [Fin.ext_iff, val_codePoint]

/-- A character that may stand in a number or a name. -/
def safe (c : Char) : Bool := c.isAlphanum || c = '-' || c = '+' || c = '.'

theorem toNat_of_safe {c : Char} (h : safe c = true) :
    (0x30 ≤ c.toNat ∧ c.toNat ≤ 0x39) ∨ (0x41 ≤ c.toNat ∧ c.toNat ≤ 0x5a) ∨
      (0x61 ≤ c.toNat ∧ c.toNat ≤ 0x7a) ∨ c.toNat ∈ [0x2b, 0x2d, 0x2e] := by
  have hletter : c.isAlpha = (decide (c.val ≥ 'A'.val ∧ c.val ≤ 'Z'.val) ||
      (decide (c.val ≥ 'a'.val) && decide (c.val ≤ 'z'.val))) := rfl
  simp only [safe, Char.isAlphanum, hletter, Char.isDigit,
    Bool.or_eq_true, Bool.and_eq_true, decide_eq_true_eq, ge_iff_le, UInt32.le_iff_toNat_le] at h
  rcases h with (((((h | h) | h) | rfl) | rfl) | rfl)
  · exact Or.inr (Or.inl h)
  · exact Or.inr (Or.inr (Or.inl h))
  · exact Or.inl h
  · decide
  · decide
  · decide

theorem safe_of_isDigit {c : Char} (h : c.isDigit = true) : safe c = true := by
  simp [safe, Char.isAlphanum, h]

theorem all_safe_toDigits (n : ℕ) : (Nat.toDigits 10 n).all safe = true := by
  apply List.all_eq_true.mpr
  intro c hc
  exact safe_of_isDigit (isDigit_of_mem_toDigits hc)

theorem all_safe_zeros (n : ℤ) : (zeros n).all safe = true := by
  apply List.all_eq_true.mpr
  intro c hc
  rw [List.eq_of_mem_replicate hc]
  decide

theorem all_safe_signed {negative : Bool} {size : List Char} (h : size.all safe = true) :
    (signed negative size).all safe = true := by
  cases negative with
  | false => exact h
  | true => exact Bool.and_eq_true_iff.mpr ⟨by decide, h⟩

theorem all_safe_exponential {digits : List Char} (h : digits.all safe = true) (power : ℤ)
    (width : ℕ) : (exponential digits power width).all safe = true := by
  have hmantissa : (mantissa digits).all safe = true := by
    match digits, h with
    | [], _ => rfl
    | [c], h => exact h
    | c :: c' :: rest, h =>
        simp only [mantissa, List.all_cons, Bool.and_eq_true] at h ⊢
        exact ⟨h.1, by decide, h.2⟩
  have hsign : safe (if power < 0 then '-' else '+') = true := by
    split_ifs <;> decide
  have hzeros (k : ℕ) : (List.replicate k '0').all safe = true := all_safe_zeros k
  simp only [exponential, List.all_append, List.all_cons, hmantissa, hsign, hzeros,
    all_safe_toDigits]
  decide

theorem all_safe_fixed {digits : List Char} (h : digits.all safe = true) (n : ℤ) :
    (fixed digits n).all safe = true := by
  have htake : (digits.take n.toNat).all safe = true := by
    apply List.all_eq_true.mpr
    intro c hc
    exact List.all_eq_true.mp h c (List.mem_of_mem_take hc)
  have hdrop : (digits.drop n.toNat).all safe = true := by
    apply List.all_eq_true.mpr
    intro c hc
    exact List.all_eq_true.mp h c (List.mem_of_mem_drop hc)
  unfold fixed
  split_ifs
  · simp only [List.all_cons, List.all_append, all_safe_zeros, h]
    decide
  · simp only [List.all_cons, List.all_append, htake, hdrop]
    decide

theorem all_safe_decimal (d : Doubles.Decimal) :
    (reprDecimal d).all safe = true ∧ (jsDecimal d).all safe = true := by
  have hdigits : d.digits.all safe = true := all_safe_toDigits d.coefficient
  have hwhole : (d.digits ++ zeros (d.point - d.digits.length)).all safe = true := by
    rw [List.all_append, hdigits, all_safe_zeros]
    rfl
  constructor
  · unfold reprDecimal
    split_ifs
    · exact all_safe_exponential hdigits _ _
    · rw [List.all_append, hwhole]
      decide
    · exact all_safe_fixed hdigits _
  · unfold jsDecimal
    split_ifs
    · exact hwhole
    · exact all_safe_fixed hdigits _
    · exact all_safe_exponential hdigits _ _

theorem decimal_ne_nil (d : Doubles.Decimal) : reprDecimal d ≠ [] ∧ jsDecimal d ≠ [] := by
  have hdigits : d.digits ≠ [] := Nat.toDigits_ne_nil
  have hexponential (power : ℤ) (width : ℕ) : exponential d.digits power width ≠ [] := by
    simp [exponential]
  have hfixed : fixed d.digits d.point ≠ [] := by
    unfold fixed
    split_ifs <;> simp
  constructor
  · unfold reprDecimal
    split_ifs
    · exact hexponential _ _
    · simp
    · exact hfixed
  · unfold jsDecimal
    split_ifs
    · simp [hdigits]
    · exact hfixed
    · exact hexponential _ _

/-- A number or a name. -/
structure Word (t : List Char) : Prop where
  safe : t.all safe = true
  ne_nil : t ≠ []

theorem Word.signed {size : List Char} (h : Word size) (negative : Bool) :
    Word (ZaloEvents.signed negative size) := by
  refine ⟨all_safe_signed h.safe, ?_⟩
  cases negative with
  | false => exact h.ne_nil
  | true => exact List.cons_ne_nil _ _

theorem word_intText (n : ℤ) : Word (intText n) :=
  Word.signed ⟨all_safe_toDigits _, Nat.toDigits_ne_nil⟩ _

theorem word_reprFloat (negative : Bool) (size : Doubles.Magnitude) :
    Word (reprFloat negative size) := by
  cases size with
  | zero => exact Word.signed ⟨by decide, by decide⟩ negative
  | finite d => exact Word.signed ⟨(all_safe_decimal d).1, (decimal_ne_nil d).1⟩ negative
  | infinite => exact Word.signed ⟨by decide, by decide⟩ negative

theorem word_dumpsFloat (negative : Bool) (size : Doubles.Magnitude) :
    Word (dumpsFloat negative size) := by
  cases size with
  | zero => exact word_reprFloat negative .zero
  | finite d => exact word_reprFloat negative (.finite d)
  | infinite => exact Word.signed ⟨by decide, by decide⟩ negative

theorem word_jsNumber (negative : Bool) (size : Doubles.Magnitude) :
    Word (jsNumber negative size) := by
  cases size with
  | zero => exact ⟨rfl, List.cons_ne_nil _ _⟩
  | finite d => exact Word.signed ⟨(all_safe_decimal d).2, (decimal_ne_nil d).2⟩ negative
  | infinite => exact Word.signed ⟨by decide, by decide⟩ negative

theorem word_stringifyNumber (negative : Bool) (size : Doubles.Magnitude) :
    Word (stringifyNumber negative size) := by
  cases size with
  | zero => exact word_jsNumber negative .zero
  | finite d => exact word_jsNumber negative (.finite d)
  | infinite => exact ⟨rfl, List.cons_ne_nil _ _⟩

/-! ## Values between brackets -/

/-- The characters that a value's text is read by. -/
def marks : Marks CodePoint where
  opens c := c.val = 0x5b || c.val = 0x7b
  closes c := c.val = 0x5d || c.val = 0x7d
  quotes c := c.val = 0x22 || c.val = 0x27
  escape := codePoint '\\'
  separates c := c.val = 0x2c || c.val = 0x3a || c.val = 0x20

/-- A text that is found again in front of a bracket, a comma, a colon or a space. -/
def Written (t : Text) : Prop := marks.Whole t ∧ t ≠ []

theorem Word.written {t : List Char} (h : Word t) : Written (chars t) := by
  constructor
  · apply Marks.whole_of_plain
    intro c hc
    obtain ⟨d, hd, rfl⟩ := List.mem_map.mp hc
    have hsafe := toNat_of_safe (List.all_eq_true.mp h.safe d hd)
    simp only [List.mem_cons, List.not_mem_nil, or_false] at hsafe
    simp only [Marks.plain, marks, val_codePoint, Bool.and_eq_true, Bool.not_eq_true',
      Bool.or_eq_false_iff, decide_eq_false_iff_not]
    omega
  · simpa [chars] using h.ne_nil

/-! ## Strings between quotes -/

theorem quoted_hexEscape {quote : CodePoint} (hquote : marks.quotes quote = true) (letter : Char)
    (width n : ℕ) : marks.Quoted quote (hexEscape letter width n) := by
  have hdigits : marks.Quoted quote (chars (hexDigits width n)) := by
    apply Marks.quoted_of_plain
    intro c hc
    obtain ⟨d, hd, rfl⟩ := List.mem_map.mp hc
    obtain ⟨k, hk, rfl⟩ := mem_hexDigits hd
    simp only [marks, Bool.or_eq_true, decide_eq_true_eq] at hquote
    constructor
    · simp only [marks, ne_eq, codePoint_injective.eq_iff]
      interval_cases k <;> decide
    · rintro rfl
      rw [val_codePoint] at hquote
      revert hquote
      interval_cases k <;> decide
  have hescape := (Marks.quoted_escape (M := marks) quote (codePoint letter)).append hdigits
  exact hescape

theorem quoted_letter (quote : CodePoint) (letter : Char) :
    marks.Quoted quote (chars ['\\', letter]) :=
  Marks.quoted_escape (M := marks) quote (codePoint letter)

theorem ne_of_shortEscape {c : CodePoint} (h : shortEscape c = none) :
    c ≠ codePoint '\\' ∧ c ≠ codePoint '"' := by
  constructor
  · rintro rfl
    cases h
  · rintro rfl
    cases h

theorem quoted_raw {quote c : CodePoint} (hescape : c ≠ codePoint '\\') (hquote : c ≠ quote) :
    marks.Quoted quote [c] := by
  apply Marks.quoted_of_plain
  intro d hd
  rw [List.mem_singleton.mp hd]
  exact ⟨hescape, hquote⟩

theorem quotes_double : marks.quotes (codePoint '"') = true := by decide

theorem quotes_single : marks.quotes (codePoint '\'') = true := by decide

theorem quoted_dumpsChar (c : CodePoint) : marks.Quoted (codePoint '"') (dumpsChar c) := by
  unfold dumpsChar
  split
  · exact quoted_letter _ _
  case h_2 hshort =>
    obtain ⟨hescape, hquote⟩ := ne_of_shortEscape hshort
    split_ifs
    · exact quoted_raw hescape hquote
    · exact quoted_hexEscape quotes_double _ _ _
    · exact (quoted_hexEscape quotes_double _ _ _).append (quoted_hexEscape quotes_double _ _ _)

theorem quoted_stringifyChar (c : CodePoint) :
    marks.Quoted (codePoint '"') (stringifyChar c) := by
  unfold stringifyChar
  split
  · exact quoted_letter _ _
  case h_2 hshort =>
    obtain ⟨hescape, hquote⟩ := ne_of_shortEscape hshort
    split_ifs
    · exact quoted_hexEscape quotes_double _ _ _
    · exact quoted_raw hescape hquote

theorem quoted_ite {quote : CodePoint} {p : Prop} [Decidable p] {t t' : Text}
    (h : marks.Quoted quote t) (h' : marks.Quoted quote t') :
    marks.Quoted quote (if p then t else t') := by
  by_cases hp : p
  · rwa [if_pos hp]
  · rwa [if_neg hp]

theorem quoted_reprChar (printable : CodePoint → Bool) {quote : CodePoint}
    (hquote : marks.quotes quote = true) (c : CodePoint) :
    marks.Quoted quote (reprChar printable quote c) := by
  unfold reprChar
  by_cases hspecial : c = quote ∨ c = codePoint '\\'
  · rw [if_pos hspecial]
    exact Marks.quoted_escape (M := marks) quote c
  · rw [if_neg hspecial]
    have hraw : marks.Quoted quote [c] :=
      quoted_raw (fun h => hspecial (Or.inr h)) (fun h => hspecial (Or.inl h))
    have hhex (letter : Char) (width : ℕ) : marks.Quoted quote (hexEscape letter width c.val) :=
      quoted_hexEscape hquote letter width c.val
    apply quoted_ite (quoted_letter _ _)
    apply quoted_ite (quoted_letter _ _)
    apply quoted_ite (quoted_letter _ _)
    apply quoted_ite (hhex 'x' 2)
    apply quoted_ite hraw
    apply quoted_ite hraw
    apply quoted_ite (hhex 'x' 2)
    exact quoted_ite (hhex 'u' 4) (hhex 'U' 8)

theorem written_quoted {quote : CodePoint} (hquote : marks.quotes quote = true) {body : Text}
    (h : marks.Quoted quote body) : Written (quoted quote body) := by
  have hescape : quote ≠ marks.escape := by
    rintro rfl
    revert hquote
    decide
  exact ⟨h.whole hquote hescape, List.cons_ne_nil _ _⟩

theorem written_dumpsStr (s : Text) : Written (dumpsStr s) :=
  written_quoted quotes_double (Marks.Quoted.flatMap quoted_dumpsChar s)

theorem written_stringifyStr (s : Text) : Written (stringifyStr s) :=
  written_quoted quotes_double (Marks.Quoted.flatMap quoted_stringifyChar s)

theorem written_reprStr (printable : CodePoint → Bool) (s : Text) :
    Written (reprStr printable s) := by
  have hquote : marks.quotes (reprQuote s) = true := by
    unfold reprQuote
    split_ifs
    · exact quotes_double
    · exact quotes_single
  exact written_quoted hquote (Marks.Quoted.flatMap (quoted_reprChar printable hquote) s)

/-! ## Styles -/

/-- A style whose values are found again. -/
structure Style.Sound (S : Style) : Prop where
  null : Written (chars S.null)
  bool : ∀ b, Written (chars (S.bool b))
  int : ∀ n, Written (chars (S.int n))
  float : ∀ negative size, Written (chars (S.float negative size))
  str : ∀ s, Written (S.str s)
  comma : marks.Inner (chars S.comma)
  colon : marks.Inner (chars S.colon)
  order : ∀ fields, ∀ field ∈ S.order fields, field ∈ fields

theorem inner_chars {t : List Char} (h : ∀ c ∈ t, c = ',' ∨ c = ':' ∨ c = ' ') :
    marks.Inner (chars t) := by
  induction t with
  | nil => exact Marks.inner_nil
  | cons c t ih =>
      have hc : marks.Inner [codePoint c] := by
        rcases h c List.mem_cons_self with rfl | rfl | rfl
        · exact Marks.inner_separator (by decide) (by decide) (by decide)
        · exact Marks.inner_separator (by decide) (by decide) (by decide)
        · exact Marks.inner_separator (by decide) (by decide) (by decide)
      exact hc.append (ih fun d hd => h d (List.mem_cons_of_mem _ hd))

theorem written_bracketed {opening closing : Char} {separator : List Char} {texts : List Text}
    (hopening : marks.opens (codePoint opening) = true)
    (hclosing : marks.closes (codePoint closing) = true)
    (hsep : marks.Inner (chars separator)) (h : ∀ text ∈ texts, marks.Inner text) :
    Written (bracketed opening closing separator texts) := by
  have hunquoted : marks.quotes (codePoint opening) = false := by
    simp only [marks, Bool.or_eq_true, decide_eq_true_eq, Bool.or_eq_false_iff,
      decide_eq_false_iff_not] at hopening ⊢
    omega
  have hother : marks.quotes (codePoint closing) = false ∧
      marks.opens (codePoint closing) = false := by
    simp only [marks, Bool.or_eq_true, decide_eq_true_eq, Bool.or_eq_false_iff,
      decide_eq_false_iff_not] at hclosing ⊢
    omega
  have hbody := Marks.Inner.intercalate hsep h
  exact ⟨hbody.whole hopening hunquoted hclosing hother.1 hother.2, List.cons_ne_nil _ _⟩

theorem Value.written_write {S : Style} (hS : S.Sound) (v : Value) : Written (v.write S) := by
  induction v with
  | null => exact hS.null
  | bool b => exact hS.bool b
  | int n => exact hS.int n
  | float negative coefficient exponent => exact hS.float negative _
  | str s => exact hS.str s
  | arr items ih =>
      rw [write, writeItems_eq]
      apply written_bracketed (by decide) (by decide) hS.comma
      intro text htext
      obtain ⟨item, hitem, rfl⟩ := List.mem_map.mp htext
      exact (ih item hitem).1.inner
  | obj fields ih =>
      rw [write, writeFields_eq]
      apply written_bracketed (by decide) (by decide) hS.comma
      intro text htext
      obtain ⟨entry, hentry, rfl⟩ := List.mem_map.mp htext
      obtain ⟨field, hfield, rfl⟩ := List.mem_map.mp (hS.order _ entry hentry)
      have hkey := (hS.str field.1).1.inner
      have hvalue := (ih field hfield).1.inner
      exact hkey.append (hS.colon.append hvalue)

theorem mem_jsOrder {field : Text × Text} {fields : List (Text × Text)} :
    field ∈ jsOrder fields ↔ field ∈ fields :=
  List.mem_insertionSort _

theorem sound_dumpsStyle : dumpsStyle.Sound where
  null := Word.written ⟨by decide, by decide⟩
  bool b := by cases b <;> exact Word.written ⟨by decide, by decide⟩
  int n := (word_intText n).written
  float negative size := (word_dumpsFloat negative size).written
  str := written_dumpsStr
  comma := inner_chars (t := [',']) (by simp)
  colon := inner_chars (t := [':']) (by simp)
  order _ _ h := h

theorem sound_reprStyle (printable : CodePoint → Bool) : (reprStyle printable).Sound where
  null := Word.written ⟨rfl, List.cons_ne_nil _ _⟩
  bool b := by cases b <;> exact Word.written ⟨rfl, List.cons_ne_nil _ _⟩
  int n := (word_intText n).written
  float negative size := (word_reprFloat negative size).written
  str := written_reprStr printable
  comma := inner_chars (t := [',', ' ']) (by simp)
  colon := inner_chars (t := [':', ' ']) (by simp)
  order _ _ h := h

theorem sound_stringifyStyle : stringifyStyle.Sound where
  null := Word.written ⟨by decide, by decide⟩
  bool b := by cases b <;> exact Word.written ⟨by decide, by decide⟩
  int n := (word_stringifyNumber _ _).written
  float negative size := (word_stringifyNumber negative size).written
  str := written_stringifyStr
  comma := inner_chars (t := [',']) (by simp)
  colon := inner_chars (t := [':']) (by simp)
  order _ _ h := mem_jsOrder.mp h

/-! ## Strings that are written alike -/

theorem mem_of_shortEscape {c : CodePoint} {letter : Char} (h : shortEscape c = some letter) :
    (c.val, letter) ∈ [(0x22, '"'), (0x5c, '\\'), (0x08, 'b'), (0x09, 't'), (0x0a, 'n'),
      (0x0c, 'f'), (0x0d, 'r')] := by
  unfold shortEscape at h
  split_ifs at h with hquote hescape
  · rw [hquote, val_codePoint, ← Option.some.inj h]
    decide
  · rw [hescape, val_codePoint, ← Option.some.inj h]
    decide
  all_goals
    obtain rfl := Option.some.inj h
    simp_all

/-- A raw character, against an escape. -/
theorem apart_escape {c : CodePoint} (h : c ≠ codePoint '\\') (letter : Char) (width n : ℕ)
    (more : Text) : Apart (hexEscape letter width n ++ more) [c] :=
  Apart.of_head h.symm

theorem compares_dumpsChar (c : CodePoint) :
    (plainChar c = true ∧ dumpsChar c = stringifyChar c) ∨
      (plainChar c = false ∧ Apart (dumpsChar c) (stringifyChar c)) := by
  cases hshort : shortEscape c with
  | some letter =>
      left
      have hval := mem_of_shortEscape hshort
      simp only [List.mem_cons, Prod.mk.injEq, List.not_mem_nil, or_false] at hval
      constructor
      · simp only [plainChar, Bool.or_eq_true, decide_eq_true_eq]
        omega
      · simp only [dumpsChar, stringifyChar, hshort]
  | none =>
      obtain ⟨hescape, -⟩ := ne_of_shortEscape hshort
      simp only [dumpsChar, stringifyChar, hshort, plainChar, surrogate, Bool.or_eq_true,
        Bool.and_eq_true, decide_eq_true_eq, Bool.or_eq_false_iff, Bool.and_eq_false_iff,
        decide_eq_false_iff_not]
      by_cases hascii : 0x20 ≤ c.val ∧ c.val ≤ 0x7e
      · left
        rw [if_pos hascii, if_neg (by omega)]
        exact ⟨by omega, rfl⟩
      · rw [if_neg hascii]
        by_cases hboth : c.val < 0x20 ∨ 0xd800 ≤ c.val ∧ c.val < 0xe000
        · left
          rw [if_pos hboth, if_pos (by omega)]
          exact ⟨by omega, rfl⟩
        · right
          rw [if_neg hboth]
          refine ⟨by omega, ?_⟩
          split_ifs
          · simpa using apart_escape hescape 'u' 4 c.val []
          · exact apart_escape hescape _ _ _ _

theorem dumpsStr_eq_iff (s : Text) : dumpsStr s = stringifyStr s ↔ plainStr s = true := by
  simp only [dumpsStr, stringifyStr, quoted, List.cons.injEq, true_and, List.append_left_inj]
  exact Apart.flatMap_eq_iff compares_dumpsChar s

theorem shortEscape_of_not_mem {c : CodePoint}
    (h : c.val ∉ [0x08, 0x09, 0x0a, 0x0c, 0x0d, 0x22, 0x5c]) : shortEscape c = none := by
  simp only [List.mem_cons, List.not_mem_nil, or_false, not_or] at h
  have hquote : c ≠ codePoint '"' := fun heq => h.2.2.2.2.2.1 (eq_codePoint_iff.mp heq)
  have hescape : c ≠ codePoint '\\' := fun heq => h.2.2.2.2.2.2 (eq_codePoint_iff.mp heq)
  simp [shortEscape, hquote, hescape, h]

/-- Two escapes with different letters. -/
theorem apart_letters {letter letter' : Char} (hne : letter ≠ letter') (text text' : List Char) :
    Apart (chars ('\\' :: letter :: text)) (chars ('\\' :: letter' :: text')) :=
  ((Apart.of_head hne).cons '\\').map codePoint_injective

/-- In Python a control character without a letter has two digits. -/
theorem compares_control {printable : CodePoint → Bool} {c : CodePoint}
    (hlt : c.val < 0x20) (hletter : c.val ∉ [0x09, 0x0a, 0x0d]) :
    Apart (reprChar printable (codePoint '"') c) (stringifyChar c) := by
  simp only [List.mem_cons, List.not_mem_nil, or_false, not_or] at hletter
  have hspecial : ¬ (c = codePoint '"' ∨ c = codePoint '\\') := by
    rw [eq_codePoint_iff, eq_codePoint_iff]
    rintro (h | h) <;> rw [h] at hlt <;> revert hlt <;> decide
  have hrepr : reprChar printable (codePoint '"') c = hexEscape 'x' 2 c.val := by
    rw [reprChar, if_neg hspecial, if_neg hletter.1, if_neg hletter.2.1, if_neg hletter.2.2,
      if_pos (Or.inl hlt)]
  rw [hrepr]
  unfold stringifyChar
  cases hshort : shortEscape c with
  | none =>
      dsimp only
      rw [if_pos (Or.inl hlt)]
      exact apart_letters (by decide) _ _
  | some letter =>
      apply apart_letters
      rintro rfl
      have hmem := mem_of_shortEscape hshort
      simp at hmem

theorem compares_reprChar (printable : CodePoint → Bool) (c : CodePoint) :
    (plainReprChar printable c = true ∧
        reprChar printable (codePoint '"') c = stringifyChar c) ∨
      (plainReprChar printable c = false ∧
        Apart (reprChar printable (codePoint '"') c) (stringifyChar c)) := by
  by_cases hletter : c ∈ ['\t', '\n', '\r', '"', '\\'].map codePoint
  · left
    simp only [List.map_cons, List.map_nil, List.mem_cons, List.not_mem_nil, or_false] at hletter
    rcases hletter with rfl | rfl | rfl | rfl | rfl <;> exact ⟨rfl, rfl⟩
  simp only [List.map_cons, List.map_nil, List.mem_cons, List.not_mem_nil, or_false,
    eq_codePoint_iff, not_or] at hletter
  obtain ⟨htab, hnewline, hreturn, hquote, hescape⟩ := hletter
  have hraw : c ≠ codePoint '\\' := fun h => hescape (eq_codePoint_iff.mp h)
  have hspecial : ¬ (c = codePoint '"' ∨ c = codePoint '\\') := by
    rw [eq_codePoint_iff, eq_codePoint_iff]
    exact not_or.mpr ⟨hquote, hescape⟩
  have hvals : c.val ≠ 0x09 ∧ c.val ≠ 0x0a ∧ c.val ≠ 0x0d := ⟨htab, hnewline, hreturn⟩
  have hdouble : c.val ≠ 0x22 := hquote
  have hback : c.val ≠ 0x5c := hescape
  have hplain : plainReprChar printable c = true ↔
      (0x20 ≤ c.val ∧ c.val < 0x7f ∨ surrogate c = true) ∨ 0x7f < c.val ∧ printable c = true := by
    simp [plainReprChar, hvals, or_assoc]
  have hrepr : reprChar printable (codePoint '"') c =
      if c.val < 0x20 ∨ c.val = 0x7f then hexEscape 'x' 2 c.val
      else if c.val < 0x7f then [c]
      else if printable c && !surrogate c then [c]
      else if c.val < 0x100 then hexEscape 'x' 2 c.val
      else if c.val < 0x10000 then hexEscape 'u' 4 c.val
      else hexEscape 'U' 8 c.val := by
    rw [reprChar, if_neg hspecial, if_neg hvals.1, if_neg hvals.2.1, if_neg hvals.2.2]
  have hescaped (letter : Char) (width : ℕ) : Apart (hexEscape letter width c.val) [c] := by
    simpa using apart_escape hraw letter width c.val []
  have hsurrogate : surrogate c = true ↔ 0xd800 ≤ c.val ∧ c.val < 0xe000 := by
    simp [surrogate]
  by_cases hcontrol : c.val < 0x20
  · right
    refine ⟨Bool.eq_false_iff.mpr fun h => ?_, compares_control hcontrol (by simp [hvals])⟩
    rw [hplain, hsurrogate] at h
    omega
  have hstringify : stringifyChar c = if surrogate c then hexEscape 'u' 4 c.val else [c] := by
    have hshort := shortEscape_of_not_mem (c := c) (by simp; omega)
    simp [stringifyChar, hshort, hcontrol]
  by_cases hlone : surrogate c = true
  · left
    have hrange := hsurrogate.mp hlone
    refine ⟨hplain.mpr (Or.inl (Or.inr hlone)), ?_⟩
    rw [hrepr, hstringify, if_neg (by omega), if_neg (by omega), if_neg (by simp [hlone]),
      if_neg (by omega), if_pos (by omega), if_pos hlone]
  rw [hrepr, hstringify, if_neg hlone]
  by_cases hascii : c.val < 0x7f
  · left
    rw [if_neg (by omega), if_pos hascii]
    exact ⟨hplain.mpr (Or.inl (Or.inl ⟨by omega, hascii⟩)), rfl⟩
  by_cases hshown : 0x7f < c.val ∧ printable c = true
  · left
    rw [if_neg (by omega), if_neg hascii, if_pos (by simp [hshown.2, hlone])]
    exact ⟨hplain.mpr (Or.inr hshown), rfl⟩
  · right
    constructor
    · apply Bool.eq_false_iff.mpr
      intro h
      rcases hplain.mp h with (hrange | hrange) | hrange
      · exact hascii hrange.2
      · exact hlone hrange
      · exact hshown hrange
    · split_ifs with hdelete hprint
      · exact hescaped 'x' 2
      · simp only [Bool.and_eq_true] at hprint
        exact absurd ⟨by omega, hprint.1⟩ hshown
      · exact hescaped 'x' 2
      · exact hescaped 'u' 4
      · exact hescaped 'U' 8

theorem reprStr_eq_iff (printable : CodePoint → Bool) (s : Text) :
    reprStr printable s = stringifyStr s ↔ plainReprStr printable s = true := by
  by_cases hquotes : codePoint '\'' ∈ s ∧ codePoint '"' ∉ s
  · have hquote : reprQuote s = codePoint '"' := if_pos hquotes
    have hchars := Apart.flatMap_eq_iff (compares_reprChar printable) s
    simp only [reprStr, stringifyStr, quoted, hquote, List.cons.injEq, true_and,
      List.append_left_inj, plainReprStr, hchars]
    simp [hquotes]
  · have hquote : reprQuote s = codePoint '\'' := if_neg hquotes
    have hne : codePoint '\'' ≠ codePoint '"' := by decide
    simp only [reprStr, stringifyStr, quoted, hquote, List.cons.injEq, hne, false_and, false_iff,
      plainReprStr]
    simp only [Bool.and_eq_true, Bool.not_eq_true', List.contains_iff_mem]
    intro h
    apply hquotes
    simpa using h.1

/-! ## Keys -/

/-- A text of digits is written as it is. -/
theorem flatMap_of_digits {k : Text} (h : ∀ c ∈ k, 0x30 ≤ c.val ∧ c.val ≤ 0x39) :
    k.flatMap dumpsChar = k ∧ k.flatMap stringifyChar = k := by
  induction k with
  | nil => exact ⟨rfl, rfl⟩
  | cons c k ih =>
      have hc := h c List.mem_cons_self
      have hshort := shortEscape_of_not_mem (c := c) (by simp; omega)
      have hsurrogate : surrogate c = false := by
        simp only [surrogate, Bool.and_eq_false_iff, decide_eq_false_iff_not]
        omega
      have hdumps : dumpsChar c = [c] := by
        simp only [dumpsChar, hshort]
        rw [if_pos (by omega)]
      have hstringify : stringifyChar c = [c] := by
        simp only [stringifyChar, hshort]
        rw [if_neg (by simp [hsurrogate]; omega)]
      obtain ⟨ihd, ihs⟩ := ih fun d hd => h d (List.mem_cons_of_mem _ hd)
      simp [hdumps, hstringify, ihd, ihs]

/-- What is written without an escape is written as it is. -/
theorem eq_of_not_escaped {f : CodePoint → Text}
    (hf : ∀ c, f c = [c] ∨ codePoint '\\' ∈ f c) {k : Text}
    (h : codePoint '\\' ∉ k.flatMap f) : k.flatMap f = k := by
  induction k with
  | nil => rfl
  | cons c k ih =>
      rw [List.flatMap_cons, List.mem_append, not_or] at h
      rcases hf c with hraw | hescaped
      · rw [List.flatMap_cons, hraw, ih h.2]
        rfl
      · exact absurd hescaped h.1

theorem dumpsChar_raw_or (c : CodePoint) :
    dumpsChar c = [c] ∨ codePoint '\\' ∈ dumpsChar c := by
  unfold dumpsChar
  split
  · exact Or.inr List.mem_cons_self
  · split_ifs
    · exact Or.inl rfl
    · exact Or.inr List.mem_cons_self
    · exact Or.inr List.mem_cons_self

theorem stringifyChar_raw_or (c : CodePoint) :
    stringifyChar c = [c] ∨ codePoint '\\' ∈ stringifyChar c := by
  unfold stringifyChar
  split
  · exact Or.inr List.mem_cons_self
  · split_ifs
    · exact Or.inr List.mem_cons_self
    · exact Or.inl rfl

theorem digits_of_arrayIndex {k : Text} {n : ℕ} (h : arrayIndex k = some n) :
    ∀ c ∈ k, 0x30 ≤ c.val ∧ c.val ≤ 0x39 := by
  intro c hc
  unfold arrayIndex at h
  dsimp only at h
  split_ifs at h with hindex
  rw [hindex.2] at hc
  obtain ⟨d, hd, rfl⟩ := List.mem_map.mp hc
  have hdigit := isDigit_of_mem_toDigits hd
  rw [val_codePoint]
  simp only [Char.isDigit, Bool.and_eq_true, decide_eq_true_eq, ge_iff_le,
    UInt32.le_iff_toNat_le] at hdigit
  exact hdigit

theorem not_escaped_of_digits {k : Text} (h : ∀ c ∈ k, 0x30 ≤ c.val ∧ c.val ≤ 0x39) :
    codePoint '\\' ∉ k := by
  intro hmem
  have hrange := h _ hmem
  revert hrange
  decide

/-- Keys with the same text have the same place. -/
theorem rank_eq_of_text {k k' : Text} (h : dumpsStr k = stringifyStr k') : rank k = rank k' := by
  have hbody : k.flatMap dumpsChar = k'.flatMap stringifyChar := by
    simp only [dumpsStr, stringifyStr, quoted, List.cons.injEq, true_and,
      List.append_left_inj] at h
    exact h
  have hkey (hdigits : (∀ c ∈ k, 0x30 ≤ c.val ∧ c.val ≤ 0x39) ∨
      ∀ c ∈ k', 0x30 ≤ c.val ∧ c.val ≤ 0x39) : k = k' := by
    rcases hdigits with hdigits | hdigits
    · rw [(flatMap_of_digits hdigits).1] at hbody
      rw [hbody]
      apply eq_of_not_escaped stringifyChar_raw_or
      rw [← hbody]
      exact not_escaped_of_digits hdigits
    · rw [(flatMap_of_digits hdigits).2] at hbody
      rw [← hbody]
      symm
      apply eq_of_not_escaped dumpsChar_raw_or
      rw [hbody]
      exact not_escaped_of_digits hdigits
  unfold rank
  cases hindex : arrayIndex k with
  | some n => rw [← hkey (Or.inl (digits_of_arrayIndex hindex)), hindex]
  | none =>
      cases hindex' : arrayIndex k' with
      | none => rfl
      | some n =>
          rw [hkey (Or.inr (digits_of_arrayIndex hindex')), hindex'] at hindex
          cases hindex

/-! ## Values that are written alike -/

/-- The same characters, with the fields of an object as the values. -/
def fieldMarks : Marks CodePoint := marks.separatedBy fun c => c.val = 0x2c

theorem whole_member {keyText : Text → Text} {field : Text × Text}
    (hkey : Written (keyText field.1)) (hvalue : Written field.2) :
    fieldMarks.Whole (member keyText [':'] field) ∧ member keyText [':'] field ≠ [] := by
  have hfewer : ∀ c : CodePoint, decide (c.val = 0x2c) = true → marks.separates c = true := by
    intro c hc
    have hval : c.val = 0x2c := of_decide_eq_true hc
    simp [marks, hval]
  have hcolon : fieldMarks.Whole (chars [':']) := by
    apply Marks.whole_of_plain
    intro c hc
    rw [List.mem_singleton.mp hc]
    decide
  constructor
  · exact (hkey.1.separatedBy hfewer).append (hcolon.append (hvalue.1.separatedBy hfewer))
  · exact List.append_ne_nil_of_left_ne_nil hkey.2 _

theorem member_unique {keyText keyText' : Text → Text} {field field' : Text × Text}
    (hkey : Written (keyText field.1)) (hkey' : Written (keyText' field'.1))
    (heq : member keyText [':'] field = member keyText' [':'] field') :
    keyText field.1 = keyText' field'.1 ∧ field.2 = field'.2 := by
  have hcolon : marks.ends (codePoint ':') = true := by decide
  obtain ⟨hsame, -, hvalue⟩ := hkey.1.unique hkey'.1 hcolon hcolon heq
  exact ⟨hsame, hvalue⟩

section Agreement

variable {rest rest' : Text}

theorem items_unique {texts texts' : List Text} (h : ∀ t ∈ texts, Written t)
    (h' : ∀ t ∈ texts', Written t)
    (heq : bracketed '[' ']' [','] texts ++ rest = bracketed '[' ']' [','] texts' ++ rest') :
    texts = texts' ∧ rest = rest' := by
  have hsep : marks.ends (codePoint ',') = true := by decide
  have hclosing : marks.ends (codePoint ']') = true := by decide
  apply Marks.intercalate_unique hsep hclosing (by decide) h h'
  simpa [bracketed, chars] using heq

theorem fields_unique {texts texts' : List Text}
    (h : ∀ t ∈ texts, fieldMarks.Whole t ∧ t ≠ [])
    (h' : ∀ t ∈ texts', fieldMarks.Whole t ∧ t ≠ [])
    (heq : bracketed '{' '}' [','] texts ++ rest = bracketed '{' '}' [','] texts' ++ rest') :
    texts = texts' ∧ rest = rest' := by
  have hsep : fieldMarks.ends (codePoint ',') = true := by decide
  have hclosing : fieldMarks.ends (codePoint '}') = true := by decide
  apply Marks.intercalate_unique hsep hclosing (by decide) h h'
  simpa [bracketed, chars] using heq

theorem map_eq_map_iff_forall₂ {α β γ : Type} {f : α → γ} {g : β → γ} {xs : List α}
    {ys : List β} : xs.map f = ys.map g ↔ List.Forall₂ (fun x y => f x = g y) xs ys := by
  constructor
  · intro h
    have hsame : List.Forall₂ (· = ·) (xs.map f) (ys.map g) := by
      rw [h]
      exact List.forall₂_refl _
    rwa [List.forall₂_map_left_iff, List.forall₂_map_right_iff] at hsame
  · intro h
    induction h with
    | nil => rfl
    | cons hhead htail ih => rw [List.map_cons, List.map_cons, hhead, ih]

theorem jsOrder_eq_self {fields : List (Text × Text)}
    (h : fields.Pairwise fun a b => rank a.1 ≤ rank b.1) : jsOrder fields = fields :=
  List.Pairwise.insertionSort_eq h

theorem pairwise_jsOrder (fields : List (Text × Text)) :
    (jsOrder fields).Pairwise fun a b => rank a.1 ≤ rank b.1 := by
  have htotal : Std.Total fun a b : Text × Text => rank a.1 ≤ rank b.1 :=
    ⟨fun a b => le_total _ _⟩
  have htrans : IsTrans (Text × Text) fun a b => rank a.1 ≤ rank b.1 :=
    ⟨fun _ _ _ h h' => le_trans h h'⟩
  exact List.pairwise_insertionSort _ fields

namespace Value

theorem write_arr (S : Style) (items : List Value) :
    (arr items).write S = bracketed '[' ']' S.comma (items.map (write S)) := by
  rw [write, writeItems_eq]

theorem write_obj_dumps (fields : List (Text × Value)) :
    (obj fields).write dumpsStyle = bracketed '{' '}' [',']
      ((fields.map fun field => (field.1, field.2.write dumpsStyle)).map
        (member dumpsStr [':'])) := by
  rw [write, writeFields_eq]
  rfl

theorem write_obj_repr (printable : CodePoint → Bool) (fields : List (Text × Value)) :
    (obj fields).write (reprStyle printable) = bracketed '{' '}' [',', ' ']
      ((fields.map fun field => (field.1, field.2.write (reprStyle printable))).map
        (member (reprStr printable) [':', ' '])) := by
  rw [write, writeFields_eq]
  rfl

theorem write_obj_stringify (fields : List (Text × Value)) :
    (obj fields).write stringifyStyle = bracketed '{' '}' [',']
      ((jsOrder (fields.map fun field => (field.1, field.2.write stringifyStyle))).map
        (member stringifyStr [':'])) := by
  rw [write, writeFields_eq]
  rfl

theorem written_dumps (v : Value) : Written (v.write dumpsStyle) :=
  written_write sound_dumpsStyle v

theorem written_stringify (v : Value) : Written (v.write stringifyStyle) :=
  written_write sound_stringifyStyle v

/-- The fields of an object, in the order that Python has them. -/
theorem obj_unique {fields : List (Text × Value)}
    (heq : (obj fields).write dumpsStyle ++ rest = (obj fields).write stringifyStyle ++ rest') :
    (fields.Pairwise fun a b => rank a.1 ≤ rank b.1) ∧
      (∀ field ∈ fields, dumpsStr field.1 = stringifyStr field.1 ∧
        field.2.write dumpsStyle = field.2.write stringifyStyle) ∧ rest = rest' := by
  rw [write_obj_dumps, write_obj_stringify] at heq
  obtain ⟨htexts, hrest⟩ := fields_unique (by
    intro text htext
    obtain ⟨entry, hentry, rfl⟩ := List.mem_map.mp htext
    obtain ⟨field, -, rfl⟩ := List.mem_map.mp hentry
    exact whole_member (written_dumpsStr _) (written_dumps _)) (by
    intro text htext
    obtain ⟨entry, hentry, rfl⟩ := List.mem_map.mp htext
    obtain ⟨field, -, rfl⟩ := List.mem_map.mp (mem_jsOrder.mp hentry)
    exact whole_member (written_stringifyStr _) (written_stringify _)) heq
  have hpairs : List.Forall₂ (fun a b => dumpsStr a.1 = stringifyStr b.1 ∧ a.2 = b.2)
      (fields.map fun field => (field.1, field.2.write dumpsStyle))
      (jsOrder (fields.map fun field => (field.1, field.2.write stringifyStyle))) := by
    apply (map_eq_map_iff_forall₂.mp htexts).imp
    intro a b hab
    exact member_unique (written_dumpsStr _) (written_stringifyStr _) hab
  have hranks : fields.map (fun field => rank field.1) =
      (jsOrder (fields.map fun field => (field.1, field.2.write stringifyStyle))).map
        fun field => rank field.1 := by
    rw [List.forall₂_map_left_iff] at hpairs
    exact map_eq_map_iff_forall₂.mpr (hpairs.imp fun a b hab => rank_eq_of_text hab.1)
  have hordered : fields.Pairwise fun a b => rank a.1 ≤ rank b.1 := by
    have hsorted := pairwise_jsOrder
      (fields.map fun field => (field.1, field.2.write stringifyStyle))
    rw [← List.pairwise_map (f := fun field : Text × Text => rank field.1) (R := (· ≤ ·)),
      ← hranks, List.pairwise_map] at hsorted
    exact hsorted
  rw [jsOrder_eq_self (List.pairwise_map.mpr hordered), List.forall₂_map_left_iff,
    List.forall₂_map_right_iff, List.forall₂_same] at hpairs
  exact ⟨hordered, hpairs, hrest⟩

theorem dumps_eq_iff (v : Value) :
    v.write dumpsStyle = v.write stringifyStyle ↔ v.plain = true := by
  induction v with
  | null => exact iff_of_true rfl rfl
  | bool b => exact iff_of_true rfl rfl
  | int n =>
      rw [plain, ← intText_eq_iff]
      exact codePoint_injective.list_map.eq_iff
  | float negative coefficient exponent =>
      rw [plain, ← dumpsFloat_eq_iff negative]
      exact codePoint_injective.list_map.eq_iff
  | str s => exact dumpsStr_eq_iff s
  | arr items ih =>
      rw [plain, plainItems_iff, write_arr, write_arr]
      constructor
      · intro heq item hitem
        have hrest : bracketed '[' ']' [','] (items.map (write dumpsStyle)) ++ [] =
            bracketed '[' ']' [','] (items.map (write stringifyStyle)) ++ [] :=
          congrArg (· ++ []) heq
        obtain ⟨htexts, -⟩ := items_unique
          (List.forall_mem_map.mpr fun item _ => written_dumps item)
          (List.forall_mem_map.mpr fun item _ => written_stringify item) hrest
        exact (ih item hitem).mp (List.map_inj_left.mp htexts item hitem)
      · intro hall
        congr 1
        exact List.map_inj_left.mpr fun item hitem => (ih item hitem).mpr (hall item hitem)
  | obj fields ih =>
      rw [plain, Bool.and_eq_true, decide_eq_true_eq, plainFields_iff]
      constructor
      · intro heq
        have hrest : (obj fields).write dumpsStyle ++ [] =
            (obj fields).write stringifyStyle ++ [] := congrArg (· ++ []) heq
        obtain ⟨hordered, hfields, -⟩ := obj_unique hrest
        refine ⟨hordered, fun field hfield => ?_⟩
        obtain ⟨hkey, hvalue⟩ := hfields field hfield
        exact ⟨(dumpsStr_eq_iff _).mp hkey, (ih field hfield).mp hvalue⟩
      · rintro ⟨hordered, hall⟩
        have hentries : (fields.map fun field => (field.1, field.2.write stringifyStyle)) =
            fields.map fun field => (field.1, field.2.write dumpsStyle) := by
          apply List.map_inj_left.mpr
          intro field hfield
          rw [(ih field hfield).mpr (hall field hfield).2]
        have horder : jsOrder (fields.map fun field => (field.1, field.2.write dumpsStyle)) =
            fields.map fun field => (field.1, field.2.write dumpsStyle) :=
          jsOrder_eq_self (List.pairwise_map.mpr hordered)
        rw [write_obj_dumps, write_obj_stringify, hentries, horder]
        congr 1
        apply List.map_inj_left.mpr
        intro entry hentry
        obtain ⟨field, hfield, rfl⟩ := List.mem_map.mp hentry
        rw [member, member, (dumpsStr_eq_iff field.1).mpr (hall field hfield).1]

variable {printable : CodePoint → Bool}

theorem written_repr (v : Value) : Written (v.write (reprStyle printable)) :=
  written_write (sound_reprStyle printable) v

theorem exists_intercalate_cons (sep text : Text) (others : List Text) :
    ∃ more, sep.intercalate (text :: others) = text ++ more := by
  cases others with
  | nil => exact ⟨[], by simp⟩
  | cons other others =>
      exact ⟨sep ++ sep.intercalate (other :: others), by
        rw [List.intercalate_cons_cons, List.append_assoc]⟩

/-- No value of JavaScript begins with a space. -/
theorem space_ne {t t' : Text} {v : Value} {sep : CodePoint} {more : Text} (ht : Written t)
    (ht' : Written t') (hsep : marks.ends sep = true) :
    t ++ sep :: codePoint ' ' :: rest ≠ t' ++ sep :: (v.write stringifyStyle ++ more) := by
  intro heq
  obtain ⟨-, -, hspace⟩ := ht.1.unique ht'.1 hsep hsep heq
  obtain ⟨hwhole, hne⟩ := written_stringify v
  exact hwhole.not_ends hne (by decide) hspace.symm

/-- A list in Python, whatever follows, is not one in JavaScript unless it has at most one
element, written alike. -/
theorem arr_unique {items : List Value}
    (heq : (arr items).write (reprStyle printable) ++ rest =
      (arr items).write stringifyStyle ++ rest') :
    items = [] ∨ ∃ item, items = [item] ∧
      item.write (reprStyle printable) = item.write stringifyStyle := by
  rw [write_arr, write_arr] at heq
  change bracketed '[' ']' [',', ' '] _ ++ _ = bracketed '[' ']' [','] _ ++ _ at heq
  match items, heq with
  | [], _ => exact Or.inl rfl
  | [item], heq =>
      have hbody : item.write (reprStyle printable) ++ codePoint ']' :: rest =
          item.write stringifyStyle ++ codePoint ']' :: rest' := by
        simpa [bracketed] using heq
      obtain ⟨hsame, -, -⟩ := (written_repr item).1.unique (written_stringify item).1
        (by decide) (by decide) hbody
      exact Or.inr ⟨item, rfl, hsame⟩
  | item :: next :: items, heq =>
      exfalso
      have hbody : item.write (reprStyle printable) ++ codePoint ',' :: codePoint ' ' ::
          ((chars [',', ' ']).intercalate
            ((next :: items).map (write (reprStyle printable))) ++ codePoint ']' :: rest) =
          item.write stringifyStyle ++ codePoint ',' ::
            ((chars [',']).intercalate ((next :: items).map (write stringifyStyle)) ++
              codePoint ']' :: rest') := by
        simpa [bracketed, List.intercalate_cons_cons, chars] using heq
      obtain ⟨more, hmore⟩ := exists_intercalate_cons (chars [',']) (next.write stringifyStyle)
        (items.map (write stringifyStyle))
      rw [List.map_cons, List.map_cons, hmore, List.append_assoc] at hbody
      exact space_ne (written_repr item) (written_stringify item) (by decide) hbody

theorem obj_cons_ne {field : Text × Value} {fields : List (Text × Value)} :
    (obj (field :: fields)).write (reprStyle printable) ++ rest ≠
      (obj (field :: fields)).write stringifyStyle ++ rest' := by
  intro heq
  obtain ⟨entry, entries, horder⟩ : ∃ entry entries, jsOrder ((field :: fields).map
      fun field => (field.1, field.2.write stringifyStyle)) = entry :: entries := by
    apply List.exists_cons_of_length_pos
    rw [jsOrder, List.length_insertionSort, List.length_map]
    exact Nat.succ_pos _
  obtain ⟨first, -, rfl⟩ : ∃ first ∈ field :: fields,
      (first.1, first.2.write stringifyStyle) = entry := by
    apply List.mem_map.mp
    apply mem_jsOrder.mp
    rw [horder]
    exact List.mem_cons_self
  obtain ⟨more, hmore⟩ := exists_intercalate_cons (chars [',', ' '])
    (member (reprStr printable) [':', ' '] (field.1, field.2.write (reprStyle printable)))
    ((fields.map fun field => (field.1, field.2.write (reprStyle printable))).map
      (member (reprStr printable) [':', ' ']))
  obtain ⟨more', hmore'⟩ := exists_intercalate_cons (chars [','])
    (member stringifyStr [':'] (first.1, first.2.write stringifyStyle))
    (entries.map (member stringifyStr [':']))
  have hrepr : (obj (field :: fields)).write (reprStyle printable) ++ rest =
      codePoint '{' :: (reprStr printable field.1 ++ codePoint ':' :: codePoint ' ' ::
        (field.2.write (reprStyle printable) ++ (more ++ codePoint '}' :: rest))) := by
    rw [write_obj_repr, List.map_cons, List.map_cons, bracketed, hmore]
    simp [member, chars]
  have hstringify : (obj (field :: fields)).write stringifyStyle ++ rest' =
      codePoint '{' :: (stringifyStr first.1 ++ codePoint ':' ::
        (first.2.write stringifyStyle ++ (more' ++ codePoint '}' :: rest'))) := by
    rw [write_obj_stringify, horder, List.map_cons, bracketed, hmore']
    simp [member, chars]
  rw [hrepr, hstringify] at heq
  exact space_ne (written_reprStr printable field.1) (written_stringifyStr first.1) (by decide)
    (List.cons.inj heq).2

theorem apart_null (printable : CodePoint → Bool) :
    Apart (null.write (reprStyle printable)) (null.write stringifyStyle) := by
  have hname : Apart "None".toList "null".toList := Apart.of_head (by decide)
  exact hname.map codePoint_injective

theorem apart_bool (printable : CodePoint → Bool) (b : Bool) :
    Apart ((bool b).write (reprStyle printable)) ((bool b).write stringifyStyle) := by
  have hfalse : Apart "False".toList "false".toList := Apart.of_head (by decide)
  have htrue : Apart "True".toList "true".toList := Apart.of_head (by decide)
  cases b with
  | false => exact hfalse.map codePoint_injective
  | true => exact htrue.map codePoint_injective

theorem repr_eq_iff (v : Value) :
    v.write (reprStyle printable) = v.write stringifyStyle ↔ v.plainRepr printable = true := by
  induction v with
  | null => exact iff_of_false (apart_null printable).ne Bool.false_ne_true
  | bool b => exact iff_of_false (apart_bool printable b).ne Bool.false_ne_true
  | int n =>
      rw [plainRepr, ← intText_eq_iff]
      exact codePoint_injective.list_map.eq_iff
  | float negative coefficient exponent =>
      rw [plainRepr, ← reprFloat_eq_iff negative]
      exact codePoint_injective.list_map.eq_iff
  | str s => exact reprStr_eq_iff printable s
  | arr items ih =>
      constructor
      · intro heq
        have hrest : (arr items).write (reprStyle printable) ++ [] =
            (arr items).write stringifyStyle ++ [] := congrArg (· ++ []) heq
        rcases arr_unique hrest with rfl | ⟨item, rfl, hitem⟩
        · rfl
        · exact (ih item List.mem_cons_self).mp hitem
      · intro hplain
        match items, ih, hplain with
        | [], _, _ => rfl
        | [item], ih, hplain =>
            have hitem := (ih item List.mem_cons_self).mpr hplain
            rw [write_arr, write_arr, List.map_singleton, List.map_singleton, hitem, bracketed,
              bracketed, List.intercalate_singleton, List.intercalate_singleton]
  | obj fields ih =>
      cases fields with
      | nil =>
          apply iff_of_true _ rfl
          rw [write_obj_repr, write_obj_stringify]
          rfl
      | cons field fields =>
          apply iff_of_false _ Bool.false_ne_true
          intro heq
          have hrest : (obj (field :: fields)).write (reprStyle printable) ++ [] =
              (obj (field :: fields)).write stringifyStyle ++ [] := congrArg (· ++ []) heq
          exact obj_cons_ne hrest

end Value

end Agreement

end ZaloEvents

end Sieshka
