import Mathlib.Data.Nat.Digits.Defs
import Mathlib.Data.List.Basic
import Mathlib.Tactic.IntervalCases

/-!
# Numbers and UUIDs as text

`int(text, base)` and `UUID(text)` as Python 3.12 reads them, the version of the
image, and the text `str` gives a UUID. A UUID written as text is read back as
itself.
-/

namespace Sieshka

/-- The code points of the digit zero in each decimal digit block of Unicode 15.0. -/
def decimalZeros : List Nat :=
  [0x30, 0x660, 0x6f0, 0x7c0, 0x966, 0x9e6, 0xa66, 0xae6, 0xb66, 0xbe6, 0xc66, 0xce6, 0xd66,
    0xde6, 0xe50, 0xed0, 0xf20, 0x1040, 0x1090, 0x17e0, 0x1810, 0x1946, 0x19d0, 0x1a80, 0x1a90,
    0x1b50, 0x1bb0, 0x1c40, 0x1c50, 0xa620, 0xa8d0, 0xa900, 0xa9d0, 0xa9f0, 0xaa50, 0xabf0,
    0xff10, 0x104a0, 0x10d30, 0x11066, 0x110f0, 0x11136, 0x111d0, 0x112f0, 0x11450, 0x114d0,
    0x11650, 0x116c0, 0x11730, 0x118e0, 0x11950, 0x11c50, 0x11d50, 0x11da0, 0x11f50, 0x16a60,
    0x16ac0, 0x16b50, 0x1d7ce, 0x1d7d8, 0x1d7e2, 0x1d7ec, 0x1d7f6, 0x1e140, 0x1e2f0, 0x1e4f0,
    0x1e950, 0x1fbf0]

/-- The code points `int` skips around a number. -/
def intSpaces : List Nat :=
  [0x9, 0xa, 0xb, 0xc, 0xd, 0x20, 0x85, 0xa0, 0x1680, 0x2000, 0x2001, 0x2002, 0x2003, 0x2004,
    0x2005, 0x2006, 0x2007, 0x2008, 0x2009, 0x200a, 0x2028, 0x2029, 0x202f, 0x205f, 0x3000]

/-- The code points `str.isspace` accepts: the four separators too, which `int` refuses. -/
def spaces : List Nat :=
  [0x1c, 0x1d, 0x1e, 0x1f] ++ intSpaces

/-- The value of a decimal digit of any script. -/
def decimalValue (c : Char) : Option Nat :=
  (decimalZeros.find? fun z => z ≤ c.toNat && c.toNat < z + 10).map fun z => c.toNat - z

/-- The value of a digit, letters counting from ten. -/
def digitValue (c : Char) : Option Nat :=
  match decimalValue c with
  | some d => some d
  | none =>
      if 'a' ≤ c && c ≤ 'z' then some (c.toNat - 'a'.toNat + 10)
      else if 'A' ≤ c && c ≤ 'Z' then some (c.toNat - 'A'.toNat + 10)
      else none

/-- `str.strip(chars)`. -/
def stripChars (drop : Char → Bool) (s : List Char) : List Char :=
  ((s.dropWhile drop).reverse.dropWhile drop).reverse

/-- `str.strip()`. -/
def strip (s : String) : String :=
  String.ofList (stripChars (fun c => c.toNat ∈ spaces) s.toList)

/-- The digits of an integer literal, single underscores allowed between them. -/
def readDigits (base : Nat) : Nat → Bool → List Char → Option Nat
  | acc, afterDigit, [] => if afterDigit then some acc else none
  | acc, afterDigit, c :: rest =>
      if c = '_' then
        if afterDigit then readDigits base acc false rest else none
      else
        match digitValue c with
        | some d => if d < base then readDigits base (acc * base + d) true rest else none
        | none => none

/-- The digits after the sign: base sixteen takes an optional `0x`, its zero of any script. -/
def readMagnitude (base : Nat) : List Char → Option Nat
  | zero :: x :: rest =>
      if base = 16 ∧ decimalValue zero = some 0 ∧ (x = 'x' ∨ x = 'X') then
        match rest with
        | '_' :: rest => readDigits base 0 false rest
        | rest => readDigits base 0 false rest
      else readDigits base 0 false (zero :: x :: rest)
  | s => readDigits base 0 false s

/-- `int(text, base)`; `none` is a `ValueError`. -/
def readInt (base : Nat) (s : List Char) : Option Int :=
  match stripChars (fun c => c.toNat ∈ intSpaces) s with
  | '+' :: rest => (readMagnitude base rest).map Int.ofNat
  | '-' :: rest => (readMagnitude base rest).map fun n => -Int.ofNat n
  | rest => (readMagnitude base rest).map Int.ofNat

/-- `str.replace(pattern, "")`. -/
def removeAll (pattern : List Char) : List Char → List Char
  | [] => []
  | c :: rest =>
      if pattern.isPrefixOf (c :: rest) then
        removeAll pattern (rest.drop (pattern.length - 1))
      else c :: removeAll pattern rest
termination_by s => s.length
decreasing_by
  all_goals simp only [List.length_cons, List.length_drop]
  all_goals omega

/-- A 128-bit identifier. -/
abbrev Uuid := BitVec 128

instance : LawfulBEq Uuid := inferInstance

theorem uuid_ofNat_inj {n m : Nat} (hn : n < 2 ^ 128) (hm : m < 2 ^ 128)
    (h : BitVec.ofNat 128 n = BitVec.ofNat 128 m) : n = m := by
  have hto := congrArg BitVec.toNat h
  rwa [BitVec.toNat_ofNat, BitVec.toNat_ofNat, Nat.mod_eq_of_lt hn, Nat.mod_eq_of_lt hm] at hto

/-- `UUID(text)`; `none` is a `ValueError`. -/
def readUuid (text : String) : Option Uuid :=
  let hex := removeAll "uuid:".toList (removeAll "urn:".toList text.toList)
  let hex := (stripChars (fun c => c = '{' || c = '}') hex).filter fun c => c ≠ '-'
  if hex.length ≠ 32 then none
  else
    match readInt 16 hex with
    | some n => if 0 ≤ n ∧ n < 2 ^ 128 then some (BitVec.ofInt 128 n) else none
    | none => none

/-- A digit below sixteen in lower case. -/
def hexChar (d : Nat) : Char :=
  if d < 10 then Char.ofNat (0x30 + d) else Char.ofNat (0x57 + d)

/-- The last `k` hexadecimal digits of a number. -/
def hexDigits : Nat → Nat → List Char
  | 0, _ => []
  | k + 1, n => hexDigits k (n / 16) ++ [hexChar (n % 16)]

/-- `str(uuid)`: groups of 8, 4, 4, 4 and 12 digits. -/
def Uuid.text (u : Uuid) : String :=
  let hex := hexDigits 32 u.toNat
  String.ofList (hex.take 8 ++ '-' :: ((hex.drop 8).take 4 ++ '-' :: ((hex.drop 12).take 4 ++
    '-' :: ((hex.drop 16).take 4 ++ '-' :: hex.drop 20))))

/-! ## Reading back what was written -/

theorem hexChar_digit {d : Nat} (h : d < 16) :
    digitValue (hexChar d) = some d ∧ hexChar d ∉ ['_', '-', '{', '}', ':', 'x', 'X', '+'] ∧
      (hexChar d).toNat ∉ intSpaces := by
  interval_cases d <;> decide

/-- A character of a UUID's text, hyphens aside. -/
def IsHexChar (c : Char) : Prop := ∃ d < 16, c = hexChar d

theorem mem_hexDigits {k n : Nat} {c : Char} (h : c ∈ hexDigits k n) : IsHexChar c := by
  induction k generalizing n with
  | zero => simp [hexDigits] at h
  | succ k ih =>
      rcases List.mem_append.mp h with h | h
      · exact ih h
      · exact ⟨n % 16, Nat.mod_lt _ (by decide), List.mem_singleton.mp h⟩

@[simp] theorem length_hexDigits (k n : Nat) : (hexDigits k n).length = k := by
  induction k generalizing n with
  | zero => rfl
  | succ k ih => simp [hexDigits, ih]

theorem readDigits_append {acc : Nat} {b : Bool} {s : List Char} {t : List Char} {m : Nat}
    (h : readDigits 16 acc b s = some m) (hs : ∀ c ∈ s, IsHexChar c) (hne : s ≠ []) :
    readDigits 16 acc b (s ++ t) = readDigits 16 m true t := by
  induction s generalizing acc b with
  | nil => exact absurd rfl hne
  | cons c rest ih =>
      obtain ⟨d, hd, rfl⟩ := hs _ List.mem_cons_self
      obtain ⟨hv, hx, -⟩ := hexChar_digit hd
      have hu : hexChar d ≠ '_' := fun he => hx (by simp [he])
      simp only [List.cons_append, readDigits, if_neg hu, hv, hd, if_true] at h ⊢
      cases rest with
      | nil =>
          simp only [readDigits, if_true, Option.some.injEq] at h
          simp [h]
      | cons c' rest => exact ih h (fun x hx => hs x (List.mem_cons_of_mem _ hx)) (by simp)

theorem readDigits_hexDigits (k n : Nat) :
    readDigits 16 0 false (hexDigits (k + 1) n) = some (n % 16 ^ (k + 1)) := by
  induction k generalizing n with
  | zero =>
      obtain ⟨hv, hx, -⟩ := hexChar_digit (Nat.mod_lt n (by decide : 0 < 16))
      have hu : hexChar (n % 16) ≠ '_' := fun he => hx (by simp [he])
      simp [hexDigits, readDigits, hu, hv, Nat.mod_lt]
  | succ k ih =>
      rw [hexDigits, readDigits_append (ih (n / 16)) (fun c hc => mem_hexDigits hc)
        (fun he => by simpa [he] using length_hexDigits (k + 1) (n / 16))]
      obtain ⟨hv, hx, -⟩ := hexChar_digit (Nat.mod_lt n (by decide : 0 < 16))
      have hu : hexChar (n % 16) ≠ '_' := fun he => hx (by simp [he])
      simp only [readDigits, if_neg hu, hv, Nat.mod_lt, Nat.zero_lt_succ, if_true]
      have hpow : 16 ^ (k + 1 + 1) = 16 * 16 ^ (k + 1) := Nat.pow_succ'
      rw [hpow, Nat.mod_mul]
      congr 1
      omega

theorem removeAll_of_not_mem {pattern s : List Char} {c : Char} (hc : c ∈ pattern)
    (hs : c ∉ s) : removeAll pattern s = s := by
  induction s with
  | nil => simp [removeAll]
  | cons x rest ih =>
      have hnot : pattern.isPrefixOf (x :: rest) = false := by
        by_contra hp
        have hp : pattern <+: x :: rest := by simpa using hp
        exact hs (hp.subset hc)
      rw [removeAll, hnot, ih fun h => hs (List.mem_cons_of_mem x h)]
      simp

theorem stripChars_of_forall {drop : Char → Bool} {s : List Char}
    (h : ∀ c ∈ s, drop c = false) : stripChars drop s = s := by
  have keep : ∀ t : List Char, (∀ c ∈ t, drop c = false) → t.dropWhile drop = t := by
    intro t ht
    cases t with
    | nil => rfl
    | cons c rest => simp [ht c List.mem_cons_self]
  rw [stripChars, keep s h, keep s.reverse fun c hc => h c (List.mem_reverse.mp hc),
    List.reverse_reverse]

theorem filter_hyphen {s : List Char} (h : ∀ c ∈ s, IsHexChar c) :
    s.filter (fun c => c ≠ '-') = s := by
  refine List.filter_eq_self.mpr fun c hc => ?_
  obtain ⟨d, hd, rfl⟩ := h c hc
  have hx := (hexChar_digit hd).2.1
  simp only [ne_eq, decide_not, Bool.not_eq_true', decide_eq_false_iff_not]
  exact fun he => hx (by simp [he])

theorem readInt_hexDigits (n : Nat) :
    readInt 16 (hexDigits 32 n) = some (Int.ofNat (n % 16 ^ 32)) := by
  have hhex : ∀ c ∈ hexDigits 32 n, IsHexChar c := fun c hc => mem_hexDigits hc
  have hread := readDigits_hexDigits 31 n
  have hstrip : stripChars (fun c => c.toNat ∈ intSpaces) (hexDigits 32 n) = hexDigits 32 n := by
    refine stripChars_of_forall fun c hc => ?_
    obtain ⟨d, hd, rfl⟩ := hhex c hc
    simpa using (hexChar_digit hd).2.2
  rw [readInt, hstrip]
  generalize hexDigits 32 n = s at hhex hread
  have hmag : readMagnitude 16 s = some (n % 16 ^ 32) := by
    unfold readMagnitude
    split
    · rename_i zero x rest
      obtain ⟨d, hd, rfl⟩ := hhex x (by simp)
      have hx := (hexChar_digit hd).2.1
      rw [if_neg]
      · exact hread
      · rintro ⟨-, -, he | he⟩ <;> exact hx (by simp [he])
    · exact hread
  split
  · obtain ⟨d, hd, he⟩ := hhex '+' (by simp)
    exact absurd (he ▸ (hexChar_digit hd).2.1) (by simp)
  · obtain ⟨d, hd, he⟩ := hhex '-' (by simp)
    exact absurd (he ▸ (hexChar_digit hd).2.1) (by simp)
  · rw [hmag]
    rfl

/-- A UUID is written with hexadecimal digits and hyphens. -/
theorem mem_text {u : Uuid} {c : Char} (hc : c ∈ u.text.toList) : c = '-' ∨ IsHexChar c := by
  have hhex : ∀ c ∈ hexDigits 32 u.toNat, IsHexChar c := fun c hc => mem_hexDigits hc
  simp only [Uuid.text, String.toList_ofList, List.mem_append, List.mem_cons] at hc
  rcases hc with hc | hc | hc | hc | hc | hc | hc | hc | hc
  · exact Or.inr (hhex c (List.mem_of_mem_take hc))
  · exact Or.inl hc
  · exact Or.inr (hhex c (List.mem_of_mem_drop (List.mem_of_mem_take hc)))
  · exact Or.inl hc
  · exact Or.inr (hhex c (List.mem_of_mem_drop (List.mem_of_mem_take hc)))
  · exact Or.inl hc
  · exact Or.inr (hhex c (List.mem_of_mem_drop (List.mem_of_mem_take hc)))
  · exact Or.inl hc
  · exact Or.inr (hhex c (List.mem_of_mem_drop hc))

/-- A UUID written as text is read back as itself. -/
@[simp] theorem readUuid_text (u : Uuid) : readUuid u.text = some u := by
  have hhex : ∀ c ∈ hexDigits 32 u.toNat, IsHexChar c := fun c hc => mem_hexDigits hc
  have hlen := length_hexDigits 32 u.toNat
  have hread := readInt_hexDigits u.toNat
  have hmem := fun c (hc : c ∈ u.text.toList) => mem_text hc
  simp only [readUuid, Uuid.text, String.toList_ofList] at hmem ⊢
  generalize hexDigits 32 u.toNat = hex at hhex hlen hread hmem
  set s := hex.take 8 ++ '-' :: ((hex.drop 8).take 4 ++ '-' :: ((hex.drop 12).take 4 ++
    '-' :: ((hex.drop 16).take 4 ++ '-' :: hex.drop 20))) with hs
  have hfilter : s.filter (fun c => c ≠ '-') = hex := by
    have h₁ := filter_hyphen fun c hc => hhex c (List.mem_of_mem_take (i := 8) hc)
    have h₂ := filter_hyphen fun c hc =>
      hhex c (List.mem_of_mem_drop (List.mem_of_mem_take (i := 4) (l := hex.drop 8) hc))
    have h₃ := filter_hyphen fun c hc =>
      hhex c (List.mem_of_mem_drop (List.mem_of_mem_take (i := 4) (l := hex.drop 12) hc))
    have h₄ := filter_hyphen fun c hc =>
      hhex c (List.mem_of_mem_drop (List.mem_of_mem_take (i := 4) (l := hex.drop 16) hc))
    have h₅ := filter_hyphen fun c hc => hhex c (List.mem_of_mem_drop (i := 20) hc)
    simp only [hs, List.filter_append, h₁, List.filter_cons, h₂, h₃, h₄, h₅]
    simp only [ne_eq, not_true_eq_false, decide_false, Bool.false_eq_true, if_false]
    have hsplit : ∀ i : Nat, (hex.drop i).take 4 ++ hex.drop (i + 4) = hex.drop i := by
      intro i
      rw [← List.drop_drop, List.take_append_drop]
    rw [hsplit 16, hsplit 12, hsplit 8, List.take_append_drop]
  have hclean : ∀ d < 16, hexChar d ∉ [':', '{', '}'] := by
    intro d hd hc
    refine (hexChar_digit hd).2.1 ?_
    simp only [List.mem_cons, List.not_mem_nil, or_false] at hc ⊢
    tauto
  have hcolon : ':' ∉ s := by
    intro hc
    rcases hmem _ hc with he | ⟨d, hd, he⟩
    · exact absurd he (by decide)
    · exact hclean d hd (by simp [← he])
  have hstrip : stripChars (fun c => c = '{' || c = '}') s = s := by
    refine stripChars_of_forall fun c hc => ?_
    rcases hmem c hc with rfl | ⟨d, hd, rfl⟩
    · decide
    · have := hclean d hd
      simp only [List.mem_cons, List.not_mem_nil, or_false, not_or] at this
      simp [this.2.1, this.2.2]
  rw [removeAll_of_not_mem (by decide : ':' ∈ "urn:".toList) hcolon,
    removeAll_of_not_mem (by decide : ':' ∈ "uuid:".toList) hcolon, hstrip, hfilter, if_neg
    (by simp [hlen]), hread]
  have hlt := u.isLt
  have hmod : u.toNat % 16 ^ 32 = u.toNat := Nat.mod_eq_of_lt (by simpa using hlt)
  simp only [hmod]
  rw [if_pos]
  · simp
  · constructor
    · exact Int.natCast_nonneg _
    · exact Int.ofNat_lt.mpr hlt

end Sieshka
