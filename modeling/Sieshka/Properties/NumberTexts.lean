import Sieshka.Delimiters
import Sieshka.Web.ZaloEvents

/-!
# The texts of a number

A number is written alike in Python and in JavaScript, or the two texts differ at a place
where both have a character, or Python's has `.0` at its end and JavaScript's has not.
-/

namespace Sieshka

namespace ZaloEvents

open Doubles

/-! ## The specification -/

/-- Not whole and written without an exponent in Python, or with an exponent in both that
needs no padding. -/
def Plain (d : Decimal) : Prop :=
  (-4 < d.point ∧ d.point ≤ 16 ∧ d.point < d.digits.length) ∨ 21 < d.point ∨ d.point ≤ -9

instance (d : Decimal) : Decidable (Plain d) := by
  unfold Plain
  infer_instance

/-- A double that is written alike. -/
def plainSize : Magnitude → Bool
  | .finite d => decide (Plain d)
  | _ => false

/-- An `int` that is written alike: zero, or one below `10 ^ 21` that is the shortest decimal
of its double. -/
def plainInt (n : ℤ) : Bool :=
  match intSize n with
  | .zero => true
  | .finite d => decide (n.natAbs < 10 ^ 21 ∧ d.value = n.natAbs)
  | .infinite => false

/-- How the text of a number in Python compares with the one in JavaScript. -/
inductive Compares (plain : Bool) (text text' : List Char) : Prop
  | alike (hplain : plain = true) (heq : text = text')
  | apart (hplain : plain = false) (hapart : Apart text text')
  | longer (hplain : plain = false) (heq : text = text' ++ ['.', '0'])

/-! ## Digits -/

theorem isDigit_of_mem_toDigits {n : ℕ} {c : Char} (h : c ∈ Nat.toDigits 10 n) :
    c.isDigit = true :=
  Nat.isDigit_of_mem_toDigits (by norm_num) le_rfl h

theorem digitChar_ne_zero {n : ℕ} (hpos : 0 < n) (hlt : n < 10) : n.digitChar ≠ '0' := by
  interval_cases n <;> decide

theorem toDigits_step {n : ℕ} (h : 10 ≤ n) :
    Nat.toDigits 10 n = Nat.toDigits 10 (n / 10) ++ [(n % 10).digitChar] :=
  Nat.toDigits_of_base_le (by norm_num) h

/-- The first digit of a positive number is not zero. -/
theorem head_toDigits {n : ℕ} (hn : 0 < n) :
    ∃ c rest, Nat.toDigits 10 n = c :: rest ∧ c ≠ '0' := by
  induction n using Nat.strong_induction_on with
  | _ n ih =>
      by_cases hlt : n < 10
      · exact ⟨n.digitChar, [], Nat.toDigits_of_lt_base hlt, digitChar_ne_zero hn hlt⟩
      · obtain ⟨c, rest, heq, hc⟩ := ih (n / 10) (by omega) (by omega)
        rw [toDigits_step (not_lt.mp hlt), heq]
        exact ⟨c, _, rfl, hc⟩

/-- The last digit is not zero where ten is no divisor. -/
theorem last_toDigits {n : ℕ} (hn : ¬ 10 ∣ n) :
    ∃ before c, Nat.toDigits 10 n = before ++ [c] ∧ c ≠ '0' := by
  have hrest : n % 10 ≠ 0 := fun hzero => hn (Nat.dvd_of_mod_eq_zero hzero)
  by_cases hlt : n < 10
  · refine ⟨[], n.digitChar, Nat.toDigits_of_lt_base hlt, ?_⟩
    apply digitChar_ne_zero _ hlt
    omega
  · refine ⟨_, _, toDigits_step (not_lt.mp hlt), ?_⟩
    apply digitChar_ne_zero
    · omega
    · omega

theorem toDigits_mul_pow {n : ℕ} (hn : 0 < n) (k : ℕ) :
    Nat.toDigits 10 (n * 10 ^ k) = Nat.toDigits 10 n ++ List.replicate k '0' := by
  induction k with
  | zero => simp
  | succ k ih =>
      have hpos : 0 < n * 10 ^ k := by positivity
      have hsplit : n * 10 ^ (k + 1) = 10 * (n * 10 ^ k) + 0 := by ring
      rw [hsplit, ← Nat.toDigits_append_toDigits (by norm_num) hpos (by norm_num), ih,
        Nat.toDigits_zero, List.replicate_succ', List.append_assoc]

/-- A number that begins with the digits of another is the same or ten times as large. -/
theorem toDigits_prefix {n m : ℕ} (h : Nat.toDigits 10 n <+: Nat.toDigits 10 m) :
    n = m ∨ 10 * n ≤ m := by
  obtain ⟨more, hmore⟩ := h
  have hvalue : Nat.ofDigitChars 10 more n = m := by
    rw [← Nat.ofDigitChars_toDigits (n := m) (by norm_num) le_rfl, ← hmore,
      Nat.ofDigitChars_append, Nat.ofDigitChars_toDigits (by norm_num) le_rfl]
  rw [Nat.ofDigitChars_eq_ofDigitChars_zero] at hvalue
  rcases Nat.eq_zero_or_pos more.length with hzero | hpos
  · left
    rw [List.length_eq_zero_iff.mp hzero] at hvalue
    simpa using hvalue
  · right
    have hten : 10 ^ 1 ≤ 10 ^ more.length := Nat.pow_le_pow_right (by norm_num) hpos
    have hmul := Nat.mul_le_mul_right n hten
    omega

theorem apart_toDigits {n m : ℕ} (hne : n ≠ m) (hn : n < 10 * m) (hm : m < 10 * n) :
    Apart (Nat.toDigits 10 n) (Nat.toDigits 10 m) := by
  constructor
  · intro h
    have hprefix := toDigits_prefix h
    omega
  · intro h
    have hprefix := toDigits_prefix h
    omega

/-! ## Decimals -/

theorem digits_pos (d : Decimal) : 0 < d.digits.length := Nat.length_toDigits_pos

theorem head_digits (d : Decimal) : ∃ c rest, d.digits = c :: rest ∧ c ≠ '0' :=
  head_toDigits d.coefficient_pos

theorem isDigit_of_mem_digits {d : Decimal} {c : Char} (h : c ∈ d.digits) : c.isDigit = true :=
  isDigit_of_mem_toDigits h

/-- Behind the first digit there is a point or the exponent. -/
theorem exponential_cons (c : Char) (rest : List Char) (power : ℤ) (width : ℕ) :
    ∃ y more, exponential (c :: rest) power width = c :: y :: more ∧ y.isDigit = false := by
  cases rest with
  | nil => exact ⟨'e', _, rfl, rfl⟩
  | cons c' rest => exact ⟨'.', _, rfl, rfl⟩

theorem exponential_width {digits : List Char} {power : ℤ} (h : 10 ≤ power.natAbs) :
    exponential digits power 2 = exponential digits power 1 := by
  have hlen : 2 ≤ (Nat.toDigits 10 power.natAbs).length := by
    by_contra hshort
    have hlt := (Nat.length_toDigits_le_iff (by norm_num) (by norm_num)).mp
      (by omega : (Nat.toDigits 10 power.natAbs).length ≤ 1)
    omega
  have htwo : 2 - (Nat.toDigits 10 power.natAbs).length = 0 := by omega
  have hone : 1 - (Nat.toDigits 10 power.natAbs).length = 0 := by omega
  simp only [exponential, htwo, hone]

/-- An exponent of one digit is padded in Python. -/
theorem exponential_apart {digits : List Char} {power : ℤ} (hpos : 0 < power.natAbs)
    (hlt : power.natAbs < 10) :
    Apart (exponential digits power 2) (exponential digits power 1) := by
  simp only [exponential, Nat.toDigits_of_lt_base hlt]
  apply Apart.append_left
  apply Apart.cons
  apply Apart.cons
  exact Apart.of_head (digitChar_ne_zero hpos hlt).symm

/-- From `10 ^ 16` up to `10 ^ 21` JavaScript writes a second digit. -/
theorem jsDecimal_cons {d : Decimal} {c : Char} {rest : List Char} (hdigits : d.digits = c :: rest)
    (hlow : 16 < d.point) (hhigh : d.point ≤ 21) :
    ∃ y more, jsDecimal d = c :: y :: more ∧ y.isDigit = true := by
  have hdigit : ∀ x ∈ rest, x.isDigit = true := by
    intro x hx
    apply isDigit_of_mem_digits (d := d)
    rw [hdigits]
    exact List.mem_cons_of_mem _ hx
  by_cases hwhole : (d.digits.length : ℤ) ≤ d.point
  · rw [jsDecimal, if_pos ⟨hwhole, hhigh⟩, hdigits]
    cases rest with
    | cons c' rest => exact ⟨c', _, rfl, hdigit c' List.mem_cons_self⟩
    | nil =>
        obtain ⟨k, hk⟩ : ∃ k, (d.point - ([c].length : ℕ)).toNat = k + 1 :=
          ⟨(d.point - 2).toNat, by simp only [List.length_singleton]; omega⟩
        rw [zeros, hk, List.replicate_succ]
        exact ⟨'0', _, rfl, rfl⟩
  · have hrest : rest ≠ [] := by
      rintro rfl
      rw [hdigits] at hwhole
      simp only [List.length_singleton] at hwhole
      omega
    obtain ⟨c', more, rfl⟩ := List.exists_cons_of_ne_nil hrest
    obtain ⟨k, hk⟩ : ∃ k, d.point.toNat = k + 2 := ⟨(d.point - 2).toNat, by omega⟩
    rw [jsDecimal, if_neg (fun h => hwhole h.1), if_pos ⟨by omega, hhigh⟩, fixed,
      if_neg (by omega), hdigits, hk]
    exact ⟨c', _, rfl, hdigit c' List.mem_cons_self⟩

theorem compares_decimal (d : Decimal) :
    Compares (decide (Plain d)) (reprDecimal d) (jsDecimal d) := by
  have hpos := digits_pos d
  obtain ⟨c, rest, hdigits, hc⟩ := head_digits d
  by_cases htiny : d.point ≤ -6
  · -- both with an exponent below zero
    have hrepr : reprDecimal d = exponential d.digits (d.point - 1) 2 :=
      if_pos (Or.inl (by omega))
    have hjs : jsDecimal d = exponential d.digits (d.point - 1) 1 := by
      rw [jsDecimal, if_neg (by omega), if_neg (by omega)]
    rw [hrepr, hjs]
    by_cases hten : d.point ≤ -9
    · exact .alike (decide_eq_true (Or.inr (Or.inr hten))) (exponential_width (by omega))
    · apply Compares.apart
      · apply decide_eq_false
        unfold Plain
        omega
      · apply exponential_apart <;> omega
  by_cases hsmall : d.point ≤ -4
  · -- an exponent in Python alone
    have hrepr : reprDecimal d = exponential d.digits (d.point - 1) 2 :=
      if_pos (Or.inl hsmall)
    have hjs : jsDecimal d = fixed d.digits d.point := by
      rw [jsDecimal, if_neg (by omega), if_pos (by omega)]
    apply Compares.apart
    · apply decide_eq_false
      unfold Plain
      omega
    · obtain ⟨y, more, hexp, -⟩ := exponential_cons c rest (d.point - 1) 2
      rw [hrepr, hjs, fixed, if_pos (by omega), hdigits, hexp]
      exact Apart.of_head hc
  by_cases hlarge : 21 < d.point
  · -- both with an exponent above zero
    have hrepr : reprDecimal d = exponential d.digits (d.point - 1) 2 :=
      if_pos (Or.inr (by omega))
    have hjs : jsDecimal d = exponential d.digits (d.point - 1) 1 := by
      rw [jsDecimal, if_neg (by omega), if_neg (by omega)]
    rw [hrepr, hjs]
    exact .alike (decide_eq_true (Or.inr (Or.inl hlarge))) (exponential_width (by omega))
  by_cases hexp : 16 < d.point
  · -- an exponent in Python alone
    have hrepr : reprDecimal d = exponential d.digits (d.point - 1) 2 :=
      if_pos (Or.inr hexp)
    have hplain : ¬ Plain d := by
      unfold Plain
      omega
    obtain ⟨y, more, heq, hy⟩ := exponential_cons c rest (d.point - 1) 2
    obtain ⟨y', more', heq', hy'⟩ := jsDecimal_cons hdigits hexp (by omega)
    rw [hrepr, hdigits, heq, heq']
    apply Compares.apart (decide_eq_false hplain)
    apply Apart.cons
    apply Apart.of_head
    rintro rfl
    rw [hy] at hy'
    cases hy'
  · by_cases hwhole : (d.digits.length : ℤ) ≤ d.point
    · apply Compares.longer
      · apply decide_eq_false
        unfold Plain
        omega
      · rw [reprDecimal, if_neg (by omega), if_pos hwhole, jsDecimal, if_pos (by omega)]
    · apply Compares.alike
      · apply decide_eq_true
        unfold Plain
        omega
      · rw [reprDecimal, if_neg (by omega), if_neg hwhole, jsDecimal, if_neg (by omega),
          if_pos (by omega)]

/-! ## Signs -/

theorem Compares.signed {plain : Bool} {text text' : List Char} (h : Compares plain text text')
    (negative : Bool) :
    Compares plain (ZaloEvents.signed negative text) (ZaloEvents.signed negative text') := by
  cases negative with
  | false => exact h
  | true =>
      cases h with
      | alike hplain heq => exact .alike hplain (congrArg ('-' :: ·) heq)
      | apart hplain hapart => exact .apart hplain (hapart.cons '-')
      | longer hplain heq => exact .longer hplain (congrArg ('-' :: ·) heq)

/-- A `float` in a list, against `String(number)`. -/
theorem compares_reprFloat (negative : Bool) (size : Magnitude) :
    Compares (plainSize size) (reprFloat negative size) (jsNumber negative size) := by
  cases size with
  | zero =>
      cases negative with
      | false => exact .longer rfl rfl
      | true => exact .apart rfl (Apart.of_head (by decide))
  | finite d => exact (compares_decimal d).signed negative
  | infinite =>
      have hsize : Compares false "inf".toList "Infinity".toList :=
        .apart rfl (Apart.of_head (by decide))
      exact hsize.signed negative

theorem Compares.eq_iff {plain : Bool} {text text' : List Char} (h : Compares plain text text') :
    text = text' ↔ plain = true := by
  cases h with
  | alike hplain heq => simp [hplain, heq]
  | apart hplain hapart => simp [hplain, hapart.ne]
  | longer hplain heq => simp [hplain, heq]

/-- A `float` between the brackets of a list. -/
theorem reprFloat_eq_iff (negative : Bool) (size : Magnitude) :
    reprFloat negative size = stringifyNumber negative size ↔ plainSize size = true := by
  cases size with
  | zero => exact (compares_reprFloat negative .zero).eq_iff
  | finite d => exact (compares_reprFloat negative (.finite d)).eq_iff
  | infinite => cases negative <;> decide

/-- A `float` between the brackets of an object. -/
theorem dumpsFloat_eq_iff (negative : Bool) (size : Magnitude) :
    dumpsFloat negative size = stringifyNumber negative size ↔ plainSize size = true := by
  cases size with
  | zero => exact (compares_reprFloat negative .zero).eq_iff
  | finite d => exact (compares_reprFloat negative (.finite d)).eq_iff
  | infinite => cases negative <;> decide

/-! ## Whole numbers -/

theorem intSize_eq_zero {n : ℤ} (h : n.natAbs = 0) : intSize n = .zero := by
  have hzero := nearest_natCast_of_lt (n := 0) (by norm_num)
  rw [intSize, h, magnitude, hzero]
  simp

section Whole

variable {d : Decimal}

/-- The number that a decimal without a fraction is. -/
def whole (d : Decimal) : ℕ := d.coefficient * 10 ^ d.exponent.toNat

theorem value_eq_whole (h : 0 ≤ d.exponent) : d.value = whole d := by
  obtain ⟨k, hk⟩ := Int.eq_ofNat_of_zero_le h
  rw [Decimal.value, whole, hk]
  simp

theorem toDigits_whole (d : Decimal) :
    Nat.toDigits 10 (whole d) = d.digits ++ zeros (d.point - d.digits.length) := by
  have hzeros : d.point - d.digits.length = d.exponent := by
    rw [Decimal.point]
    ring
  rw [whole, toDigits_mul_pow d.coefficient_pos, zeros, hzeros]
  rfl

theorem point_le_iff (h : 0 ≤ d.exponent) : d.point ≤ 21 ↔ whole d < 10 ^ 21 := by
  rw [← Nat.length_toDigits_le_iff (b := 10) (by norm_num) (by norm_num), toDigits_whole,
    zeros, List.length_append, List.length_replicate, Decimal.point]
  omega

theorem jsDecimal_whole (h : 0 ≤ d.exponent) (hpoint : d.point ≤ 21) :
    jsDecimal d = Nat.toDigits 10 (whole d) := by
  have hlen : (d.digits.length : ℤ) ≤ d.point := by
    rw [Decimal.point]
    omega
  rw [jsDecimal, if_pos ⟨hlen, hpoint⟩, toDigits_whole]

/-- The digits of a number from ten on, against an exponent. -/
theorem apart_exponential {n : ℕ} (hn : 10 ≤ n) {c : Char} {rest : List Char} {power : ℤ}
    {width : ℕ} : Apart (Nat.toDigits 10 n) (exponential (c :: rest) power width) := by
  obtain ⟨y, more, heq, hy⟩ := exponential_cons c rest power width
  obtain ⟨a, before, hhead, -⟩ := head_toDigits (n := n / 10) (by omega)
  obtain ⟨b, after, hsecond⟩ :
      ∃ b after, before ++ [(n % 10).digitChar] = b :: after :=
    List.exists_cons_of_ne_nil (by simp)
  have hdigits : Nat.toDigits 10 n = a :: b :: after := by
    rw [toDigits_step hn, hhead, List.cons_append, hsecond]
  have hb : b.isDigit = true := by
    apply isDigit_of_mem_toDigits (n := n)
    simp [hdigits]
  rw [hdigits, heq]
  by_cases hac : a = c
  · rw [hac]
    apply Apart.cons
    apply Apart.of_head
    rintro rfl
    rw [hy] at hb
    cases hb
  · exact Apart.of_head hac

end Whole

/-- `str` of an `int`, against `String(number)`. -/
theorem compares_int (n : ℤ) :
    Compares (plainInt n) (intText n) (jsNumber (n < 0) (intSize n)) := by
  rcases Nat.eq_zero_or_pos n.natAbs with hzero | hpos
  · obtain rfl := Int.natAbs_eq_zero.mp hzero
    rw [plainInt, intSize_eq_zero hzero]
    exact .alike rfl rfl
  obtain ⟨c, rest, hhead, hc⟩ := head_toDigits hpos
  rcases magnitude_natCast hpos with hsize | ⟨d, hsize, hexp, hlow, hhigh⟩
  · have hcompares : Compares false (Nat.toDigits 10 n.natAbs) "Infinity".toList := by
      apply Compares.apart rfl
      have hdigit : c.isDigit = true := by
        apply isDigit_of_mem_toDigits (n := n.natAbs)
        simp [hhead]
      rw [hhead]
      apply Apart.of_head
      rintro rfl
      cases hdigit
    rw [plainInt, intSize, hsize]
    exact hcompares.signed _
  · rw [value_eq_whole hexp] at hlow hhigh
    have hbelow : n.natAbs ≤ 4 * whole d := by
      have hcast : (n.natAbs : ℚ) ≤ 4 * whole d := by linarith
      exact_mod_cast hcast
    have habove : whole d ≤ 4 * n.natAbs := by exact_mod_cast hhigh
    have hplain : plainInt n = decide (n.natAbs < 10 ^ 21 ∧ whole d = n.natAbs) := by
      rw [plainInt, intSize, hsize]
      simp only [value_eq_whole hexp, Nat.cast_inj]
    have hcompares : Compares (plainInt n) (Nat.toDigits 10 n.natAbs) (jsDecimal d) := by
      by_cases hpoint : d.point ≤ 21
      · rw [jsDecimal_whole hexp hpoint]
        have hlt := (point_le_iff hexp).mp hpoint
        by_cases heq : whole d = n.natAbs
        · apply Compares.alike
          · rw [hplain]
            exact decide_eq_true ⟨heq ▸ hlt, heq⟩
          · rw [heq]
        · apply Compares.apart
          · rw [hplain]
            exact decide_eq_false fun h => heq h.2
          · apply apart_toDigits
            · exact fun h => heq h.symm
            · omega
            · omega
      · have hge : 10 ^ 21 ≤ whole d := not_lt.mp fun h => hpoint ((point_le_iff hexp).mpr h)
        obtain ⟨c', rest', hdigits, -⟩ := head_digits d
        apply Compares.apart
        · rw [hplain]
          apply decide_eq_false
          omega
        · rw [jsDecimal, if_neg (by omega), if_neg (by omega), hdigits]
          apply apart_exponential
          omega
    rw [intSize, hsize]
    exact hcompares.signed _

/-- An `int` between brackets. -/
theorem intText_eq_iff (n : ℤ) :
    intText n = stringifyNumber (n < 0) (intSize n) ↔ plainInt n = true := by
  have hcompares := compares_int n
  cases hsize : intSize n with
  | zero =>
      rw [hsize] at hcompares
      exact hcompares.eq_iff
  | finite d =>
      rw [hsize] at hcompares
      exact hcompares.eq_iff
  | infinite =>
      have hplain : plainInt n = false := by rw [plainInt, hsize]
      rw [hplain]
      constructor
      · intro heq
        have hmem : 'u' ∈ intText n := by
          rw [heq, stringifyNumber]
          decide
        rw [intText, signed] at hmem
        split_ifs at hmem
        · have hdigit := isDigit_of_mem_toDigits (List.mem_of_ne_of_mem (by decide) hmem)
          cases hdigit
        · cases isDigit_of_mem_toDigits hmem
      · intro h
        cases h

/-- An `int` that a double holds with all its neighbours is written alike. -/
theorem plainInt_of_lt {n : ℤ} (h : n.natAbs < 2 ^ 53) : plainInt n = true := by
  rcases Nat.eq_zero_or_pos n.natAbs with hzero | hpos
  · rw [plainInt, intSize_eq_zero hzero]
  · obtain ⟨d, hsize, hvalue⟩ := magnitude_natCast_of_lt hpos h
    rw [plainInt, intSize, hsize]
    apply decide_eq_true
    constructor
    · omega
    · exact hvalue

end ZaloEvents

end Sieshka
