import Mathlib.Algebra.Order.Field.Power
import Mathlib.Algebra.Order.Floor.Semifield
import Mathlib.Data.Int.Log
import Mathlib.Data.Nat.MaxPowDiv
import Mathlib.Data.Rat.Floor
import Mathlib.Tactic.Linarith
import Mathlib.Tactic.Positivity
import Mathlib.Tactic.Ring

/-!
# Doubles

The positive numbers that a `binary64` float rounds to, and the shortest decimal that is read
back as the same float. A natural number rounds to a natural number, its shortest decimal is
a natural number within a factor of four, and up to `2 ^ 53` it is the number itself.
-/

namespace Sieshka

namespace Doubles

/-! ## Rounding -/

/-- The nearest natural number, the even one of two. -/
def roundEven (q : ℚ) : ℕ :=
  let lower := ⌊q⌋₊
  if q - lower < 1 / 2 then lower
  else if 1 / 2 < q - lower then lower + 1
  else if lower % 2 = 0 then lower else lower + 1

/-- What the last bit of the significand stands for, as a power of two. -/
def unit (x : ℚ) : ℤ := max (Int.log 2 x - 52) (-1074)

/-- The double nearest to a number that is not negative, `none` beyond the largest one. -/
def nearest (x : ℚ) : Option ℚ :=
  let y := (roundEven (x / 2 ^ unit x) : ℚ) * 2 ^ unit x
  if y < 2 ^ (1024 : ℤ) then some y else none

theorem le_roundEven (q : ℚ) : ⌊q⌋₊ ≤ roundEven q := by
  unfold roundEven
  dsimp only
  split_ifs <;> omega

theorem roundEven_le (q : ℚ) : roundEven q ≤ ⌊q⌋₊ + 1 := by
  unfold roundEven
  dsimp only
  split_ifs <;> omega

theorem roundEven_natCast (n : ℕ) : roundEven n = n := by
  have hfloor : ⌊(n : ℚ)⌋₊ = n := Nat.floor_natCast n
  simp only [roundEven, hfloor, sub_self]
  norm_num

theorem roundEven_eq_or (q : ℚ) : roundEven q = ⌊q⌋₊ ∨ roundEven q = ⌊q⌋₊ + 1 := by
  have hlow := le_roundEven q
  have hhigh := roundEven_le q
  omega

/-- Halves and doubles bound what rounds to a neighbour. -/
theorem half_le_of_neighbour {q : ℚ} (hq : 1 ≤ q) {c : ℕ} (hlow : ⌊q⌋₊ ≤ c) :
    q / 2 ≤ c := by
  have hpos : 1 ≤ ⌊q⌋₊ := (Nat.one_le_floor_iff q).mpr hq
  have hlt := Nat.lt_floor_add_one q
  have hlow' : ((⌊q⌋₊ : ℕ) : ℚ) ≤ c := by exact_mod_cast hlow
  have hpos' : (1 : ℚ) ≤ (⌊q⌋₊ : ℕ) := by exact_mod_cast hpos
  linarith

theorem le_double_of_neighbour {q : ℚ} (hq : 1 ≤ q) {c : ℕ} (hhigh : c ≤ ⌊q⌋₊ + 1) :
    (c : ℚ) ≤ 2 * q := by
  have hle := Nat.floor_le (by linarith : (0 : ℚ) ≤ q)
  have hhigh' : (c : ℚ) ≤ (⌊q⌋₊ : ℕ) + 1 := by exact_mod_cast hhigh
  linarith

theorem exists_nat_zpow {z : ℤ} (hz : 0 ≤ z) (b : ℕ) : ∃ n : ℕ, (b : ℚ) ^ z = n := by
  obtain ⟨n, rfl⟩ := Int.eq_ofNat_of_zero_le hz
  exact ⟨b ^ n, by simp⟩

/-! ## What rounds to itself -/

/-- A multiple of the unit that the significand has room for rounds to itself. -/
theorem nearest_of_multiple {x : ℚ} {m : ℕ} (heq : x = m * 2 ^ unit x) (hlt : x < 2 ^ (1024 : ℤ)) :
    nearest x = some x := by
  have hunit : (0 : ℚ) < 2 ^ unit x := by positivity
  have hdiv : x / 2 ^ unit x = m := by
    rw [div_eq_iff (ne_of_gt hunit)]
    exact heq
  rw [nearest, hdiv, roundEven_natCast, ← heq]
  exact if_pos hlt

/-- A number with a significand of at most `2 ^ 53` is a multiple of its unit. -/
theorem multiple_of_significand {x : ℚ} {m : ℕ} {u : ℤ} (hpos : 0 < x)
    (heq : x = m * 2 ^ u) (hm : m ≤ 2 ^ 53) (hu : -1074 ≤ u) :
    ∃ m' : ℕ, x = m' * 2 ^ unit x := by
  have htwo : (0 : ℚ) < 2 ^ u := by positivity
  by_cases hfull : m = 2 ^ 53
  · -- the carry: the significand is one power of two higher
    have hx : x = 2 ^ (53 + u) := by
      rw [heq, hfull, zpow_add₀ (by norm_num : (2 : ℚ) ≠ 0)]
      norm_num
    have hlog : Int.log 2 x = 53 + u := by
      rw [hx]
      exact Int.log_zpow (by norm_num) _
    have hunit : unit x = 1 + u := by
      rw [unit, hlog]
      omega
    refine ⟨2 ^ 52, ?_⟩
    rw [hunit, hx]
    have hsplit : (53 : ℤ) + u = 52 + (1 + u) := by ring
    rw [hsplit, zpow_add₀ (by norm_num : (2 : ℚ) ≠ 0)]
    norm_num
  · have hlt : x < 2 ^ (53 + u) := by
      have hm' : (m : ℚ) < 2 ^ 53 := by exact_mod_cast lt_of_le_of_ne hm hfull
      rw [heq, zpow_add₀ (by norm_num : (2 : ℚ) ≠ 0)]
      exact mul_lt_mul_of_pos_right (by exact_mod_cast hm') htwo
    have hlog : Int.log 2 x < 53 + u :=
      (Int.lt_zpow_iff_log_lt (by norm_num) hpos).mp (by exact_mod_cast hlt)
    have hunit : unit x ≤ u := by
      rw [unit]
      omega
    obtain ⟨k, hk⟩ := exists_nat_zpow (by omega : 0 ≤ u - unit x) 2
    refine ⟨m * k, ?_⟩
    calc x = m * 2 ^ (u - unit x + unit x) := by rw [sub_add_cancel, heq]
      _ = m * (2 ^ (u - unit x) * 2 ^ unit x) := by
          rw [zpow_add₀ (by norm_num : (2 : ℚ) ≠ 0)]
      _ = (m * k : ℕ) * 2 ^ unit x := by
          push_cast at hk ⊢
          rw [hk, mul_assoc]

theorem pow_log_le {x : ℚ} (hx : 0 < x) : (2 : ℚ) ^ Int.log 2 x ≤ x :=
  Int.zpow_log_le_self (by norm_num) hx

theorem lt_pow_log (x : ℚ) : x < (2 : ℚ) ^ (Int.log 2 x + 1) :=
  Int.lt_zpow_succ_log_self (by norm_num) x

/-! ## Natural numbers -/

section Natural

variable {n : ℕ} {x : ℚ}

theorem log_nonneg (n : ℕ) : 0 ≤ Int.log 2 (n : ℚ) := by
  rw [Int.log_natCast]
  omega

/-- A natural number with at most 53 bits is a double. -/
theorem nearest_natCast_of_log (hlog : Int.log 2 (n : ℚ) ≤ 52) :
    nearest (n : ℚ) = some (n : ℚ) := by
  have hlow := log_nonneg n
  have hunit : unit (n : ℚ) ≤ 0 := by
    rw [unit]
    omega
  obtain ⟨k, hk⟩ := exists_nat_zpow (by omega : 0 ≤ -unit (n : ℚ)) 2
  apply nearest_of_multiple (m := n * k)
  · have hne : (2 : ℚ) ^ unit (n : ℚ) ≠ 0 := by positivity
    push_cast at hk ⊢
    rw [← hk, zpow_neg, mul_assoc, inv_mul_cancel₀ hne, mul_one]
  · calc (n : ℚ) < 2 ^ (Int.log 2 (n : ℚ) + 1) := lt_pow_log _
      _ ≤ 2 ^ (1024 : ℤ) := by
        apply zpow_le_zpow_right₀ (by norm_num)
        omega

/-- The significand of a natural number with more than 53 bits. -/
theorem significand_of_log (hlog : 52 < Int.log 2 (n : ℚ)) :
    unit (n : ℚ) = Int.log 2 (n : ℚ) - 52 ∧ 2 ^ 52 ≤ ⌊(n : ℚ) / 2 ^ unit (n : ℚ)⌋₊ ∧
      ⌊(n : ℚ) / 2 ^ unit (n : ℚ)⌋₊ < 2 ^ 53 := by
  have hunit : unit (n : ℚ) = Int.log 2 (n : ℚ) - 52 := by
    rw [unit]
    omega
  have hpos : 0 < (n : ℚ) := by
    by_contra hn
    have hzero := Int.log_of_right_le_zero 2 (not_lt.mp hn)
    omega
  have hscale : (0 : ℚ) < 2 ^ unit (n : ℚ) := by positivity
  have htwo : (2 : ℚ) ≠ 0 := by norm_num
  refine ⟨hunit, ?_, ?_⟩
  · apply Nat.le_floor
    rw [le_div_iff₀ hscale, hunit]
    calc ((2 ^ 52 : ℕ) : ℚ) * 2 ^ (Int.log 2 (n : ℚ) - 52) = 2 ^ Int.log 2 (n : ℚ) := by
          rw [zpow_sub₀ htwo]
          norm_num
          ring
      _ ≤ n := pow_log_le hpos
  · have hnonneg : 0 ≤ (n : ℚ) / 2 ^ unit (n : ℚ) := by positivity
    rw [Nat.floor_lt hnonneg, div_lt_iff₀ hscale, hunit]
    calc (n : ℚ) < 2 ^ (Int.log 2 (n : ℚ) + 1) := lt_pow_log _
      _ = ((2 ^ 53 : ℕ) : ℚ) * 2 ^ (Int.log 2 (n : ℚ) - 52) := by
          rw [zpow_sub₀ htwo, zpow_add₀ htwo]
          norm_num
          ring

theorem nearest_natCast_of_lt (hlt : n < 2 ^ 53) : nearest (n : ℚ) = some (n : ℚ) := by
  apply nearest_natCast_of_log
  rw [Int.log_natCast]
  rcases Nat.eq_zero_or_pos n with rfl | hpos
  · norm_num
  · have hlog := (Nat.log_lt_iff_lt_pow (by norm_num) (by omega)).mpr hlt
    omega

/-- The double of any other natural number. -/
theorem eq_of_nearest_natCast (hx : nearest (n : ℚ) = some x) :
    x = roundEven ((n : ℚ) / 2 ^ unit (n : ℚ)) * 2 ^ unit (n : ℚ) ∧ x < 2 ^ (1024 : ℤ) := by
  rw [nearest] at hx
  split_ifs at hx with hlt
  obtain rfl := Option.some.inj hx
  exact ⟨rfl, hlt⟩

/-- The double of a natural number is one. -/
theorem natural_of_nearest_natCast (hx : nearest (n : ℚ) = some x) : ∃ m : ℕ, x = m := by
  by_cases hlog : Int.log 2 (n : ℚ) ≤ 52
  · rw [nearest_natCast_of_log hlog] at hx
    exact ⟨n, (Option.some.inj hx).symm⟩
  · obtain ⟨hunit, -, -⟩ := significand_of_log (not_le.mp hlog)
    obtain ⟨k, hk⟩ := exists_nat_zpow (by omega : 0 ≤ unit (n : ℚ)) 2
    obtain ⟨rfl, -⟩ := eq_of_nearest_natCast hx
    refine ⟨roundEven ((n : ℚ) / 2 ^ unit (n : ℚ)) * k, ?_⟩
    push_cast at hk ⊢
    rw [hk]

/-- The double of a natural number is within a factor of two. -/
theorem bounds_of_nearest_natCast (hx : nearest (n : ℚ) = some x) :
    (n : ℚ) / 2 ≤ x ∧ x ≤ 2 * n := by
  by_cases hlog : Int.log 2 (n : ℚ) ≤ 52
  · rw [nearest_natCast_of_log hlog] at hx
    obtain rfl := Option.some.inj hx
    have hnonneg : (0 : ℚ) ≤ n := Nat.cast_nonneg n
    constructor <;> linarith
  · obtain ⟨-, hlow, -⟩ := significand_of_log (not_le.mp hlog)
    obtain ⟨rfl, -⟩ := eq_of_nearest_natCast hx
    have hone : 1 ≤ (n : ℚ) / 2 ^ unit (n : ℚ) :=
      (Nat.one_le_floor_iff _).mp (le_trans (by norm_num) hlow)
    have hscale : (0 : ℚ) < 2 ^ unit (n : ℚ) := by positivity
    have hback : (n : ℚ) / 2 ^ unit (n : ℚ) * 2 ^ unit (n : ℚ) = n :=
      div_mul_cancel₀ _ (ne_of_gt hscale)
    have hbelow := half_le_of_neighbour hone (le_roundEven _)
    have habove := le_double_of_neighbour hone (roundEven_le _)
    constructor
    · calc (n : ℚ) / 2 = (n : ℚ) / 2 ^ unit (n : ℚ) / 2 * 2 ^ unit (n : ℚ) := by
            rw [div_mul_eq_mul_div, hback]
        _ ≤ _ := mul_le_mul_of_nonneg_right hbelow hscale.le
    · calc _ ≤ 2 * ((n : ℚ) / 2 ^ unit (n : ℚ)) * 2 ^ unit (n : ℚ) :=
            mul_le_mul_of_nonneg_right habove hscale.le
        _ = 2 * n := by rw [mul_assoc, hback]

/-- What is not below `2 ^ 53` does not round to less. -/
theorem le_of_nearest_natCast (hn : 2 ^ 53 ≤ n) (hx : nearest (n : ℚ) = some x) :
    2 ^ 53 ≤ x := by
  have hlog : 53 ≤ Int.log 2 (n : ℚ) := by
    apply (Int.zpow_le_iff_le_log (by norm_num) _).mp
    · exact_mod_cast hn
    · exact_mod_cast lt_of_lt_of_le (by norm_num) hn
  obtain ⟨hunit, hlow, -⟩ := significand_of_log (by omega : 52 < Int.log 2 (n : ℚ))
  obtain ⟨rfl, -⟩ := eq_of_nearest_natCast hx
  have hsome : ((2 ^ 52 : ℕ) : ℚ) ≤ roundEven ((n : ℚ) / 2 ^ unit (n : ℚ)) :=
    Nat.cast_le.mpr (hlow.trans (le_roundEven _))
  have htwo : (2 : ℚ) ≤ 2 ^ unit (n : ℚ) := by
    calc (2 : ℚ) = 2 ^ (1 : ℤ) := by norm_num
      _ ≤ 2 ^ unit (n : ℚ) := by
        apply zpow_le_zpow_right₀ (by norm_num)
        omega
  calc (2 ^ 53 : ℚ) = ((2 ^ 52 : ℕ) : ℚ) * 2 := by norm_num
    _ ≤ roundEven ((n : ℚ) / 2 ^ unit (n : ℚ)) * 2 ^ unit (n : ℚ) :=
      mul_le_mul hsome htwo (by norm_num) (Nat.cast_nonneg _)

theorem nearest_nearest_natCast (hx : nearest (n : ℚ) = some x) : nearest x = some x := by
  by_cases hlog : Int.log 2 (n : ℚ) ≤ 52
  · have hself := nearest_natCast_of_log hlog
    rw [hself] at hx
    obtain rfl := Option.some.inj hx
    exact hself
  · obtain ⟨hunit, hlow, hhigh⟩ := significand_of_log (not_le.mp hlog)
    obtain ⟨heq, hlt⟩ := eq_of_nearest_natCast hx
    have hsome := hlow.trans (le_roundEven _)
    have hfull := (roundEven_le _).trans hhigh
    have hpos : 0 < x := by
      have hround : 0 < roundEven ((n : ℚ) / 2 ^ unit (n : ℚ)) :=
        lt_of_lt_of_le (by norm_num) hsome
      rw [heq]
      positivity
    obtain ⟨m, hm⟩ := multiple_of_significand hpos heq hfull (by omega)
    exact nearest_of_multiple hm hlt

end Natural

/-! ## Decimals -/

/-- The number `coefficient * 10 ^ exponent`, without zeros at the end of its digits. -/
structure Decimal where
  coefficient : ℕ
  exponent : ℤ
  reduced : ¬ 10 ∣ coefficient
deriving DecidableEq

namespace Decimal

variable (d : Decimal)

def value : ℚ := d.coefficient * 10 ^ d.exponent

def digits : List Char := Nat.toDigits 10 d.coefficient

/-- The place of the point: the value is `0.digits * 10 ^ point`. -/
def point : ℤ := d.digits.length + d.exponent

theorem coefficient_pos : 0 < d.coefficient := by
  apply Nat.pos_of_ne_zero
  intro hzero
  apply d.reduced
  simp [hzero]

/-- `c * 10 ^ e`. -/
def ofParts (c : ℕ) (e : ℤ) (hc : c ≠ 0) : Decimal where
  coefficient := c.divMaxPow 10
  exponent := e + padicValNat 10 c
  reduced := Nat.not_dvd_divMaxPow (by norm_num) hc

theorem value_ofParts (c : ℕ) (e : ℤ) (hc : c ≠ 0) : (ofParts c e hc).value = c * 10 ^ e := by
  have hsplit : ((c.divMaxPow 10 : ℕ) : ℚ) * 10 ^ padicValNat 10 c = c := by
    exact_mod_cast Nat.divMaxPow_mul_pow_padicValNat 10 c
  calc (ofParts c e hc).value = c.divMaxPow 10 * 10 ^ (e + padicValNat 10 c) := rfl
    _ = c.divMaxPow 10 * 10 ^ padicValNat 10 c * 10 ^ e := by
        rw [zpow_add₀ (by norm_num), zpow_natCast]
        ring
    _ = c * 10 ^ e := by rw [hsplit]

end Decimal

/-! ## The shortest decimal -/

/-- What the last of `k` digits stands for, as a power of ten. -/
def scale (x : ℚ) (k : ℕ) : ℤ := Int.log 10 x + 1 - k

/-- Whether `c` at a scale is read back as `x`. -/
def reads (x : ℚ) (e : ℤ) (c : ℕ) : Bool := nearest (c * 10 ^ e) = some x

/-- The neighbour of `x` with `k` digits that is read back as `x`, the nearer one of two. -/
def readable (x : ℚ) (k : ℕ) : Option ℕ :=
  let e := scale x k
  let lower := ⌊x / 10 ^ e⌋₊
  match reads x e lower, reads x e (lower + 1) with
  | true, true => some (roundEven (x / 10 ^ e))
  | true, false => some lower
  | false, true => some (lower + 1)
  | false, false => none

/-- The fewest digits that are read back as `x`: seventeen always are. -/
def shortestParts (x : ℚ) : ℕ × ℤ :=
  match (List.range' 1 16).find? fun k => (readable x k).isSome with
  | some k => ((readable x k).getD 0, scale x k)
  | none => (roundEven (x / 10 ^ scale x 17), scale x 17)

theorem one_le_scaled {x : ℚ} (hx : 0 < x) {k : ℕ} (hk : 1 ≤ k) : 1 ≤ x / 10 ^ scale x k := by
  have hscale : (0 : ℚ) < 10 ^ scale x k := by positivity
  rw [le_div_iff₀ hscale, one_mul]
  calc (10 : ℚ) ^ scale x k ≤ 10 ^ Int.log 10 x := by
        apply zpow_le_zpow_right₀ (by norm_num)
        rw [scale]
        omega
    _ ≤ x := Int.zpow_log_le_self (by norm_num) hx

theorem readable_spec {x : ℚ} {k c : ℕ} (h : readable x k = some c) :
    ⌊x / 10 ^ scale x k⌋₊ ≤ c ∧ c ≤ ⌊x / 10 ^ scale x k⌋₊ + 1 ∧ reads x (scale x k) c := by
  unfold readable at h
  dsimp only at h
  split at h
  case h_1 hlower hupper =>
    obtain rfl := Option.some.inj h
    refine ⟨le_roundEven _, roundEven_le _, ?_⟩
    rcases roundEven_eq_or (x / 10 ^ scale x k) with heq | heq
    · rw [heq]
      exact hlower
    · rw [heq]
      exact hupper
  case h_2 hlower hupper =>
    obtain rfl := Option.some.inj h
    exact ⟨le_rfl, Nat.le_succ _, hlower⟩
  case h_3 hlower hupper =>
    obtain rfl := Option.some.inj h
    exact ⟨Nat.le_succ _, le_rfl, hupper⟩
  case h_4 hlower hupper => cases h

theorem readable_ne_none {x : ℚ} {k : ℕ} (h : reads x (scale x k) ⌊x / 10 ^ scale x k⌋₊) :
    readable x k ≠ none := by
  unfold readable
  dsimp only
  rw [h]
  split <;> simp_all

/-- The digits are those of a neighbour; up to sixteen of them are read back. -/
theorem shortestParts_spec (x : ℚ) :
    ∃ k, 1 ≤ k ∧ k ≤ 17 ∧ (shortestParts x).2 = scale x k ∧
      ⌊x / 10 ^ scale x k⌋₊ ≤ (shortestParts x).1 ∧
      (shortestParts x).1 ≤ ⌊x / 10 ^ scale x k⌋₊ + 1 ∧
      (k ≤ 16 → reads x (scale x k) (shortestParts x).1) ∧
      ∀ j, 1 ≤ j → j < k → readable x j = none := by
  unfold shortestParts
  split
  case h_1 k hfind =>
    obtain ⟨hsome, hmem, hbefore⟩ := List.find?_range'_eq_some.mp hfind
    obtain ⟨c, hc⟩ := Option.isSome_iff_exists.mp hsome
    obtain ⟨hlow, hhigh, hread⟩ := readable_spec hc
    have hk := List.mem_range'_1.mp hmem
    rw [hc]
    refine ⟨k, hk.1, by omega, rfl, hlow, hhigh, fun _ => hread, ?_⟩
    intro j hj hlt
    simpa using hbefore j hj hlt
  case h_2 hfind =>
    refine ⟨17, by norm_num, le_rfl, rfl, le_roundEven _, roundEven_le _, by omega, ?_⟩
    intro j hj hlt
    simpa using List.find?_range'_eq_none.mp hfind j hj (by omega)

section Shortest

variable {x : ℚ}

theorem shortestParts_ne_zero (hx : 0 < x) : (shortestParts x).1 ≠ 0 := by
  obtain ⟨k, hk, -, -, hlow, -⟩ := shortestParts_spec x
  have hone := (Nat.one_le_floor_iff _).mpr (one_le_scaled hx hk)
  omega

/-- The shortest decimal that is read back as `x`. -/
def shortest (x : ℚ) (hx : 0 < x) : Decimal :=
  Decimal.ofParts (shortestParts x).1 (shortestParts x).2 (shortestParts_ne_zero hx)

theorem value_shortest (hx : 0 < x) :
    (shortest x hx).value = (shortestParts x).1 * 10 ^ (shortestParts x).2 :=
  Decimal.value_ofParts _ _ _

/-- The shortest decimal is within a factor of two. -/
theorem bounds_of_shortest (hx : 0 < x) :
    x / 2 ≤ (shortest x hx).value ∧ (shortest x hx).value ≤ 2 * x := by
  obtain ⟨k, hk, -, hscale, hlow, hhigh, -⟩ := shortestParts_spec x
  rw [value_shortest, hscale]
  have hpos : (0 : ℚ) < 10 ^ scale x k := by positivity
  have hback : x / 10 ^ scale x k * 10 ^ scale x k = x := div_mul_cancel₀ _ (ne_of_gt hpos)
  have hbelow := half_le_of_neighbour (one_le_scaled hx hk) hlow
  have habove := le_double_of_neighbour (one_le_scaled hx hk) hhigh
  constructor
  · calc x / 2 = x / 10 ^ scale x k / 2 * 10 ^ scale x k := by rw [div_mul_eq_mul_div, hback]
      _ ≤ _ := mul_le_mul_of_nonneg_right hbelow hpos.le
  · calc _ ≤ 2 * (x / 10 ^ scale x k) * 10 ^ scale x k :=
          mul_le_mul_of_nonneg_right habove hpos.le
      _ = 2 * x := by rw [mul_assoc, hback]

variable {m : ℕ}

/-- A natural number that is a double needs no digits behind the point. -/
theorem scale_nonneg_of_natural (hread : nearest (m : ℚ) = some (m : ℚ)) :
    0 ≤ (shortestParts (m : ℚ)).2 := by
  obtain ⟨k, hk, hk17, hscale, -, -, -, hbefore⟩ := shortestParts_spec (m : ℚ)
  by_contra hneg
  have hlog : Int.log 10 (m : ℚ) = Nat.log 10 m := Int.log_natCast 10 m
  rw [hscale, scale, hlog] at hneg
  -- with all its digits before the point the number is its own neighbour
  have hzero : scale (m : ℚ) (Nat.log 10 m + 1) = 0 := by
    rw [scale, hlog]
    push_cast
    ring
  have hnone := hbefore (Nat.log 10 m + 1) (by omega) (by omega)
  apply readable_ne_none _ hnone
  have hfloor : ⌊(m : ℚ) / 10 ^ (0 : ℤ)⌋₊ = m := by
    rw [zpow_zero, div_one]
    exact Nat.floor_natCast m
  rw [hzero, hfloor, reads, zpow_zero, mul_one]
  exact decide_eq_true hread

theorem exponent_nonneg_of_natural (hx : (0 : ℚ) < m)
    (hread : nearest (m : ℚ) = some (m : ℚ)) : 0 ≤ (shortest (m : ℚ) hx).exponent := by
  have hscale := scale_nonneg_of_natural hread
  change 0 ≤ (shortestParts (m : ℚ)).2 + (padicValNat 10 (shortestParts (m : ℚ)).1 : ℤ)
  omega

/-- The shortest decimal of a natural number below `2 ^ 53` is the number. -/
theorem value_shortest_of_lt (hx : (0 : ℚ) < m) (hlt : m < 2 ^ 53) :
    (shortest (m : ℚ) hx).value = m := by
  have hread := nearest_natCast_of_lt hlt
  have hnonneg := scale_nonneg_of_natural hread
  obtain ⟨k, hk, hk17, hscale, -, -, hback, -⟩ := shortestParts_spec (m : ℚ)
  rw [value_shortest]
  have hm : 0 < m := by exact_mod_cast hx
  have hlog : Nat.log 10 m < 16 := by
    apply Nat.log_lt_of_lt_pow (by omega)
    omega
  have hsixteen : k ≤ 16 := by
    rw [hscale, scale, Int.log_natCast 10 m] at hnonneg
    omega
  have hreads := of_decide_eq_true (hback hsixteen)
  rw [← hscale] at hreads
  obtain ⟨p, hp⟩ := exists_nat_zpow hnonneg 10
  push_cast at hp
  rw [hp] at hreads ⊢
  have hcast : ((shortestParts (m : ℚ)).1 : ℚ) * p = ((shortestParts (m : ℚ)).1 * p : ℕ) := by
    push_cast
    rfl
  rw [hcast] at hreads ⊢
  by_cases hsmall : (shortestParts (m : ℚ)).1 * p < 2 ^ 53
  · rw [nearest_natCast_of_lt hsmall] at hreads
    exact Option.some.inj hreads
  · exfalso
    have hle := le_of_nearest_natCast (not_lt.mp hsmall) hreads
    have hcontra : 2 ^ 53 ≤ m := by exact_mod_cast hle
    omega

end Shortest

/-- A number that is not negative, as its double is written. -/
inductive Magnitude
  | zero
  | finite (d : Decimal)
  | infinite
deriving DecidableEq

/-- The double of a number that is not negative, by its shortest decimal. -/
def magnitude (x : ℚ) : Magnitude :=
  match nearest x with
  | none => .infinite
  | some y => if hy : 0 < y then .finite (shortest y hy) else .zero

/-- The double of a positive natural number is infinite, or written with a natural number
within a factor of four. -/
theorem magnitude_natCast {n : ℕ} (hn : 0 < n) :
    magnitude n = .infinite ∨ ∃ d, magnitude n = .finite d ∧ 0 ≤ d.exponent ∧
      (n : ℚ) / 4 ≤ d.value ∧ d.value ≤ 4 * n := by
  unfold magnitude
  cases hx : nearest (n : ℚ) with
  | none => exact Or.inl rfl
  | some x =>
      have hbounds := bounds_of_nearest_natCast hx
      have hn' : (0 : ℚ) < n := by exact_mod_cast hn
      have hpos : 0 < x := by linarith
      obtain ⟨m, rfl⟩ := natural_of_nearest_natCast hx
      have hshort := bounds_of_shortest hpos
      refine Or.inr ⟨shortest _ hpos, dif_pos hpos, ?_, by linarith, by linarith⟩
      exact exponent_nonneg_of_natural hpos (nearest_nearest_natCast hx)

theorem magnitude_natCast_of_lt {n : ℕ} (hn : 0 < n) (hlt : n < 2 ^ 53) :
    ∃ d, magnitude n = .finite d ∧ d.value = n := by
  have hpos : (0 : ℚ) < n := by exact_mod_cast hn
  refine ⟨shortest _ hpos, ?_, value_shortest_of_lt hpos hlt⟩
  rw [magnitude, nearest_natCast_of_lt hlt]
  exact dif_pos hpos

end Doubles

end Sieshka
