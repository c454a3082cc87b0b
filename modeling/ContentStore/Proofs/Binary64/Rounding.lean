import ContentStore.Binary64.Significand
import Mathlib.Data.Int.Log
import Mathlib.Data.Rat.Floor
import Mathlib.Tactic.Positivity
/-!
# Rounding depends on the value alone

`magnitudeOfRatio` works on a numerator and a denominator, `magnitudeOfDecimal` on digits and an
exponent.  Both are functions of the rational number that these stand for:

* `magnitudeOfRatio_congr`: two quotients of one value round to one magnitude;
* `magnitudeOfDecimal_eq_ratio`: the two shortcuts for exponents far outside the doubles give what
  the quotient gives;
* `magnitudeOfDecimal_shift`: zeros may move between the digits and the exponent;
* `magnitudeOfRatio_exact`: the value of a finite magnitude rounds to that magnitude.

So a product with one does not round, and a significand without a power of ten has the magnitude
nearest to it (`magnitudeOfSignificand_zero`).
-/

namespace ContentStore.Binary64

/-! ## Powers -/

theorem powerOfTwo_pos (e : Int) : 0 < powerOfTwo e := Nat.pow_pos (by decide)

theorem powerOfTen_pos (e : Int) : 0 < powerOfTen e := Nat.pow_pos (by decide)

/-- The two powers of an exponent and its negation are the power over the rationals. -/
theorem powerOfTwo_div (e : Int) : (powerOfTwo e : ℚ) / powerOfTwo (-e) = 2 ^ e := by
  simp only [powerOfTwo, Nat.pow_eq, Nat.cast_pow, Nat.cast_ofNat]
  rcases Int.eq_nat_or_neg e with ⟨n, rfl | rfl⟩
  · simp
  · simp

/-- `2 ^ e ≤ num / den`, said without fractions. -/
theorem powerOfTwo_le_ratio {num den : Nat} (hd : 0 < den) (e : Int) :
    den * powerOfTwo e ≤ num * powerOfTwo (-e) ↔ (2 : ℚ) ^ e ≤ (num : ℚ) / den := by
  have hd' : (0 : ℚ) < den := by exact_mod_cast hd
  have hp : (0 : ℚ) < powerOfTwo (-e) := by exact_mod_cast powerOfTwo_pos (-e)
  rw [← powerOfTwo_div, div_le_div_iff₀ hp hd', mul_comm (powerOfTwo e : ℚ)]
  exact_mod_cast Iff.rfl

/-! ## The binary logarithm of a quotient -/

/-- The logarithms of the parts enclose the quotient within two powers of two. -/
theorem ratio_between {num den : Nat} (hn : 0 < num) (hd : 0 < den) :
    (2 : ℚ) ^ ((num.log2 : Int) - den.log2 - 1) < (num : ℚ) / den ∧
      (num : ℚ) / den < 2 ^ ((num.log2 : Int) - den.log2 + 1) := by
  have hd' : (0 : ℚ) < den := by exact_mod_cast hd
  have two : (2 : ℚ) ≠ 0 := by norm_num
  have numLow : (2 : ℚ) ^ num.log2 ≤ num := by exact_mod_cast Nat.log2_self_le (Nat.ne_of_gt hn)
  have numHigh : (num : ℚ) < 2 ^ num.log2 * 2 := by exact_mod_cast Nat.lt_log2_self (n := num)
  have denLow : (2 : ℚ) ^ den.log2 ≤ den := by exact_mod_cast Nat.log2_self_le (Nat.ne_of_gt hd)
  have denHigh : (den : ℚ) < 2 ^ den.log2 * 2 := by exact_mod_cast Nat.lt_log2_self (n := den)
  have powPos : (0 : ℚ) < 2 ^ den.log2 := by positivity
  constructor
  · rw [zpow_sub_one₀ two, zpow_sub₀ two, zpow_natCast, zpow_natCast, lt_div_iff₀ hd',
      ← div_eq_mul_inv, div_div, div_mul_eq_mul_div, div_lt_iff₀ (by positivity)]
    calc (2 : ℚ) ^ num.log2 * den < 2 ^ num.log2 * (2 ^ den.log2 * 2) := by gcongr
      _ ≤ num * (2 ^ den.log2 * 2) := by gcongr
  · rw [zpow_add_one₀ two, zpow_sub₀ two, zpow_natCast, zpow_natCast, div_lt_iff₀ hd',
      div_mul_eq_mul_div, div_mul_eq_mul_div, lt_div_iff₀ powPos]
    calc (num : ℚ) * 2 ^ den.log2 < 2 ^ num.log2 * 2 * 2 ^ den.log2 := by gcongr
      _ ≤ 2 ^ num.log2 * 2 * den := by gcongr

/-- The logarithm is the exponent whose power and the next one enclose the quotient. -/
theorem log_eq_of_between {x : ℚ} {e : Int} (hx : 0 < x) (low : (2 : ℚ) ^ e ≤ x)
    (high : x < 2 ^ (e + 1)) : Int.log 2 x = e := by
  have h1 : e ≤ Int.log 2 x :=
    (Int.zpow_le_iff_le_log (b := 2) (by decide) hx).mp (by exact_mod_cast low)
  have h2 : Int.log 2 x < e + 1 :=
    (Int.lt_zpow_iff_log_lt (b := 2) (by decide) hx).mp (by exact_mod_cast high)
  omega

theorem floorLog2_eq_log {num den : Nat} (hn : 0 < num) (hd : 0 < den) :
    floorLog2 num den = Int.log 2 ((num : ℚ) / den) := by
  have positive : (0 : ℚ) < (num : ℚ) / den := by positivity
  obtain ⟨low, high⟩ := ratio_between hn hd
  unfold floorLog2
  dsimp only
  split
  · next reached =>
    exact (log_eq_of_between positive ((powerOfTwo_le_ratio hd _).mp reached) high).symm
  · next missed =>
    have below := not_le.mp (mt (powerOfTwo_le_ratio hd _).mpr missed)
    exact (log_eq_of_between positive low.le (by simpa using below)).symm

/-- A bound of the quotient from below bounds its logarithm. -/
theorem le_floorLog2 {num den : Nat} {e : Int} (hn : 0 < num) (hd : 0 < den)
    (h : den * powerOfTwo e ≤ num * powerOfTwo (-e)) : e ≤ floorLog2 num den := by
  rw [floorLog2_eq_log hn hd]
  have low := (powerOfTwo_le_ratio hd e).mp h
  exact (Int.zpow_le_iff_le_log (b := 2) (by decide) (by positivity)).mp (by exact_mod_cast low)

/-- A bound of the quotient from above bounds its logarithm. -/
theorem floorLog2_lt {num den : Nat} {e : Int} (hn : 0 < num) (hd : 0 < den)
    (h : num * powerOfTwo (-e) < den * powerOfTwo e) : floorLog2 num den < e := by
  rw [floorLog2_eq_log hn hd]
  have high := not_le.mp (mt (powerOfTwo_le_ratio hd e).mpr (Nat.not_le.mpr h))
  exact (Int.lt_zpow_iff_log_lt (b := 2) (by decide) (by positivity)).mp (by exact_mod_cast high)

/-! ## Rounding a quotient -/

theorem roundHalfEven_mul_left {k num den : Nat} (hk : 0 < k) :
    roundHalfEven (k * num) (k * den) = roundHalfEven num den := by
  have less : 2 * (k * (num % den)) < k * den ↔ 2 * (num % den) < den := by
    rw [Nat.mul_left_comm]
    exact Nat.mul_lt_mul_left hk
  have equal : 2 * (k * (num % den)) = k * den ↔ 2 * (num % den) = den := by
    rw [Nat.mul_left_comm]
    exact Nat.mul_left_cancel_iff hk
  simp only [roundHalfEven, Nat.mul_div_mul_left _ _ hk, Nat.mul_mod_mul_left, less, equal]

/-- A whole number is rounded to itself. -/
theorem roundHalfEven_mul_self {n den : Nat} (hd : 0 < den) : roundHalfEven (n * den) den = n := by
  simp [roundHalfEven, Nat.mul_div_cancel _ hd, hd]

/-- What lies below a half is rounded to zero. -/
theorem roundHalfEven_eq_zero {num den : Nat} (h : 2 * num < den) : roundHalfEven num den = 0 := by
  have small : num < den := by omega
  simp [roundHalfEven, Nat.div_eq_of_lt small, Nat.mod_eq_of_lt small, h]

theorem roundHalfEven_le {num den k : Nat} (h : num < k * den) :
    roundHalfEven num den ≤ k := by
  have quotient : num / den < k := Nat.div_lt_of_lt_mul (Nat.mul_comm k den ▸ h)
  unfold roundHalfEven
  dsimp only
  split <;> omega

theorem magnitudeOfRatio_mul_left (num : Nat) {k den : Nat} (hk : 0 < k) (hd : 0 < den) :
    magnitudeOfRatio (k * num) (k * den) = magnitudeOfRatio num den := by
  rcases Nat.eq_zero_or_pos num with rfl | hn
  · simp [magnitudeOfRatio]
  · have sameLog : floorLog2 (k * num) (k * den) = floorLog2 num den := by
      have hk' : (k : ℚ) ≠ 0 := by exact_mod_cast Nat.ne_of_gt hk
      rw [floorLog2_eq_log (Nat.mul_pos hk hn) (Nat.mul_pos hk hd), floorLog2_eq_log hn hd,
        Nat.cast_mul, Nat.cast_mul, mul_div_mul_left _ _ hk']
    have left : k * num ≠ 0 := Nat.ne_of_gt (Nat.mul_pos hk hn)
    simp only [magnitudeOfRatio, left, Nat.ne_of_gt hn, if_false, sameLog, Nat.mul_assoc,
      roundHalfEven_mul_left hk]

/-- Quotients of one value round to one magnitude. -/
theorem magnitudeOfRatio_congr {num den num' den' : Nat} (hd : 0 < den) (hd' : 0 < den')
    (same : num * den' = num' * den) : magnitudeOfRatio num den = magnitudeOfRatio num' den' := by
  rw [← magnitudeOfRatio_mul_left num hd' hd, ← magnitudeOfRatio_mul_left num' hd hd',
    Nat.mul_comm den' num, same, Nat.mul_comm num' den, Nat.mul_comm den' den]

/-- From two to the 1029th on a quotient is infinite. -/
theorem magnitudeOfRatio_infinite {num den : Nat} (hn : 0 < num) (hd : 0 < den)
    (large : den * powerOfTwo 1029 ≤ num) : magnitudeOfRatio num den = infiniteMagnitude := by
  have log : 1029 ≤ floorLog2 num den :=
    le_floorLog2 hn hd (Nat.le_trans large (Nat.le_mul_of_pos_right _ (powerOfTwo_pos _)))
  have enough : 2047 * leadingBit ≤ (max (floorLog2 num den - 52) (-1074) + 1074).toNat *
      leadingBit := Nat.mul_le_mul_right _ (by omega)
  simp only [magnitudeOfRatio, Nat.ne_of_gt hn, if_false]
  exact Nat.min_eq_right (Nat.le_trans enough (Nat.le_add_right _ _))

/-- Below half the least double a quotient is zero. -/
theorem magnitudeOfRatio_zero {num den : Nat} (hd : 0 < den)
    (small : 2 * (num * powerOfTwo 1074) < den) : magnitudeOfRatio num den = 0 := by
  rcases Nat.eq_zero_or_pos num with rfl | hn
  · rfl
  · have log : floorLog2 num den < -1074 := by
      refine floorLog2_lt hn hd ?_
      have one : powerOfTwo (-1074) = 1 := by decide
      rw [one, Int.neg_neg]
      omega
    have exponent : max (floorLog2 num den - 52) (-1074) = -1074 := by omega
    have one : powerOfTwo (-1074) = 1 := by decide
    simp only [magnitudeOfRatio, Nat.ne_of_gt hn, if_false, exponent, Int.neg_neg, one, Nat.mul_one,
      roundHalfEven_eq_zero small]
    decide

/-! ## Decimals -/

/-- An exponent from 310 on puts any digits beyond the doubles. -/
theorem magnitudeOfRatio_largeDecimal {digits : Nat} {exponent : Int} (hd : digits ≠ 0)
    (he : 310 ≤ exponent) :
    magnitudeOfRatio (digits * powerOfTen exponent) (powerOfTen (-exponent)) =
      infiniteMagnitude := by
  have one : powerOfTen (-exponent) = 1 := by
    rw [powerOfTen, show (-exponent).toNat = 0 by omega, Nat.pow_eq, Nat.pow_zero]
  have atLeast : powerOfTwo 1029 ≤ powerOfTen exponent := by
    calc powerOfTwo 1029 ≤ 10 ^ 310 := by decide +kernel
      _ ≤ 10 ^ exponent.toNat := Nat.pow_le_pow_right (by decide) (by omega)
  have positive : 0 < digits * powerOfTen exponent :=
    Nat.mul_pos (Nat.pos_of_ne_zero hd) (powerOfTen_pos _)
  rw [one]
  refine magnitudeOfRatio_infinite positive Nat.one_pos ?_
  rw [Nat.one_mul]
  exact Nat.le_trans atLeast (Nat.le_mul_of_pos_left _ (Nat.pos_of_ne_zero hd))

theorem twice_scaled_lt {m n : Nat} (e : Int) (h : m < 2 ^ (n + 1)) :
    2 * (m * powerOfTwo e) < 2 ^ (n + 2 + e.toNat) := by
  have := Nat.mul_lt_mul_of_pos_right h (powerOfTwo_pos e)
  rw [Nat.pow_add, Nat.pow_succ, Nat.mul_right_comm]
  simp only [powerOfTwo, Nat.pow_eq] at this ⊢
  omega

/-- An exponent far below the digits puts the value under half the least double. -/
theorem magnitudeOfRatio_smallDecimal {digits : Nat} {exponent : Int}
    (he : (digits.log2 : Int) + 1081 < -3 * exponent) :
    magnitudeOfRatio (digits * powerOfTen exponent) (powerOfTen (-exponent)) = 0 := by
  have one : powerOfTen exponent = 1 := by
    rw [powerOfTen, show exponent.toNat = 0 by omega, Nat.pow_eq, Nat.pow_zero]
  refine magnitudeOfRatio_zero (powerOfTen_pos _) ?_
  rw [one, Nat.mul_one]
  calc 2 * (digits * powerOfTwo 1074) < 2 ^ (digits.log2 + 2 + (1074 : Int).toNat) :=
        twice_scaled_lt 1074 Nat.lt_log2_self
    _ ≤ 2 ^ (3 * (-exponent).toNat) := Nat.pow_le_pow_right (by decide) (by omega)
    _ = 8 ^ (-exponent).toNat := by rw [Nat.pow_mul]
    _ ≤ 10 ^ (-exponent).toNat := Nat.pow_le_pow_left (by decide) _

/-- The two shortcuts do not show: a decimal is rounded as the quotient that it stands for. -/
theorem magnitudeOfDecimal_eq_ratio (digits : Nat) (exponent : Int) :
    magnitudeOfDecimal digits exponent =
      magnitudeOfRatio (digits * powerOfTen exponent) (powerOfTen (-exponent)) := by
  unfold magnitudeOfDecimal
  split
  · next zero => simp [zero, magnitudeOfRatio]
  · next nonzero =>
    split
    · next large => exact (magnitudeOfRatio_largeDecimal nonzero large).symm
    · split
      · next small => exact (magnitudeOfRatio_smallDecimal small).symm
      · rfl

/-- Zeros at the end of the digits count as much as the exponent. -/
theorem magnitudeOfDecimal_shift (digits zeros : Nat) (exponent : Int) :
    magnitudeOfDecimal (digits * 10 ^ zeros) exponent =
      magnitudeOfDecimal digits (exponent + zeros) := by
  rw [magnitudeOfDecimal_eq_ratio, magnitudeOfDecimal_eq_ratio]
  refine magnitudeOfRatio_congr (powerOfTen_pos _) (powerOfTen_pos _) ?_
  have exponents : zeros + exponent.toNat + (-(exponent + zeros)).toNat =
      (exponent + zeros).toNat + (-exponent).toNat := by omega
  simp only [powerOfTen, Nat.pow_eq, Nat.mul_assoc, ← Nat.pow_add]
  rw [exponents]

/-! ## Exact values -/

theorem significand_pos {magnitude : Nat} (positive : 0 < magnitude) :
    0 < significand magnitude := by
  unfold significand
  split
  · exact positive
  · exact Nat.add_pos_left (by decide) _

theorem powerOfTwo_cross (q : Int) (n : Nat) :
    powerOfTwo (-q) * powerOfTwo (q + n) = 2 ^ n * (powerOfTwo q * powerOfTwo (-(q + n))) := by
  have exponents : (-q).toNat + (q + n).toNat = n + (q.toNat + (-(q + n)).toNat) := by omega
  simp only [powerOfTwo, Nat.pow_eq, ← Nat.pow_add]
  rw [exponents]

/-- A significand of more than `n` bits puts the value from `2 ^ (q + n)` on. -/
theorem le_floorLog2_scaled {m n : Nat} (q : Int) (h : 2 ^ n ≤ m) :
    q + n ≤ floorLog2 (m * powerOfTwo q) (powerOfTwo (-q)) := by
  have hm : 0 < m := Nat.lt_of_lt_of_le (Nat.pow_pos (by decide)) h
  refine le_floorLog2 (Nat.mul_pos hm (powerOfTwo_pos q)) (powerOfTwo_pos _) ?_
  rw [powerOfTwo_cross, Nat.mul_assoc]
  exact Nat.mul_le_mul_right _ h

/-- A significand of at most `n` bits keeps the value below `2 ^ (q + n)`. -/
theorem floorLog2_scaled_lt {m n : Nat} (q : Int) (hm : 0 < m) (h : m < 2 ^ n) :
    floorLog2 (m * powerOfTwo q) (powerOfTwo (-q)) < q + n := by
  refine floorLog2_lt (Nat.mul_pos hm (powerOfTwo_pos q)) (powerOfTwo_pos _) ?_
  rw [powerOfTwo_cross, Nat.mul_assoc]
  exact Nat.mul_lt_mul_of_pos_right h (Nat.mul_pos (powerOfTwo_pos _) (powerOfTwo_pos _))

/-- The grid of a magnitude's binade is that of its scale. -/
theorem grid_of_magnitude {magnitude : Nat} (positive : 0 < significand magnitude) :
    max (floorLog2 (significand magnitude * powerOfTwo (scale magnitude))
      (powerOfTwo (-scale magnitude)) - 52) (-1074) = scale magnitude := by
  have high := floorLog2_scaled_lt (n := 53) (scale magnitude) positive
  have low := le_floorLog2_scaled (m := significand magnitude) (n := 52) (scale magnitude)
  have tiny := floorLog2_scaled_lt (n := 52) (scale magnitude) positive
  generalize floorLog2 (significand magnitude * powerOfTwo (scale magnitude))
    (powerOfTwo (-scale magnitude)) = log at high low tiny ⊢
  revert high low tiny
  unfold significand scale leadingBit
  split
  · intro _ _ tiny
    have := tiny (by omega)
    omega
  · intro high low _
    have := high (by omega)
    have := low (by omega)
    omega

/-- The value of a finite magnitude is that of its significand and scale, and no rounding moves
it. -/
theorem magnitudeOfRatio_exact {magnitude : Nat} (positive : 0 < magnitude)
    (finite : magnitude < infiniteMagnitude) :
    magnitudeOfRatio (significand magnitude * powerOfTwo (scale magnitude))
      (powerOfTwo (-scale magnitude)) = magnitude := by
  have significandPos := significand_pos positive
  have numPos := Nat.mul_pos significandPos (powerOfTwo_pos (scale magnitude))
  have bits : (scale magnitude + 1074).toNat * leadingBit + significand magnitude = magnitude := by
    unfold scale significand leadingBit
    split <;> omega
  have whole : significand magnitude * powerOfTwo (scale magnitude) *
      powerOfTwo (-scale magnitude) = significand magnitude *
      (powerOfTwo (-scale magnitude) * powerOfTwo (scale magnitude)) := by
    rw [Nat.mul_assoc, Nat.mul_comm (powerOfTwo (scale magnitude))]
  simp only [magnitudeOfRatio, Nat.ne_of_gt numPos, if_false, grid_of_magnitude significandPos]
  rw [whole, roundHalfEven_mul_self (Nat.mul_pos (powerOfTwo_pos _) (powerOfTwo_pos _)), bits]
  exact Nat.min_eq_left (Nat.le_of_lt finite)

/-! ## Finite values -/

/-- Up to two to the 1023rd a quotient is finite. -/
theorem magnitudeOfRatio_finite {num den e : Nat} (hd : 0 < den) (he : e ≤ 1023)
    (small : num < den * powerOfTwo e) : magnitudeOfRatio num den < infiniteMagnitude := by
  rcases Nat.eq_zero_or_pos num with rfl | hn
  · exact Nat.mul_pos (by decide) (by decide)
  have one : powerOfTwo (-(e : Int)) = 1 := by
    rw [powerOfTwo, Int.toNat_neg_natCast, Nat.pow_eq, Nat.pow_zero]
  have log : floorLog2 num den < e := floorLog2_lt hn hd (by rwa [one, Nat.mul_one])
  simp only [magnitudeOfRatio, Nat.ne_of_gt hn, if_false]
  generalize grid : max (floorLog2 num den - 52) (-1074) = q
  have above : num * powerOfTwo (-(q + (53 : Nat))) < den * powerOfTwo (q + (53 : Nat)) :=
    Nat.not_le.mp fun h => by
      have := le_floorLog2 hn hd h
      omega
  have bits : num * powerOfTwo (-q) < 2 ^ 53 * (den * powerOfTwo q) := by
    refine Nat.lt_of_mul_lt_mul_right (a := powerOfTwo (-(q + (53 : Nat)))) ?_
    calc num * powerOfTwo (-q) * powerOfTwo (-(q + (53 : Nat)))
        = num * powerOfTwo (-(q + (53 : Nat))) * powerOfTwo (-q) := Nat.mul_right_comm _ _ _
      _ < den * powerOfTwo (q + (53 : Nat)) * powerOfTwo (-q) :=
          Nat.mul_lt_mul_of_pos_right above (powerOfTwo_pos _)
      _ = den * (powerOfTwo (-q) * powerOfTwo (q + (53 : Nat))) := by ring
      _ = 2 ^ 53 * (den * powerOfTwo q) * powerOfTwo (-(q + (53 : Nat))) := by
          rw [powerOfTwo_cross]
          ring
  have significand := roundHalfEven_le bits
  have scaled : (q + 1074).toNat * leadingBit ≤ 2044 * leadingBit :=
    Nat.mul_le_mul_right _ (by omega)
  have enough : 2044 * leadingBit + 2 ^ 53 < infiniteMagnitude := by decide
  exact Nat.lt_of_le_of_lt (Nat.min_le_left _ _)
    (Nat.lt_of_le_of_lt (Nat.add_le_add scaled significand) enough)

/-- A product with one does not round. -/
theorem timesMagnitude_one {magnitude : Nat} (finite : magnitude < infiniteMagnitude) :
    timesMagnitude magnitude one.magnitude = magnitude := by
  have unit : significand one.magnitude = 2 ^ 52 ∧ scale one.magnitude = -52 := by decide
  unfold timesMagnitude
  rw [unit.1, unit.2]
  rcases Nat.eq_zero_or_pos magnitude with rfl | positive
  · rfl
  · refine Eq.trans ?_ (magnitudeOfRatio_exact positive finite)
    have cross := powerOfTwo_cross (scale magnitude + -52) 52
    have back : scale magnitude + -52 + (52 : Nat) = scale magnitude := by omega
    rw [back] at cross
    refine magnitudeOfRatio_congr (powerOfTwo_pos _) (powerOfTwo_pos _) ?_
    calc significand magnitude * 2 ^ 52 * powerOfTwo (scale magnitude + -52) *
          powerOfTwo (-scale magnitude)
        = significand magnitude *
          (2 ^ 52 * (powerOfTwo (scale magnitude + -52) * powerOfTwo (-scale magnitude))) := by ring
      _ = significand magnitude * powerOfTwo (scale magnitude) *
          powerOfTwo (-(scale magnitude + -52)) := by
          rw [← cross]
          ring

/-- A significand without a power of ten has the magnitude nearest to it. -/
theorem magnitudeOfSignificand_zero {digits : Nat}
    (finite : magnitudeOfRatio digits 1 < infiniteMagnitude) :
    magnitudeOfSignificand digits 0 = magnitudeOfRatio digits 1 := by
  have ten : tenMagnitude 0 = one.magnitude := by decide
  unfold magnitudeOfSignificand
  rw [if_neg (by decide), if_pos (by decide)]
  exact (congrArg (timesMagnitude _) ten).trans (timesMagnitude_one finite)

end ContentStore.Binary64
