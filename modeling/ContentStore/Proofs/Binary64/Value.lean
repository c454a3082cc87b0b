import ContentStore.Binary64.Decimal
import ContentStore.Proofs.Binary64.Order
import Mathlib.Order.WithBot
/-!
# The numbers that doubles are nearest to

Exact numbers (`ExtendedRat`) do not depend on how doubles round.  A number has a nearest double,
that of an integer, of a decimal and of the double itself among them.  Of two numbers the smaller
one never has the greater nearest double, and one number has one nearest double, but for the sign
of zero (`Nearest.rank_le`, `Nearest.le_iff`).
-/

namespace ContentStore

/-- A rational number or an infinity. -/
abbrev ExtendedRat := WithBot (WithTop ℚ)

namespace ExtendedRat

/-- A rational number under a sign. -/
def signed (negative : Bool) (q : ℚ) : ExtendedRat :=
  ((if negative then -q else q : ℚ) : WithTop ℚ)

/-- The infinity of a sign. -/
def infinite (negative : Bool) : ExtendedRat := if negative then ⊥ else ⊤

@[simp] theorem signed_le_signed (m n : Bool) (q r : ℚ) :
    signed m q ≤ signed n r ↔ (if m then -q else q) ≤ if n then -r else r := by simp [signed]

theorem signed_zero (negative : Bool) : signed negative 0 = 0 := by cases negative <;> rfl

end ExtendedRat

open ExtendedRat (signed infinite)

/-- The number that a decimal writes. -/
def Decimal.value (d : Decimal) : ℚ := d.digits * 10 ^ d.exponent

namespace Binary64

/-! ## Nearest doubles -/

/-- The number that a finite double is. -/
def value (x : Binary64) : ExtendedRat :=
  signed x.negative (significand x.magnitude * 2 ^ scale x.magnitude)

/-- A double is nearest to a number: its magnitude is that of the number, its sign too, and zero has
two nearest doubles. -/
inductive Nearest : ExtendedRat → Binary64 → Prop
  | ratio (negative : Bool) (num : Nat) {den : Nat} (pos : 0 < den) :
    Nearest (signed negative (num / den)) ⟨negative, magnitudeOfRatio num den⟩
  | infinite (negative : Bool) : Nearest (infinite negative) (infinity negative)

theorem nearest_ofInt (i : Int) : Nearest (signed false i) (ofInt i) := by
  have value : signed false i = signed (decide (i < 0)) (i.natAbs / (1 : ℕ)) := by
    rw [Nat.cast_one, div_one]
    cases i with
    | ofNat n =>
      have plain : ¬(Int.ofNat n < 0) := Int.not_lt.mpr (Int.natCast_nonneg n)
      rw [decide_eq_false plain]
      rfl
    | negSucc n =>
      rw [decide_eq_true (Int.negSucc_lt_zero n), Int.cast_negSucc]
      rfl
  rw [value]
  exact .ratio _ _ Nat.one_pos

theorem nearest_ofDecimal (negative : Bool) (d : Decimal) :
    Nearest (signed negative d.value) (ofDecimal negative d.digits d.exponent) := by
  have power : (10 : ℚ) ^ d.exponent = powerOfTen d.exponent / powerOfTen (-d.exponent) := by
    simp only [powerOfTen, Nat.pow_eq, Nat.cast_pow, Nat.cast_ofNat]
    rcases Int.eq_nat_or_neg d.exponent with ⟨n, h | h⟩ <;> simp [h]
  have value : d.value = (d.digits * powerOfTen d.exponent : ℕ) / powerOfTen (-d.exponent) := by
    rw [Decimal.value, power, Nat.cast_mul, mul_div_assoc]
  rw [value, ofDecimal, magnitudeOfDecimal_eq_ratio]
  exact .ratio negative _ (powerOfTen_pos _)

/-- A finite double is nearest to the number that it is. -/
theorem nearest_value {x : Binary64} (finite : x.IsFinite) : Nearest x.value x := by
  obtain ⟨negative, magnitude⟩ := x
  have value : (significand magnitude * 2 ^ scale magnitude : ℚ) =
      (significand magnitude * powerOfTwo (scale magnitude) : ℕ) /
        powerOfTwo (-scale magnitude) := by
    rw [← powerOfTwo_div, Nat.cast_mul, mul_div_assoc]
  have exact : magnitudeOfRatio (significand magnitude * powerOfTwo (scale magnitude))
      (powerOfTwo (-scale magnitude)) = magnitude := by
    rcases Nat.eq_zero_or_pos magnitude with rfl | positive
    · decide
    · exact magnitudeOfRatio_exact positive finite
  have near := Nearest.ratio negative (significand magnitude * powerOfTwo (scale magnitude))
    (powerOfTwo_pos (-scale magnitude))
  rwa [exact, ← value] at near

theorem magnitudeOfRatio_le (num den : Nat) : magnitudeOfRatio num den ≤ infiniteMagnitude := by
  unfold magnitudeOfRatio
  split
  · exact Nat.zero_le _
  · exact Nat.min_le_right _ _

theorem Nearest.magnitude_le {v : ExtendedRat} {x : Binary64} (near : Nearest v x) :
    x.magnitude ≤ infiniteMagnitude := by
  cases near with
  | ratio => exact magnitudeOfRatio_le _ _
  | infinite => exact Nat.le_refl _

theorem Nearest.ne_notANumber {v : ExtendedRat} {x : Binary64} (near : Nearest v x)
    {negative : Bool} : x ≠ notANumber negative := by
  rintro rfl
  have beyond : infiniteMagnitude < notANumberMagnitude := by decide
  exact absurd near.magnitude_le (Nat.not_le.mpr beyond)

theorem ratio_le_ratio {num den num' den' : Nat} (hd : 0 < den) (hd' : 0 < den') :
    (num / den : ℚ) ≤ num' / den' ↔ num * den' ≤ num' * den := by
  rw [div_le_div_iff₀ (by exact_mod_cast hd) (by exact_mod_cast hd')]
  exact_mod_cast Iff.rfl

/-- Only zero is neither above zero nor below it. -/
theorem zeros_of_ratio_le {num den num' den' : Nat} (hd : 0 < den) (hd' : 0 < den')
    (le : (num / den : ℚ) ≤ -(num' / den')) : num = 0 ∧ num' = 0 := by
  have positive : (0 : ℚ) < den := by exact_mod_cast hd
  have positive' : (0 : ℚ) < den' := by exact_mod_cast hd'
  have left : (0 : ℚ) ≤ num / den := by positivity
  have right : (0 : ℚ) ≤ num' / den' := by positivity
  have zero : (num / den : ℚ) = 0 := by linarith
  have zero' : (num' / den' : ℚ) = 0 := by linarith
  rw [div_eq_zero_iff, or_iff_left positive.ne'] at zero
  rw [div_eq_zero_iff, or_iff_left positive'.ne'] at zero'
  exact ⟨by exact_mod_cast zero, by exact_mod_cast zero'⟩

/-- A number that is not larger has no greater nearest double, unless both are zeros. -/
theorem Nearest.rank_le {v w : ExtendedRat} {x y : Binary64} (near : Nearest v x)
    (near' : Nearest w y) (le : v ≤ w) :
    x.rank ≤ y.rank ∨ v = 0 ∧ w = 0 ∧ x = zero ∧ y = ⟨true, 0⟩ := by
  have atMost := near.magnitude_le
  have atMost' := near'.magnitude_le
  cases near with
  | infinite negative =>
    cases negative with
    | true =>
      refine .inl ?_
      obtain ⟨_ | _, m⟩ := y
      · simp only [infinity, rank_signed, rank_plain]
        omega
      · simp only [infinity, rank_signed] at atMost' ⊢
        omega
    | false =>
      have top : w = ⊤ := top_le_iff.mp le
      cases near' with
      | infinite negative' =>
        cases negative' with
        | true => cases top
        | false => exact .inl (Int.le_refl _)
      | ratio => cases top
  | ratio negative num pos =>
    cases near' with
    | infinite negative' =>
      cases negative' with
      | true => exact absurd (le_bot_iff.mp le) WithBot.coe_ne_bot
      | false =>
        refine .inl ?_
        cases negative <;> simp only [infinity, rank_signed, rank_plain] at atMost ⊢ <;> omega
    | ratio negative' num' pos' =>
      rw [ExtendedRat.signed_le_signed] at le
      cases negative <;> cases negative' <;>
        simp only [Bool.false_eq_true, if_false, if_true, rank_signed, rank_plain] at le ⊢
      · have mono := magnitudeOfRatio_mono pos pos' ((ratio_le_ratio pos pos').mp le)
        exact .inl (Int.ofNat_le.mpr mono)
      · obtain ⟨rfl, rfl⟩ := zeros_of_ratio_le pos pos' le
        rw [Nat.cast_zero, zero_div, zero_div]
        exact .inr ⟨ExtendedRat.signed_zero _, ExtendedRat.signed_zero _, rfl, rfl⟩
      · exact .inl (by omega)
      · have mono := magnitudeOfRatio_mono pos' pos
          ((ratio_le_ratio pos' pos).mp (neg_le_neg_iff.mp le))
        exact .inl (by omega)

/-- A double stands for a number: it is nearest to it, or it is not a number and stands for zero. -/
inductive StandsFor : Binary64 → ExtendedRat → Prop
  | nearest {v : ExtendedRat} {x : Binary64} (near : Nearest v x) : StandsFor x v
  | notANumber (negative : Bool) : StandsFor (notANumber negative) 0

theorem nearest_zero : Nearest 0 zero := by
  have near := Nearest.ratio false 0 Nat.one_pos
  rwa [Nat.cast_zero, zero_div, ExtendedRat.signed_zero] at near

namespace StandsFor

variable {v : ExtendedRat} {x : Binary64}

theorem cases (stands : x.StandsFor v) :
    Nearest v x ∨ v = 0 ∧ ∃ negative, x = Binary64.notANumber negative := by
  cases stands with
  | nearest near => exact .inl near
  | notANumber negative => exact .inr ⟨rfl, negative, rfl⟩

theorem magnitude_le (stands : x.StandsFor v) : x.magnitude ≤ notANumberMagnitude := by
  cases stands with
  | nearest near => exact Nat.le_trans near.magnitude_le (by decide)
  | notANumber => exact Nat.le_refl _

/-- What is not a number stands for zero. -/
theorem eq_zero {negative : Bool} (stands : (Binary64.notANumber negative).StandsFor v) :
    v = 0 := by
  rcases stands.cases with near | ⟨zero, -⟩
  · exact absurd rfl near.ne_notANumber
  · exact zero

theorem le_notANumber (stands : x.StandsFor v) : TotalLe x (Binary64.notANumber false) := by
  have atMost := stands.magnitude_le
  obtain ⟨_ | _, m⟩ := x
  · exact .plain atMost
  · exact .signs _ _

theorem notANumber_le (stands : x.StandsFor v) : TotalLe (Binary64.notANumber true) x := by
  have atMost := stands.magnitude_le
  obtain ⟨_ | _, m⟩ := x
  · exact .signs _ _
  · exact .signed atMost

end StandsFor

/-- The order of doubles is that of the numbers, but for two numbers that are rounded to one double
and two zeros with different signs. -/
theorem Nearest.le_iff {v w : ExtendedRat} {x y : Binary64} (near : Nearest v x)
    (near' : Nearest w y) : (v ≤ w ↔ TotalLe x y) ∨ w < v ∧ x = y ∨
      v = 0 ∧ w = 0 ∧ x = zero ∧ y = ⟨true, 0⟩ := by
  rcases le_or_gt v w with le | less
  · rcases near.rank_le near' le with ordered | zeros
    · exact .inl (iff_of_true le (rank_le_iff.mp ordered))
    · exact .inr (.inr zeros)
  · rcases near'.rank_le near less.le with ordered | ⟨zero, zero', -⟩
    · by_cases same : x = y
      · exact .inr (.inl ⟨less, same⟩)
      · refine .inl (iff_of_false less.not_ge fun other => same ?_)
        exact Std.Antisymm.antisymm _ _ other (rank_le_iff.mp ordered)
    · exact absurd (zero.trans zero'.symm) less.ne

end Binary64

end ContentStore
