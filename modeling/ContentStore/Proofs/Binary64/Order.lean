import ContentStore.Proofs.Binary64.Rounding
import Mathlib.Order.Defs.Unbundled
/-!
# The order of doubles

The rank of a double stands for an order by sign and magnitude in which every two doubles have a
place, the two zeros and what is not a number among them (`rank_le_iff`).  Rounding keeps the order
of the numbers that are rounded: a larger quotient has no smaller magnitude
(`magnitudeOfRatio_mono`).
-/

namespace ContentStore.Binary64

/-! ## The total order -/

/-- The total order of doubles: one with a sign stands before one without, of two without a sign
the one of less magnitude stands first, and of two with a sign the one of greater magnitude. -/
inductive TotalLe : Binary64 → Binary64 → Prop
  | signs (m n : Nat) : TotalLe ⟨true, m⟩ ⟨false, n⟩
  | plain {m n : Nat} (le : m ≤ n) : TotalLe ⟨false, m⟩ ⟨false, n⟩
  | signed {m n : Nat} (le : n ≤ m) : TotalLe ⟨true, m⟩ ⟨true, n⟩

@[simp] theorem rank_plain (m : Nat) : rank ⟨false, m⟩ = m := rfl

@[simp] theorem rank_signed (m : Nat) : rank ⟨true, m⟩ = -1 - m := rfl

theorem rank_le_iff {x y : Binary64} : x.rank ≤ y.rank ↔ TotalLe x y := by
  obtain ⟨_ | _, m⟩ := x <;> obtain ⟨_ | _, n⟩ := y <;> simp only [rank_plain, rank_signed]
  · refine ⟨fun le => .plain (Int.ofNat_le.mp le), fun ordered => ?_⟩
    cases ordered with
    | plain le => exact Int.ofNat_le.mpr le
  · refine ⟨fun le => by omega, fun ordered => ?_⟩
    cases ordered
  · exact ⟨fun _ => .signs m n, fun _ => by omega⟩
  · refine ⟨fun le => .signed (by omega), fun ordered => ?_⟩
    cases ordered with
    | signed le => omega

theorem rank_injective : Function.Injective rank := by
  rintro ⟨_ | _, m⟩ ⟨_ | _, n⟩ same <;> simp only [rank_plain, rank_signed] at same
  · exact congrArg (mk false) (Int.ofNat_inj.mp same)
  · omega
  · omega
  · exact congrArg (mk true) (by omega)

instance : Std.Total TotalLe where
  total x y := by
    rw [← rank_le_iff, ← rank_le_iff]
    exact Int.le_total x.rank y.rank

instance : IsTrans Binary64 TotalLe where
  trans _ _ _ first second :=
    rank_le_iff.mp (Int.le_trans (rank_le_iff.mpr first) (rank_le_iff.mpr second))

instance : Std.Antisymm TotalLe where
  antisymm _ _ first second :=
    rank_injective (Int.le_antisymm (rank_le_iff.mpr first) (rank_le_iff.mpr second))

/-! ## Rounding keeps the order -/

theorem roundHalfEven_mono_left {num num' : Nat} (le : num ≤ num') (den : Nat) :
    roundHalfEven num den ≤ roundHalfEven num' den := by
  have quotients : num / den ≤ num' / den := Nat.div_le_div_right le
  have split := Nat.div_add_mod num den
  have split' := Nat.div_add_mod num' den
  unfold roundHalfEven
  dsimp only
  rcases Nat.eq_or_lt_of_le quotients with same | less
  · rw [same] at split ⊢
    split <;> split <;> omega
  · split <;> split <;> omega

/-- A quotient that is not larger is not rounded to a larger integer. -/
theorem roundHalfEven_mono {num den num' den' : Nat} (hd : 0 < den) (hd' : 0 < den')
    (le : num * den' ≤ num' * den) : roundHalfEven num den ≤ roundHalfEven num' den' := by
  rw [← roundHalfEven_mul_left hd', ← @roundHalfEven_mul_left den num' den' hd,
    Nat.mul_comm den den']
  refine roundHalfEven_mono_left ?_ _
  rwa [Nat.mul_comm den' num, Nat.mul_comm den num']

theorem le_roundHalfEven {num den k : Nat} (hd : 0 < den) (le : k * den ≤ num) :
    k ≤ roundHalfEven num den := by
  rw [← roundHalfEven_mul_self (n := k) hd]
  exact roundHalfEven_mono_left le den

theorem floorLog2_mono {num den num' den' : Nat} (hn : 0 < num) (hd : 0 < den) (hd' : 0 < den')
    (le : num * den' ≤ num' * den) : floorLog2 num den ≤ floorLog2 num' den' := by
  have hn' : 0 < num' := Nat.pos_of_mul_pos_right (Nat.lt_of_lt_of_le (Nat.mul_pos hn hd') le)
  rw [floorLog2_eq_log hn hd, floorLog2_eq_log hn' hd']
  refine Int.log_mono_right (by positivity) ?_
  rw [div_le_div_iff₀ (by positivity) (by positivity)]
  exact_mod_cast le

/-- A bound of the logarithm from above bounds the quotient in units of a power. -/
theorem lt_of_floorLog2_lt {num den n : Nat} {q : Int} (hn : 0 < num) (hd : 0 < den)
    (less : floorLog2 num den < q + n) :
    num * powerOfTwo (-q) < 2 ^ n * (den * powerOfTwo q) := by
  have bound : num * powerOfTwo (-(q + n)) < den * powerOfTwo (q + n) :=
    Nat.not_le.mp (mt (le_floorLog2 hn hd) (Int.not_le.mpr less))
  refine Nat.lt_of_mul_lt_mul_right (a := powerOfTwo (-(q + n))) ?_
  calc num * powerOfTwo (-q) * powerOfTwo (-(q + n))
      = num * powerOfTwo (-(q + n)) * powerOfTwo (-q) := Nat.mul_right_comm _ _ _
    _ < den * powerOfTwo (q + n) * powerOfTwo (-q) :=
        Nat.mul_lt_mul_of_pos_right bound (powerOfTwo_pos _)
    _ = den * (powerOfTwo (-q) * powerOfTwo (q + n)) := by
        rw [Nat.mul_assoc, Nat.mul_comm (powerOfTwo (q + n))]
    _ = 2 ^ n * (den * powerOfTwo q) * powerOfTwo (-(q + n)) := by
        rw [powerOfTwo_cross]
        ring

/-- A bound of the logarithm from below bounds the quotient in units of a power. -/
theorem le_of_le_floorLog2 {num den n : Nat} {q : Int} (hn : 0 < num) (hd : 0 < den)
    (le : q + n ≤ floorLog2 num den) :
    2 ^ n * (den * powerOfTwo q) ≤ num * powerOfTwo (-q) := by
  have bound : den * powerOfTwo (q + n) ≤ num * powerOfTwo (-(q + n)) :=
    Nat.not_lt.mp (mt (floorLog2_lt hn hd) (Int.not_lt.mpr le))
  refine Nat.le_of_mul_le_mul_right (c := powerOfTwo (-(q + n))) ?_ (powerOfTwo_pos _)
  calc 2 ^ n * (den * powerOfTwo q) * powerOfTwo (-(q + n))
      = den * (powerOfTwo (-q) * powerOfTwo (q + n)) := by
        rw [powerOfTwo_cross]
        ring
    _ = den * powerOfTwo (q + n) * powerOfTwo (-q) := by
        rw [Nat.mul_assoc, Nat.mul_comm (powerOfTwo (q + n))]
    _ ≤ num * powerOfTwo (-(q + n)) * powerOfTwo (-q) := Nat.mul_le_mul_right _ bound
    _ = num * powerOfTwo (-q) * powerOfTwo (-(q + n)) := Nat.mul_right_comm _ _ _

/-- A larger quotient has no smaller magnitude. -/
theorem magnitudeOfRatio_mono {num den num' den' : Nat} (hd : 0 < den) (hd' : 0 < den')
    (le : num * den' ≤ num' * den) : magnitudeOfRatio num den ≤ magnitudeOfRatio num' den' := by
  rcases Nat.eq_zero_or_pos num with rfl | hn
  · exact Nat.zero_le _
  have hn' : 0 < num' := Nat.pos_of_mul_pos_right (Nat.lt_of_lt_of_le (Nat.mul_pos hn hd') le)
  have logs := floorLog2_mono hn hd hd' le
  simp only [magnitudeOfRatio, Nat.ne_of_gt hn, Nat.ne_of_gt hn', if_false]
  refine min_le_min_right _ ?_
  generalize exponent : max (floorLog2 num den - 52) (-1074) = q
  generalize exponent' : max (floorLog2 num' den' - 52) (-1074) = q'
  rcases (show q < q' ∨ q = q' by omega) with below | same
  · have significand : roundHalfEven (num * powerOfTwo (-q)) (den * powerOfTwo q) ≤ 2 ^ 53 :=
      roundHalfEven_le (lt_of_floorLog2_lt hn hd (by omega))
    have lead : 2 ^ 52 ≤ roundHalfEven (num' * powerOfTwo (-q')) (den' * powerOfTwo q') :=
      le_roundHalfEven (Nat.mul_pos hd' (powerOfTwo_pos q'))
        (le_of_le_floorLog2 hn' hd' (by omega))
    unfold leadingBit
    omega
  · subst same
    refine Nat.add_le_add_left (roundHalfEven_mono (Nat.mul_pos hd (powerOfTwo_pos q))
      (Nat.mul_pos hd' (powerOfTwo_pos q)) ?_) _
    calc num * powerOfTwo (-q) * (den' * powerOfTwo q)
        = num * den' * (powerOfTwo (-q) * powerOfTwo q) := Nat.mul_mul_mul_comm _ _ _ _
      _ ≤ num' * den * (powerOfTwo (-q) * powerOfTwo q) := Nat.mul_le_mul_right _ le
      _ = num' * powerOfTwo (-q) * (den * powerOfTwo q) := Nat.mul_mul_mul_comm _ _ _ _

end ContentStore.Binary64
