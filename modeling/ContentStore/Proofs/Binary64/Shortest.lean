import ContentStore.Binary64.Decimal
import ContentStore.Proofs.Binary64.Rounding
/-!
# The shortest decimal reads back

Each way out of the search for the shortest decimal gives a decimal that is read as the magnitude it
was made from: a hit on a grid was tested, the zeros that are dropped do not count, and the exact
value is not moved by rounding.  `shortest_reads_back` puts these together.
-/

namespace ContentStore.Decimal

open Binary64

/-- The exact value of a finite magnitude is read as that magnitude. -/
theorem exact_magnitude {magnitude : Nat} (positive : 0 < magnitude)
    (finite : magnitude < infiniteMagnitude) : (exact magnitude).magnitude = magnitude := by
  have rounded := magnitudeOfRatio_exact positive finite
  unfold exact Decimal.magnitude
  dsimp only
  split
  · next whole =>
    have one : powerOfTwo (-scale magnitude) = 1 := by
      rw [powerOfTwo, show (-scale magnitude).toNat = 0 by omega, Nat.pow_eq, Nat.pow_zero]
    rw [one] at rounded
    rw [magnitudeOfDecimal_eq_ratio]
    simpa [powerOfTen] using rounded
  · next broken =>
    have one : powerOfTwo (scale magnitude) = 1 := by
      rw [powerOfTwo, show (scale magnitude).toNat = 0 by omega, Nat.pow_eq, Nat.pow_zero]
    have one' : powerOfTen (scale magnitude) = 1 := by
      rw [powerOfTen, show (scale magnitude).toNat = 0 by omega, Nat.pow_eq, Nat.pow_zero]
    rw [one, Nat.mul_one] at rounded
    rw [magnitudeOfDecimal_eq_ratio, one', Nat.mul_one, ← rounded]
    refine magnitudeOfRatio_congr (powerOfTen_pos _) (powerOfTwo_pos _) ?_
    rw [rounded]
    simp only [powerOfTwo, powerOfTen, Nat.pow_eq]
    rw [Nat.mul_assoc, ← Nat.mul_pow]

theorem exact_digits_ne_zero {magnitude : Nat} (positive : 0 < magnitude) :
    (exact magnitude).digits ≠ 0 := by
  have significandPos := significand_pos positive
  unfold exact
  dsimp only
  split
  · exact Nat.ne_of_gt (Nat.mul_pos significandPos (powerOfTwo_pos _))
  · exact Nat.ne_of_gt (Nat.mul_pos significandPos (Nat.pow_pos (by decide)))

/-- Of two candidates the first is taken that reads back. -/
theorem tested_reads_back {magnitude : Nat} {a b d : Decimal}
    (hit : (if a.digits ≠ 0 ∧ a.magnitude = magnitude then some a
      else if b.digits ≠ 0 ∧ b.magnitude = magnitude then some b else none) = some d) :
    d.digits ≠ 0 ∧ d.magnitude = magnitude := by
  split at hit
  · next passed => exact Option.some.inj hit ▸ passed
  · split at hit
    · next passed => exact Option.some.inj hit ▸ passed
    · cases hit

theorem onGrid?_reads_back {magnitude : Nat} {exponent : Int} {d : Decimal}
    (hit : onGrid? magnitude exponent = some d) : d.digits ≠ 0 ∧ d.magnitude = magnitude :=
  tested_reads_back hit

/-- Zeros at the end move into the exponent; the value stays. -/
theorem dropZeros_reads_back (fuel : Nat) (d : Decimal) (nonzero : d.digits ≠ 0) :
    (dropZeros fuel d).digits ≠ 0 ∧ (dropZeros fuel d).magnitude = d.magnitude := by
  induction fuel generalizing d with
  | zero => exact ⟨nonzero, rfl⟩
  | succ fuel ih =>
    unfold dropZeros
    split
    · next zeroAtEnd =>
      have digits : d.digits / 10 * 10 ^ 1 = d.digits := by omega
      obtain ⟨left, same⟩ := ih ⟨d.digits / 10, d.exponent + 1⟩ (by dsimp only; omega)
      refine ⟨left, same.trans ?_⟩
      have moved := magnitudeOfDecimal_shift (d.digits / 10) 1 d.exponent
      rw [digits] at moved
      exact moved.symm
    · exact ⟨nonzero, rfl⟩

/-- The decimal that a positive finite double is written with has a digit other than zero and is
read as that double. -/
theorem shortest_reads_back {magnitude : Nat} (positive : 0 < magnitude)
    (finite : magnitude < infiniteMagnitude) :
    (shortest magnitude).digits ≠ 0 ∧ (shortest magnitude).magnitude = magnitude := by
  unfold shortest
  dsimp only
  split
  · next d found =>
    obtain ⟨_, _, hit⟩ := List.exists_of_findSome?_eq_some found
    obtain ⟨nonzero, reads⟩ := onGrid?_reads_back hit
    obtain ⟨left, same⟩ := dropZeros_reads_back 17 d nonzero
    exact ⟨left, same.trans reads⟩
  · exact ⟨exact_digits_ne_zero positive, exact_magnitude positive finite⟩

end ContentStore.Decimal
