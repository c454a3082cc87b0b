import ContentStore.Binary64.Basic
/-!
# A double from a significand and a power of ten

The quick way to a double rounds the significand first and then multiplies or divides it by a power
of ten, which is itself a rounded double.  Every one of these steps rounds, so the result can miss
the double nearest to `digits * 10 ^ exponent`, and a product can be infinite where the nearest
double is not.
-/

namespace ContentStore.Binary64

/-- The magnitude nearest to the product of two finite magnitudes. -/
def timesMagnitude (a b : Nat) : Nat :=
  let q := scale a + scale b
  magnitudeOfRatio (significand a * significand b * powerOfTwo q) (powerOfTwo (-q))

/-- The magnitude nearest to the quotient of two finite magnitudes; the second one is positive. -/
def overMagnitude (a b : Nat) : Nat :=
  let q := scale a - scale b
  magnitudeOfRatio (significand a * powerOfTwo q) (significand b * powerOfTwo (-q))

/-- The exponent of the greatest power of ten that a double holds. -/
def tenLimit : Nat := 308

/-- The magnitude nearest to a power of ten. -/
def tenMagnitude (exponent : Nat) : Nat := magnitudeOfDecimal 1 exponent

/-- Divides a magnitude by the greatest power of ten several times, or until it is zero. -/
def shrink : Nat → Nat → Nat
  | 0, m => m
  | times + 1, m => if m = 0 then 0 else shrink times (overMagnitude m (tenMagnitude tenLimit))

/-- The magnitude that the rounded significand has after it has been multiplied or divided by the
power of ten; more than `10 ^ 308` is divided by in several steps, and never multiplied by. -/
def magnitudeOfSignificand (digits : Nat) (exponent : Int) : Nat :=
  let m := magnitudeOfRatio digits 1
  let size := exponent.natAbs
  if exponent < 0 then
    let times := (size - 1) / tenLimit
    overMagnitude (shrink times m) (tenMagnitude (size - tenLimit * times))
  else if size ≤ tenLimit then timesMagnitude m (tenMagnitude size)
  else if m = 0 then 0
  else infiniteMagnitude

/-- The double of a sign, a significand and a power of ten. -/
def ofSignificand (negative : Bool) (digits : Nat) (exponent : Int) : Binary64 :=
  ⟨negative, magnitudeOfSignificand digits exponent⟩

example : (ofSignificand false 1 (-24)).magnitude = (ofDecimal false 1 (-24)).magnitude + 1 := by
  decide +kernel
example : (ofSignificand false 17976931348623158 292).magnitude = infiniteMagnitude := by
  decide +kernel
example : ofSignificand false 5 (-324) = ⟨false, 1⟩ := by decide +kernel

end ContentStore.Binary64
