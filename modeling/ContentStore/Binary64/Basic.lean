/-!
# Doubles as exact integers

A double is kept as its sign and the number that its exponent and fraction bits form.  That number
is its *magnitude*: of two doubles without a sign the larger magnitude is the larger double, zero
has magnitude zero, and from `infiniteMagnitude` on a magnitude stands for infinity and then for
not-a-number.  A decimal becomes a double by one rounding of an exact quotient of naturals, so
nothing here is approximate and every equation can be computed.
-/

namespace ContentStore

/-- A double: its sign, and its exponent and fraction bits read as one number. -/
structure Binary64 where
  negative : Bool
  magnitude : Nat
deriving DecidableEq, Repr

namespace Binary64

/-- The least significand that takes all 53 bits: the fifty-second power of two. -/
def leadingBit : Nat := 4503599627370496

/-- The power of two of an exponent, and one for a negative exponent. -/
def powerOfTwo (exponent : Int) : Nat := Nat.pow 2 exponent.toNat

/-- The power of ten of an exponent, and one for a negative exponent. -/
def powerOfTen (exponent : Int) : Nat := Nat.pow 10 exponent.toNat

/-- The least magnitude that is no longer finite. -/
def infiniteMagnitude : Nat := 2047 * leadingBit

/-- The magnitude of the value that is not a number. -/
def notANumberMagnitude : Nat := infiniteMagnitude + leadingBit / 2

/-- A double that stands for a real number. -/
def IsFinite (x : Binary64) : Prop := x.magnitude < infiniteMagnitude

instance (x : Binary64) : Decidable x.IsFinite :=
  inferInstanceAs (Decidable (x.magnitude < infiniteMagnitude))

/-- Zero without a sign. -/
def zero : Binary64 := ⟨false, 0⟩

/-- One. -/
def one : Binary64 := ⟨false, 1023 * leadingBit⟩

/-- The infinity of a sign. -/
def infinity (negative : Bool) : Binary64 := ⟨negative, infiniteMagnitude⟩

/-- The value of a sign that is not a number. -/
def notANumber (negative : Bool) : Binary64 := ⟨negative, notANumberMagnitude⟩

/-- Both zeros are zero. -/
def isZero (x : Binary64) : Bool := x.magnitude == 0

/-- Neither a real number nor an infinity. -/
def isNotANumber (x : Binary64) : Bool := decide (infiniteMagnitude < x.magnitude)

/-- Two real numbers are the same: equal doubles, or two zeros. -/
def sameValue (x y : Binary64) : Bool := x == y || (x.isZero && y.isZero)

/-- The place of a double in the total order: every negative double before every other one, the
larger magnitude further from the middle, and minus zero just before zero. -/
def rank (x : Binary64) : Int :=
  if x.negative then -1 - (x.magnitude : Int) else x.magnitude

/-! ## A finite magnitude as significand and scale -/

/-- The integer `m` of a finite magnitude `m * 2 ^ scale`. -/
def significand (magnitude : Nat) : Nat :=
  if magnitude < leadingBit then magnitude else leadingBit + magnitude % leadingBit

/-- The exponent `q` of a finite magnitude `significand * 2 ^ q`. -/
def scale (magnitude : Nat) : Int :=
  if magnitude < leadingBit then -1074 else (magnitude / leadingBit : Nat) - 1075

/-! ## Rounding -/

/-- The integer nearest to `num / den`; of two equally near ones the even one. -/
def roundHalfEven (num den : Nat) : Nat :=
  let quotient := num / den
  let twice := 2 * (num % den)
  if twice < den ∨ (twice = den ∧ quotient % 2 = 0) then quotient else quotient + 1

/-- The greatest `e` with `2 ^ e ≤ num / den`, for positive `num` and `den`. -/
def floorLog2 (num den : Nat) : Int :=
  let guess : Int := (num.log2 : Int) - den.log2
  if den * powerOfTwo guess ≤ num * powerOfTwo (-guess) then guess else guess - 1

/-- The magnitude nearest to `num / den`; what is too large for a double is infinite. -/
def magnitudeOfRatio (num den : Nat) : Nat :=
  if num = 0 then 0
  else
    let q := max (floorLog2 num den - 52) (-1074)
    let m := roundHalfEven (num * powerOfTwo (-q)) (den * powerOfTwo q)
    min ((q + 1074).toNat * leadingBit + m) infiniteMagnitude

/-- The magnitude nearest to `digits * 10 ^ exponent`.  An exponent that puts the value beyond
either end of the doubles is settled without forming the power. -/
def magnitudeOfDecimal (digits : Nat) (exponent : Int) : Nat :=
  if digits = 0 then 0
  else if 310 ≤ exponent then infiniteMagnitude
  else if (digits.log2 : Int) + 1081 < -3 * exponent then 0
  else magnitudeOfRatio (digits * powerOfTen exponent) (powerOfTen (-exponent))

/-- The double nearest to a decimal. -/
def ofDecimal (negative : Bool) (digits : Nat) (exponent : Int) : Binary64 :=
  ⟨negative, magnitudeOfDecimal digits exponent⟩

/-- The double nearest to an integer. -/
def ofInt (i : Int) : Binary64 := ⟨decide (i < 0), magnitudeOfRatio i.natAbs 1⟩

/-- The integer part of a finite magnitude, its fraction dropped. -/
def truncate (magnitude : Nat) : Nat :=
  significand magnitude * powerOfTwo (scale magnitude) / powerOfTwo (-scale magnitude)

/-- The 64 bits of a double as one number. -/
def toBits (x : Binary64) : Nat := (if x.negative then 2048 * leadingBit else 0) + x.magnitude

example : ofDecimal false 1 0 = one := by decide +kernel
example : (ofDecimal false 24703282292062328 (-340)).magnitude = 1 := by decide +kernel
example : (ofDecimal false 24703282292062327208 (-343)).magnitude = 0 := by decide +kernel
example : ofDecimal true 17976931348623159 292 = infinity true := by decide +kernel

end Binary64

end ContentStore
