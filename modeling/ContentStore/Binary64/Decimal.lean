import ContentStore.Binary64.Basic
/-!
# The shortest decimal of a double

A double is written with the fewest significant digits that read back to it; of two such decimals
the nearer one is taken, and of two equally near ones the even one.  The search tries one digit,
two digits and so on, and tests a candidate by reading it, so that what is written reads back by
construction.  Should seventeen digits not suffice, the exact decimal value is written.
-/

namespace ContentStore

/-- The positive number `digits * 10 ^ exponent`. -/
structure Decimal where
  digits : Nat
  exponent : Int
deriving DecidableEq, Repr

namespace Decimal

/-- The magnitude of the double nearest to a decimal. -/
def magnitude (d : Decimal) : Nat := Binary64.magnitudeOfDecimal d.digits d.exponent

/-- Moves the zeros at the end of the digits into the exponent, at most `fuel` of them. -/
def dropZeros : Nat → Decimal → Decimal
  | 0, d => d
  | fuel + 1, d =>
    if d.digits ≠ 0 ∧ d.digits % 10 = 0 then dropZeros fuel ⟨d.digits / 10, d.exponent + 1⟩ else d

/-- The exact decimal value of a magnitude. -/
def exact (magnitude : Nat) : Decimal :=
  let m := Binary64.significand magnitude
  let q := Binary64.scale magnitude
  if 0 ≤ q then ⟨m * Binary64.powerOfTwo q, 0⟩ else ⟨m * Nat.pow 5 (-q).toNat, q⟩

/-- The value of a magnitude is below `10 ^ k`. -/
def belowPowerOfTen (magnitude : Nat) (k : Int) : Bool :=
  let m := Binary64.significand magnitude
  let q := Binary64.scale magnitude
  decide (m * Binary64.powerOfTwo q * Binary64.powerOfTen (-k) <
    Binary64.powerOfTen k * Binary64.powerOfTwo (-q))

/-- The least `k` for which the value of a positive magnitude is below `10 ^ k`, found by a step or
two upward from a lower bound that the binary logarithm gives. -/
def pointPosition (magnitude : Nat) : Int :=
  let binaryLog : Int := (Binary64.significand magnitude).log2 + Binary64.scale magnitude
  let start := binaryLog * 30103 / 100000
  if belowPowerOfTen magnitude start then start
  else if belowPowerOfTen magnitude (start + 1) then start + 1
  else start + 2

/-- The multiples of `10 ^ exponent` next to the value of a magnitude that read back to it: none,
or the nearest. -/
def onGrid? (magnitude : Nat) (exponent : Int) : Option Decimal :=
  let m := Binary64.significand magnitude
  let q := Binary64.scale magnitude
  let num := m * Binary64.powerOfTwo q * Binary64.powerOfTen (-exponent)
  let den := Binary64.powerOfTwo (-q) * Binary64.powerOfTen exponent
  let below : Decimal := ⟨num / den, exponent⟩
  let above : Decimal := ⟨num / den + 1, exponent⟩
  let nearest := if Binary64.roundHalfEven num den = num / den then below else above
  let other := if nearest = below then above else below
  if nearest.digits ≠ 0 ∧ nearest.magnitude = magnitude then some nearest
  else if other.digits ≠ 0 ∧ other.magnitude = magnitude then some other
  else none

/-- The shortest decimal that reads back to a positive finite magnitude. -/
def shortest (magnitude : Nat) : Decimal :=
  let k := pointPosition magnitude
  match (List.range 17).findSome? fun n => onGrid? magnitude (k - (n + 1 : Nat)) with
  | some d => dropZeros 17 d
  | none => exact magnitude

end Decimal

namespace Binary64

/-- How an exponent is written: with a sign always, or with a minus sign only. -/
inductive ExponentSign where
  | always
  | minusOnly
deriving DecidableEq, Repr

/-- The text of an exponent. -/
def exponentText (sign : ExponentSign) (e : Int) : List Char :=
  (if e < 0 then ['-'] else match sign with
    | .always => ['+']
    | .minusOnly => []) ++ Nat.toDigits 10 e.natAbs

/-- Lays out the digits of the number `0.d₁d₂…dₙ * 10 ^ k`: in place for `k` from -4 to 16, with
`.0` after an integer, and otherwise as one digit, a fraction and an exponent. -/
def layout (sign : ExponentSign) (digits : List Char) (k : Int) : List Char :=
  if 0 < k ∧ k ≤ 16 then
    let whole := digits.take k.toNat
    let fraction := digits.drop k.toNat
    whole ++ List.replicate (k.toNat - whole.length) '0' ++
      '.' :: (if fraction.isEmpty then ['0'] else fraction)
  else if -5 < k ∧ k ≤ 0 then
    '0' :: '.' :: List.replicate (-k).toNat '0' ++ digits
  else
    digits.take 1 ++ (if digits.length ≤ 1 then [] else '.' :: digits.drop 1) ++
      'e' :: exponentText sign (k - 1)

/-- The text of a finite double. -/
def text (sign : ExponentSign) (x : Binary64) : List Char :=
  (if x.negative then ['-'] else []) ++
    if x.magnitude = 0 then ['0', '.', '0']
    else
      let d := Decimal.shortest x.magnitude
      let digits := Nat.toDigits 10 d.digits
      layout sign digits (d.exponent + digits.length)

example : text .always (ofDecimal false 1 (-1)) = "0.1".toList := by decide +kernel
example : text .always (ofDecimal false 1 16) = "1e+16".toList := by decide +kernel
example : text .minusOnly (ofDecimal false 1 21) = "1e21".toList := by decide +kernel
example : text .always (ofDecimal true 1 15) = "-1000000000000000.0".toList := by decide +kernel
example : text .always ⟨false, 1⟩ = "5e-324".toList := by decide +kernel
example : text .always (ofDecimal false 15 (-8)) = "1.5e-7".toList := by decide +kernel

end Binary64

end ContentStore
