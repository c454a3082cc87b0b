import ContentStore.Binary64.Basic
import ContentStore.Text.Blank
import ContentStore.Text.Digits
/-!
# Reading a double from free text

The numeric texts are: a sign or none, then digits with one point or none and an exponent or none,
at least one digit standing before the exponent; or a sign or none and one of the words `inf`,
`infinity` and `nan` in any case.  Blanks are not part of a numeric text.
-/

namespace ContentStore.Binary64

open Text (spanDigits digitsValue)

/-- Reads an exponent that ends the text: no exponent is zero. -/
def readExponent? : List Char → Option Int
  | [] => some 0
  | c :: rest =>
    if c = 'e' ∨ c = 'E' then
      let (negative, body) := match rest with
        | '-' :: r => (true, r)
        | '+' :: r => (false, r)
        | r => (false, r)
      let (digits, after) := spanDigits body
      if digits.isEmpty ∨ after ≠ [] then none
      else
        let size : Int := digitsValue digits
        some (if negative then -size else size)
    else none

/-- The double of a text of digits, a point and an exponent. -/
def ofDigitsText? (negative : Bool) (cs : List Char) : Option Binary64 := do
  let (whole, afterWhole) := spanDigits cs
  let (fraction, after) := match afterWhole with
    | '.' :: rest => spanDigits rest
    | rest => ([], rest)
  if whole.isEmpty ∧ fraction.isEmpty then none
  else
    let exponent ← readExponent? after
    some (ofDecimal negative (digitsValue (whole ++ fraction)) (exponent - fraction.length))

/-- The double of one of the words. -/
def ofWord? (negative : Bool) (cs : List Char) : Option Binary64 :=
  let word := String.ofList (cs.map Char.toLower)
  if word = "inf" ∨ word = "infinity" then some (infinity negative)
  else if word = "nan" then some (notANumber negative)
  else none

/-- The double that a numeric text denotes. -/
def ofText? (cs : List Char) : Option Binary64 :=
  let (negative, unsigned) := match cs with
    | '-' :: rest => (true, rest)
    | '+' :: rest => (false, rest)
    | rest => (false, rest)
  (ofDigitsText? negative unsigned).or (ofWord? negative unsigned)

end ContentStore.Binary64
