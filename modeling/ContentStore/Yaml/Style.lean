import ContentStore.Binary64.Reading
import ContentStore.Yaml.Scalar
/-!
# The style of a text

A text is written in the simplest style in which it reads back as itself: plainly, in single quotes,
as a literal block, or in double quotes with escapes.  A text that would read as nothing, as a truth
value or as a number is quoted, and so are digits that begin with a zero.
-/

namespace ContentStore.Yaml

/-! ## Texts that read as something else -/

/-- The words for nothing and for the truth values. -/
def reservedWords : List String :=
  ["", "~", "null", "Null", "NULL", "true", "True", "TRUE", "false", "False", "FALSE"]

/-- A text without one given sign in front. -/
def withoutSign (sign : Char) : List Char → List Char
  | c :: rest => if c = sign then rest else c :: rest
  | [] => []

/-- A sign comes next. -/
def atSign (cs : List Char) : Bool := atOneOf ['+', '-'] cs

/-- Digits that begin with a zero and are more than that zero, with one sign or none in front. -/
def isZeroPadded (cs : List Char) : Bool :=
  match (if atSign cs then cs.drop 1 else cs) with
  | '0' :: rest => !rest.isEmpty && rest.all Text.isDigit
  | _ => false

/-- The value of a number with the mark of its base, or of a decimal number, without a sign. -/
def unsignedValue? : List Char → Option Nat
  | '0' :: 'x' :: digits => Text.valueInBase? 16 digits
  | '0' :: 'o' :: digits => Text.valueInBase? 8 digits
  | '0' :: 'b' :: digits => Text.valueInBase? 2 digits
  | digits => Text.valueInBase? 10 digits

/-- A whole number of 128 bits, with or without a sign. -/
def isWholeNumber (cs : List Char) : Bool :=
  !isZeroPadded cs &&
    match cs with
    | '-' :: rest => (unsignedValue? rest).any (· ≤ Nat.pow 2 127)
    | _ => (unsignedValue? (withoutSign '+' cs)).any (· < Nat.pow 2 128)

/-- The spellings of infinity. -/
def infinityWords : List String := [".inf", ".Inf", ".INF"]

/-- The spellings of what is not a number. -/
def notANumberWords : List String := [".nan", ".NaN", ".NAN"]

/-- A finite decimal number, or one of the words for the other doubles. -/
def isRealNumber (cs : List Char) : Bool :=
  let unsigned := withoutSign '+' cs
  if unsigned.length < cs.length && atSign unsigned then false
  else
    infinityWords.contains (String.ofList unsigned) ||
    (atSign cs && infinityWords.contains (String.ofList (cs.drop 1))) ||
    notANumberWords.contains (String.ofList cs) ||
    (Binary64.ofText? unsigned).any fun x => decide (x.magnitude < Binary64.infiniteMagnitude)

/-- A plain scalar of this text might not read as the text. -/
def isAmbiguous (cs : List Char) : Bool :=
  reservedWords.contains (String.ofList cs) || isWholeNumber cs || isZeroPadded cs ||
    isRealNumber cs

/-! ## What the styles can show -/

/-- A character that ends a line in some style. -/
def endsLine (c : Char) : Bool := isBreak c || c == '\r' || c == '\u0085'

/-- A character that is shown as it is. -/
def isShown (c : Char) : Bool :=
  c == '\n' || (isPrintable c && c != '\t' && c != '\r' && c != '\u0085' && c != '\ufeff')

/-- A blank, a line's end or the text's end comes next. -/
def atWordEnd : List Char → Bool
  | [] => true
  | c :: _ => isBlank c || endsLine c || c == '\x00'

/-- The characters that a plain scalar cannot begin with. -/
def openingMarks : List Char := "#,[]\x7b\x7d&*!|>'\"%@`".toList

/-- The first character of a plain scalar would be taken for a mark. -/
def beginsWithMark : List Char → Bool
  | [] => false
  | c :: rest =>
    openingMarks.contains c || (['?', ':', '-'].contains c && atWordEnd rest)

/-- A character after the first one would be taken for a mark: a colon before a gap, or a number
sign after one. -/
def hasMarkInside : List Char → Bool
  | a :: b :: rest =>
    (b == ':' && atWordEnd rest) || (b == '#' && atWordEnd [a]) || hasMarkInside (b :: rest)
  | _ => false

/-- The text begins like the mark of a document. -/
def beginsLikeDocument : List Char → Bool
  | a :: b :: c :: _ => (a == '-' || a == '.') && b == a && c == a
  | _ => false

/-- A character of one class stands directly before one of another. -/
def hasPair (p q : Char → Bool) : List Char → Bool
  | a :: b :: rest => (p a && q b) || hasPair p q (b :: rest)
  | _ => false

/-- A space. -/
def isSpace (c : Char) : Bool := c == ' '

/-- A character at one of the ends has a property. -/
def atAnEnd (p : Char → Bool) (cs : List Char) : Bool := cs.head?.any p || cs.getLast?.any p

/-- Only escapes can show the text: it has a character that is not shown as it is, or a space at the
end of a line. -/
def needsEscapes (cs : List Char) : Bool :=
  cs.any (fun c => !isShown c) || hasPair isSpace endsLine cs

/-- The text can stand plainly. -/
def fitsPlain (cs : List Char) : Bool :=
  !(needsEscapes cs || cs.any endsLine || atAnEnd isSpace cs || beginsLikeDocument cs ||
    beginsWithMark cs || hasMarkInside cs)

/-- The text can stand in single quotes: no line begins with a space. -/
def fitsSingle (cs : List Char) : Bool := !(needsEscapes cs || hasPair endsLine isSpace cs)

/-- The text can stand in a literal block. -/
def fitsBlock (cs : List Char) : Bool :=
  !(cs.isEmpty || needsEscapes cs || cs.getLast?.any isSpace)

/-- The style of a text. -/
def styleOf (cs : List Char) : ScalarStyle :=
  if cs.contains '\n' then (if fitsBlock cs then .literal else .double)
  else if !isAmbiguous cs && fitsPlain cs then .plain
  else if fitsSingle cs then .single
  else .double

end ContentStore.Yaml
