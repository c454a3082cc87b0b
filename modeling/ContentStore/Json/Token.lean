import ContentStore.Binary64.Significand
import ContentStore.Json.Basic
import ContentStore.Text.Digits
/-!
# Tokens of a JSON text

A JSON text is cut into tokens: the six marks, the three words, numbers and texts.  A text keeps
its characters with the escapes undone.  A character below U+0020 may not stand in a text, and an
escaped surrogate stands for a character only together with its partner.  The digits of a number are
taken into a significand of 64 bits, and a double is made of this significand and a power of ten.
-/

namespace ContentStore.Json

open Text (spanDigits takeDigits digitsValue hexValue?)

/-- A token of a JSON text. -/
inductive Token where
  | openArray
  | closeArray
  | openObject
  | closeObject
  | comma
  | colon
  | null
  | bool (value : Bool)
  | number (value : Number)
  | text (value : String)

namespace Token

/-- Blank space between tokens. -/
def isSpace (c : Char) : Bool := c == ' ' || c == '\n' || c == '\t' || c == '\r'

/-- The 16-bit unit that four hexadecimal digits write. -/
def unit? (a b c d : Char) : Option Nat := do
  some ((((← hexValue? a) * 16 + (← hexValue? b)) * 16 + (← hexValue? c)) * 16 + (← hexValue? d))

/-- The character that a letter stands for after a backslash. -/
def unescape? : Char → Option Char
  | '"' => some '"'
  | '\\' => some '\\'
  | '/' => some '/'
  | 'b' => some '\x08'
  | 'f' => some '\x0c'
  | 'n' => some '\n'
  | 'r' => some '\r'
  | 't' => some '\t'
  | _ => none

/-- Reads the characters of a text up to its closing quote, and returns what follows. -/
def readText? : List Char → Option (List Char × List Char)
  | [] => none
  | '"' :: rest => some ([], rest)
  | '\\' :: 'u' :: a :: b :: c :: d :: rest => do
    let unit ← unit? a b c d
    if 0xD800 ≤ unit ∧ unit < 0xDC00 then
      match rest with
      | '\\' :: 'u' :: e :: f :: g :: h :: rest => do
        let low ← unit? e f g h
        if 0xDC00 ≤ low ∧ low < 0xE000 then
          let (cs, after) ← readText? rest
          some (Char.ofNat (0x10000 + (unit - 0xD800) * 0x400 + (low - 0xDC00)) :: cs, after)
        else none
      | _ => none
    else if 0xDC00 ≤ unit ∧ unit < 0xE000 then none
    else
      let (cs, after) ← readText? rest
      some (Char.ofNat unit :: cs, after)
  | '\\' :: letter :: rest => do
    let c ← unescape? letter
    let (cs, after) ← readText? rest
    some (c :: cs, after)
  | c :: rest =>
    if c.toNat < 0x20 ∨ c = '\\' then none
    else do
      let (cs, after) ← readText? rest
      some (c :: cs, after)

/-- Reads `.` and at least one digit, where a point comes next. -/
def readFraction? : List Char → Option (List Char × List Char)
  | '.' :: rest =>
    let (digits, after) := spanDigits rest
    if digits.isEmpty then none else some (digits, after)
  | rest => some ([], rest)

/-- Reads an exponent, where its letter comes next: an optional sign and at least one digit. -/
def readExponent? : List Char → Option (Option Int × List Char)
  | c :: rest =>
    if c = 'e' ∨ c = 'E' then
      let (negative, body) := match rest with
        | '-' :: r => (true, r)
        | '+' :: r => (false, r)
        | r => (false, r)
      let (digits, after) := spanDigits body
      if digits.isEmpty then none
      else
        let size : Int := digitsValue digits
        some (some (if negative then -size else size), after)
    else some (none, c :: rest)
  | [] => some (none, [])

/-- The significand of the digits before and after the point, and the power of ten that goes with
it: the digits that fit into 64 bits.  Those before the point that do not fit count as a power of
ten each, and those after it are ignored. -/
def significand (whole fraction : List Char) : Nat × Int :=
  let (n, more) := takeDigits 0 whole
  let (digits, ignored) := takeDigits n fraction
  (digits, (more.length : Int) + ignored.length - fraction.length)

/-- The number that a sign, the digits before and after the point and an exponent write.  Without a
fraction and an exponent it is an integer where the digits fit into 64 bits and the sign allows it;
a minus sign before a zero makes a double.  An infinite double is no number. -/
def assembleNumber? (negative : Bool) (whole fraction : List Char) (exponent : Option Int) :
    Option Number :=
  let (digits, power) := significand whole fraction
  if fraction.isEmpty ∧ exponent.isNone ∧ power = 0 then
    if negative then
      if digits = 0 then Number.ofBinary64? ⟨true, 0⟩ else Number.ofInt? (-digits)
    else Number.ofInt? digits
  else
    Number.ofBinary64? (Binary64.ofSignificand negative digits (power + exponent.getD 0))

/-- Reads a number: a minus sign or none, an integer without a needless zero in front, a fraction
or none, and an exponent or none. -/
def readNumber? (cs : List Char) : Option (Number × List Char) := do
  let (negative, unsigned) := match cs with
    | '-' :: rest => (true, rest)
    | rest => (false, rest)
  let (whole, afterWhole) := spanDigits unsigned
  if whole.isEmpty ∨ (whole.head? = some '0' ∧ 1 < whole.length) then none
  else
    let (fraction, afterFraction) ← readFraction? afterWhole
    let (exponent, after) ← readExponent? afterFraction
    let n ← assembleNumber? negative whole fraction exponent
    some (n, after)

/-- Reads one token at the front of a text that does not begin with blank space. -/
def read? : List Char → Option (Token × List Char)
  | '[' :: rest => some (.openArray, rest)
  | ']' :: rest => some (.closeArray, rest)
  | '{' :: rest => some (.openObject, rest)
  | '}' :: rest => some (.closeObject, rest)
  | ',' :: rest => some (.comma, rest)
  | ':' :: rest => some (.colon, rest)
  | 'n' :: 'u' :: 'l' :: 'l' :: rest => some (.null, rest)
  | 't' :: 'r' :: 'u' :: 'e' :: rest => some (.bool true, rest)
  | 'f' :: 'a' :: 'l' :: 's' :: 'e' :: rest => some (.bool false, rest)
  | '"' :: rest => (readText? rest).map fun (cs, after) => (.text (String.ofList cs), after)
  | cs => (readNumber? cs).map fun (n, after) => (.number n, after)

/-- Cuts a text into tokens, at most `fuel` steps of reading a token or skipping a blank. -/
def scanWithin : Nat → List Char → Option (List Token)
  | _, [] => some []
  | 0, _ :: _ => none
  | fuel + 1, c :: rest =>
    if isSpace c then scanWithin fuel rest
    else do
      let (token, after) ← read? (c :: rest)
      let tokens ← scanWithin fuel after
      some (token :: tokens)

/-- Cuts a text into tokens; every step takes a character, so the length of the text bounds
them. -/
def scan? (cs : List Char) : Option (List Token) := scanWithin cs.length cs

end Token

end ContentStore.Json
