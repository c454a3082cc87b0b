import ContentStore.Text.Blank
import ContentStore.Text.Digits
/-!
# Places in a YAML text

The classes of characters that YAML tells apart, and a cursor: the characters that are left of a
text, with the place of the first one.  Columns matter, since indentation is what nests the block
collections, and so do the line breaks, which are made one before the text is read.
-/

namespace ContentStore.Yaml

/-- The characters that may stand in a text, as closed ranges of code points. -/
def printableRanges : List (Nat × Nat) :=
  [(0x09, 0x0A), (0x0D, 0x0D), (0x20, 0x7E), (0x85, 0x85), (0xA0, 0xD7FF), (0xE000, 0xFFFD),
   (0x10000, 0x10FFFF)]

/-- A character that may stand in a text. -/
def isPrintable (c : Char) : Bool := Text.inRanges printableRanges c.toNat

/-- A text in which a carriage return, with or without a line feed, and a next-line character have
become a line feed. -/
def unifyBreaks : List Char → List Char
  | [] => []
  | '\r' :: '\n' :: rest => '\n' :: unifyBreaks rest
  | '\r' :: rest => '\n' :: unifyBreaks rest
  | '\u0085' :: rest => '\n' :: unifyBreaks rest
  | c :: rest => c :: unifyBreaks rest

/-- A character that ends a line. -/
def isBreak (c : Char) : Bool := c == '\n' || c == '\u2028' || c == '\u2029'

/-- A space or a tab. -/
def isBlank (c : Char) : Bool := c == ' ' || c == '\t'

/-- A character between words. -/
def isGap (c : Char) : Bool := isBlank c || isBreak c

/-- A letter of the names of anchors, tags and directives. -/
def isNameLetter (c : Char) : Bool :=
  ('a' ≤ c && c ≤ 'z') || ('A' ≤ c && c ≤ 'Z') || Text.isDigit c || c == '_' || c == '-'

/-- The text ends, or a character between words comes next. -/
def atGap : List Char → Bool
  | [] => true
  | c :: _ => isGap c

/-- One of the given characters comes next. -/
def atOneOf (choice : List Char) : List Char → Bool
  | [] => false
  | c :: _ => choice.contains c

/-- A place: how many characters stand before it, in how many full lines, and how many of them in
its own line. -/
structure Place where
  index : Nat
  line : Nat
  column : Nat
deriving DecidableEq, Repr

namespace Place

/-- The place of the first character. -/
def start : Place := ⟨0, 0, 0⟩

/-- The place after a character. -/
def after (p : Place) (c : Char) : Place :=
  if isBreak c then ⟨p.index + 1, p.line + 1, 0⟩ else ⟨p.index + 1, p.line, p.column + 1⟩

end Place

/-- Three hyphens or three periods at the start of a line, followed by no word, mark a document's
start or end. -/
def isDocumentMark (p : Place) : List Char → Bool
  | a :: b :: c :: rest => p.column == 0 && (a == '-' || a == '.') && b == a && c == a && atGap rest
  | _ => false

/-- The characters that are left of a text, with the place of the first one. -/
structure Cursor where
  rest : List Char
  place : Place

namespace Cursor

/-- A cursor before a text. -/
def ofText (cs : List Char) : Cursor := ⟨cs, .start⟩

/-- The cursor after the next character. -/
def skip (u : Cursor) : Cursor :=
  match u.rest with
  | [] => u
  | c :: rest => ⟨rest, u.place.after c⟩

/-- The cursor after the characters at the front that are of a class. -/
def skipWhile (p : Char → Bool) (u : Cursor) : Cursor :=
  past u.place u.rest
where
  /-- Goes on from a place. -/
  past (place : Place) : List Char → Cursor
    | [] => ⟨[], place⟩
    | c :: rest => if p c then past (place.after c) rest else ⟨c :: rest, place⟩

/-- Splits off the characters at the front that are of a class. -/
def span (p : Char → Bool) (u : Cursor) : List Char × Cursor :=
  (u.rest.takeWhile p, u.skipWhile p)

/-- Skips the blanks that may end a line and a comment after them.  The line must end there. -/
def restOfLine? (u : Cursor) : Option Cursor :=
  let u := u.skipWhile isBlank
  let u := if atOneOf ['#'] u.rest then u.skipWhile fun c => !isBreak c else u
  match u.rest with
  | [] => some u
  | c :: _ => if isBreak c then some u.skip else none

end Cursor

end ContentStore.Yaml
