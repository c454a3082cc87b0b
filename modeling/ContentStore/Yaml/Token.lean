import ContentStore.Yaml.Scalar
/-!
# Tokens of YAML

A text is cut into tokens.  Between brackets the marks of structure are tokens of their own;
elsewhere indentation opens and closes the block collections.  That a scalar, an alias or a
bracketed collection is a key shows only at the colon after it, which stands in the same line and
not too far away: the tokens for the key, and for the mapping that it opens, are then put in before
it.
-/

namespace ContentStore.Yaml

/-- A token. -/
inductive Token where
  | version (major minor : Nat)
  /-- A handle of tags and what it stands for. -/
  | handle (name tag : List Char)
  | documentStart
  | documentEnd
  | openBlockSequence
  | openBlockMapping
  | closeBlock
  | openSequence
  | closeSequence
  | openMapping
  | closeMapping
  | comma
  | entry
  | key
  | value
  | alias (name : List Char)
  | anchor (name : List Char)
  | tag (handle suffix : List Char)
  | scalar (style : ScalarStyle) (text : List Char)
  | textEnd
deriving DecidableEq, Repr

/-! ## Tags and directives -/

/-- A character of a tag; commas and square brackets only where the tag has an end mark. -/
def isTagLetter (delimited : Bool) (c : Char) : Bool :=
  isNameLetter c || ";/?:@&=+$.!~*'()".toList.contains c || (delimited && ",[]".toList.contains c)

/-- The first byte of a character's encoding: how many bytes follow it, and its part of the code. -/
def leadByte? (byte : Nat) : Option (Nat × Nat) :=
  if byte < 0x80 then some (0, byte)
  else if 0xC0 ≤ byte ∧ byte < 0xE0 then some (1, byte - 0xC0)
  else if 0xE0 ≤ byte ∧ byte < 0xF0 then some (2, byte - 0xE0)
  else if 0xF0 ≤ byte ∧ byte < 0xF8 then some (3, byte - 0xF0)
  else none

/-- Reads on in a tag, where a percent sign and two hexadecimal digits give a byte of a character;
`owed` bytes are still to come of a character whose code has begun. -/
def tagFrom (delimited : Bool) (read : List Char) (owed code : Nat) (place : Place) :
    List Char → Option (List Char × Cursor)
  | '%' :: a :: b :: rest => do
    let byte ← Text.valueInBase? 16 [a, b]
    let place := ['%', a, b].foldl Place.after place
    match owed with
    | 0 =>
      let (owed, code) ← leadByte? byte
      let read := if owed = 0 then Char.ofNat code :: read else read
      tagFrom delimited read owed code place rest
    | owed + 1 =>
      if 0x80 ≤ byte ∧ byte < 0xC0 then
        let code := code * 64 + (byte - 0x80)
        let read := if owed = 0 then Char.ofNat code :: read else read
        tagFrom delimited read owed code place rest
      else none
  | c :: rest =>
    if owed ≠ 0 ∨ c = '%' then none
    else if isTagLetter delimited c then
      tagFrom delimited (c :: read) 0 0 (place.after c) rest
    else some (read.reverse, ⟨c :: rest, place⟩)
  | [] => if owed ≠ 0 then none else some (read.reverse, ⟨[], place⟩)

/-- Reads a tag after the part of it that has been read as a handle.  A null character ends it. -/
def tagText? (delimited : Bool) (head : List Char) (u : Cursor) : Option (List Char × Cursor) := do
  let (text, after) ← tagFrom delimited [] 0 0 u.place u.rest
  if head.isEmpty && after.rest.length = u.rest.length then none
  else some ((head.drop 1 ++ text).takeWhile (· ≠ '\x00'), after)

/-- Reads a handle: an exclamation mark, and a name with another one after it. -/
def handle? (u : Cursor) : Option (List Char × Cursor) :=
  if atOneOf ['!'] u.rest then
    let (name, after) := u.skip.span isNameLetter
    if atOneOf ['!'] after.rest then some ('!' :: name ++ ['!'], after.skip)
    else some ('!' :: name, after)
  else none

/-- A handle with an exclamation mark at either end. -/
def isNamed (handle : List Char) : Bool := 1 < handle.length && handle.getLast? == some '!'

/-- Reads a tag as its handle and the rest of it. -/
def tag? (flow : Bool) (u : Cursor) : Option (Token × Cursor) := do
  let (token, after) ←
    if atOneOf ['<'] u.skip.rest then do
      let (text, after) ← tagText? true [] u.skip.skip
      if atOneOf ['>'] after.rest then some (Token.tag [] text, after.skip) else none
    else do
      let (handle, after) ← handle? u
      if isNamed handle then do
        let (text, after) ← tagText? false [] after
        some (Token.tag handle text, after)
      else do
        let (text, after) ← tagText? false handle after
        some (if text.isEmpty then Token.tag [] ['!'] else Token.tag ['!'] text, after)
  if atGap after.rest || (flow && atOneOf [','] after.rest) then some (token, after) else none

/-- Reads a number of at most nine digits. -/
def versionNumber? (u : Cursor) : Option (Nat × Cursor) :=
  let (digits, after) := u.span Text.isDigit
  if digits.isEmpty || 9 < digits.length then none else some (Text.digitsValue digits, after)

/-- Reads a directive up to the end of its line. -/
def directive? (u : Cursor) : Option (Token × Cursor) := do
  let (name, u) := u.skip.span isNameLetter
  if !atGap u.rest then none
  let u := u.skipWhile isBlank
  let (token, u) ←
    if name = "YAML".toList then do
      let (major, u) ← versionNumber? u
      if !atOneOf ['.'] u.rest then none
      let (minor, u) ← versionNumber? u.skip
      some (Token.version major minor, u)
    else if name = "TAG".toList then do
      let (handle, u) ← handle? u
      if handle ≠ ['!'] && !isNamed handle then none
      if !(u.rest.head?.any isBlank) then none
      let (tag, u) ← tagText? true [] (u.skipWhile isBlank)
      if !atGap u.rest then none
      some (Token.handle handle tag, u)
    else none
  some (token, ← u.restOfLine?)

/-! ## Cutting -/

/-- A place where a key may have begun: how many tokens stand before it, and whether nothing but a
key may stand there. -/
structure PendingKey where
  position : Nat
  place : Place
  required : Bool

/-- How many characters a key that shows only by its colon may span. -/
def keySpan : Nat := 1024

/-- The state of the cutting: the characters left, the tokens so far, the columns of the open block
collections with the innermost first, the place where a key may have begun here and in the
surrounding brackets, and whether a key may begin now. -/
structure Cutting where
  cursor : Cursor
  tokens : Array Token
  columns : List Nat
  pending : Option PendingKey
  outer : List (Option PendingKey)
  keyAllowed : Bool

namespace Cutting

/-- The state before a text. -/
def ofText (cs : List Char) : Cutting := ⟨.ofText cs, #[], [], none, [], true⟩

/-- The next character stands between brackets. -/
def inFlow (s : Cutting) : Bool := !s.outer.isEmpty

/-- The column of the next character. -/
def column (s : Cutting) : Nat := s.cursor.place.column

/-- Adds a token, and goes on at a cursor. -/
def add (s : Cutting) (token : Token) (after : Cursor) : Cutting :=
  { s with tokens := s.tokens.push token, cursor := after }

/-- Opens a block collection at a column, unless one is open there or deeper; its token comes at a
position among the tokens. -/
def openBlock (s : Cutting) (token : Token) (column position : Nat) : Cutting :=
  if s.inFlow || s.columns.head?.any (column ≤ ·) then s
  else { s with columns := column :: s.columns,
                tokens := s.tokens.insertIdxIfInBounds position token }

/-- Closes the block collections that are deeper than a column, or all of them. -/
def closeBlocks (s : Cutting) (column : Option Nat) : Cutting :=
  if s.inFlow then s
  else
    let closed := s.columns.takeWhile fun c => column.all (· < c)
    { s with columns := s.columns.drop closed.length,
             tokens := s.tokens ++ Array.replicate closed.length Token.closeBlock }

/-- No key has begun here.  One that had to be a key is a fault. -/
def dropKey? (s : Cutting) : Option Cutting :=
  if s.pending.any PendingKey.required then none else some { s with pending := none }

/-- A key may begin here. -/
def offerKey? (s : Cutting) : Option Cutting :=
  if s.keyAllowed then do
    let s ← s.dropKey?
    let required := !s.inFlow && s.columns.head? == some s.column
    some { s with pending := some ⟨s.tokens.size, s.cursor.place, required⟩ }
  else some s

/-- A place where a key may have begun is given up when the line has ended or the key would be too
long. -/
def renewKey? (place : Place) : Option PendingKey → Option (Option PendingKey)
  | none => some none
  | some k =>
    if k.place.line < place.line ∨ k.place.index + keySpan < place.index then
      if k.required then none else some none
    else some (some k)

/-- All places where a key may have begun are renewed. -/
def renewKeys? (s : Cutting) : Option Cutting := do
  let place := s.cursor.place
  some { s with pending := ← renewKey? place s.pending
                outer := ← s.outer.mapM (renewKey? place) }

/-- Goes on to the next token, past spaces, comments and line breaks, and past a byte order mark at
the start of a line.  A tab may stand where no key may begin.  Outside brackets a key may begin in a
new line. -/
def gapFrom (flow keyAllowed inComment : Bool) (place : Place) : List Char → Bool × Cursor
  | [] => (keyAllowed, ⟨[], place⟩)
  | c :: rest =>
    let place' := place.after c
    if isBreak c then gapFrom flow (keyAllowed || !flow) false place' rest
    else if inComment then gapFrom flow keyAllowed true place' rest
    else if c = '#' then gapFrom flow keyAllowed true place' rest
    else if c = ' ' || (c = '\t' && (flow || !keyAllowed)) || (c = '\ufeff' && place.column = 0)
    then gapFrom flow keyAllowed false place' rest
    else (keyAllowed, ⟨c :: rest, place⟩)

/-- Goes on to the next token. -/
def skipGap (s : Cutting) : Cutting :=
  let (keyAllowed, cursor) := gapFrom s.inFlow s.keyAllowed false s.cursor.place s.cursor.rest
  { s with keyAllowed, cursor }

/-- Cuts a mark of a document. -/
def documentMark? (s : Cutting) (token : Token) : Option Cutting := do
  let s ← (s.closeBlocks none).dropKey?
  some { s.add token s.cursor.skip.skip.skip with keyAllowed := false }

/-- Cuts an opening bracket. -/
def openBracket? (s : Cutting) (token : Token) : Option Cutting := do
  let s ← s.offerKey?
  some { s.add token s.cursor.skip with
    pending := none, outer := s.pending :: s.outer, keyAllowed := true }

/-- Cuts a closing bracket. -/
def closeBracket? (s : Cutting) (token : Token) : Option Cutting := do
  let s ← s.dropKey?
  let s := { s.add token s.cursor.skip with keyAllowed := false }
  match s.outer with
  | [] => some s
  | pending :: outer => some { s with pending, outer }

/-- Cuts a comma. -/
def comma? (s : Cutting) : Option Cutting := do
  let s ← s.dropKey?
  some { s.add .comma s.cursor.skip with keyAllowed := true }

/-- Opens a block collection for an indicator that stands at the start of its line or after other
indicators. -/
def indicated? (s : Cutting) (opening : Token) : Option Cutting :=
  if s.inFlow then some s
  else if s.keyAllowed then some (s.openBlock opening s.column s.tokens.size)
  else none

/-- Cuts the hyphen of an item. -/
def entry? (s : Cutting) : Option Cutting := do
  let s ← (← s.indicated? .openBlockSequence).dropKey?
  some { s.add .entry s.cursor.skip with keyAllowed := true }

/-- Cuts the question mark of a key. -/
def key? (s : Cutting) : Option Cutting := do
  let s ← (← s.indicated? .openBlockMapping).dropKey?
  some { s.add .key s.cursor.skip with keyAllowed := !s.inFlow }

/-- Cuts the colon of a value.  Where a key may have begun, it has. -/
def value? (s : Cutting) : Option Cutting := do
  match s.pending with
  | some k =>
    let s := { s with tokens := s.tokens.insertIdxIfInBounds k.position Token.key, pending := none }
    let s := s.openBlock .openBlockMapping k.place.column k.position
    some { s.add .value s.cursor.skip with keyAllowed := false }
  | none =>
    let s ← s.indicated? .openBlockMapping
    some { s.add .value s.cursor.skip with keyAllowed := !s.inFlow }

/-- Cuts an alias or an anchor: an indicator and a name. -/
def named? (s : Cutting) (token : List Char → Token) : Option Cutting := do
  let s ← s.offerKey?
  let (name, after) := s.cursor.skip.span isNameLetter
  if !name.isEmpty && (atGap after.rest || atOneOf "?:,]\x7d%@`".toList after.rest) then
    some { s.add (token name) after with keyAllowed := false }
  else none

/-- Cuts a tag. -/
def tagged? (s : Cutting) : Option Cutting := do
  let s ← s.offerKey?
  let (token, after) ← tag? s.inFlow s.cursor
  some { s.add token after with keyAllowed := false }

/-- Cuts a block scalar. -/
def block? (s : Cutting) (style : ScalarStyle) : Option Cutting := do
  let s ← s.dropKey?
  let lexeme ← Yaml.block? style s.columns.head? s.cursor
  some { s.add (.scalar style lexeme.text) lexeme.after with keyAllowed := true }

/-- Cuts a plain or quoted scalar. -/
def scalar? (s : Cutting) (style : ScalarStyle) (read : Cursor → Option Lexeme) :
    Option Cutting := do
  let s ← s.offerKey?
  let lexeme ← read s.cursor
  some { s.add (.scalar style lexeme.text) lexeme.after with keyAllowed := lexeme.broken }

/-- Cuts a directive. -/
def directive? (s : Cutting) : Option Cutting := do
  let s ← (s.closeBlocks none).dropKey?
  let (token, after) ← Yaml.directive? s.cursor
  some { s.add token after with keyAllowed := false }

/-- The characters that cannot begin a plain scalar; a hyphen, a question mark and a colon can where
a word goes on. -/
def indicators : List Char := "-?:,[]\x7b\x7d#&*!|>'\"%@`".toList

/-- A plain scalar begins. -/
def startsPlain (flow : Bool) (c : Char) (rest : List Char) : Bool :=
  if isGap c then false
  else if indicators.contains c then
    !atGap rest && (c == '-' || (!flow && (c == '?' || c == ':')))
  else true

/-- Cuts the next token. -/
def next? (s : Cutting) : Option Cutting := do
  let s := (← s.skipGap.renewKeys?)
  let s := s.closeBlocks (some s.column)
  match s.cursor.rest with
  | [] => some s
  | c :: rest =>
    if s.column = 0 ∧ c = '%' then s.directive?
    else if isDocumentMark s.cursor.place (c :: rest) then
      s.documentMark? (if c = '-' then .documentStart else .documentEnd)
    else if c = '[' then s.openBracket? .openSequence
    else if c = '{' then s.openBracket? .openMapping
    else if c = ']' then s.closeBracket? .closeSequence
    else if c = '}' then s.closeBracket? .closeMapping
    else if c = ',' then s.comma?
    else if c = '-' ∧ atGap rest then s.entry?
    else if c = '?' ∧ (s.inFlow ∨ atGap rest) then s.key?
    else if c = ':' ∧ (s.inFlow ∨ atGap rest) then s.value?
    else if c = '*' then s.named? .alias
    else if c = '&' then s.named? .anchor
    else if c = '!' then s.tagged?
    else if c = '|' ∧ !s.inFlow then s.block? .literal
    else if c = '>' ∧ !s.inFlow then s.block? .folded
    else if c = '\'' then s.scalar? .single (quoted? '\'')
    else if c = '"' then s.scalar? .double (quoted? '"')
    else if startsPlain s.inFlow c rest then
      s.scalar? .plain (plain? s.inFlow ((s.columns.head?.map (· + 1)).getD 0))
    else none

/-- Cuts what is left of a text, in at most `fuel` steps. -/
def run? : Nat → Cutting → Option (Array Token)
  | 0, _ => none
  | fuel + 1, s =>
    if s.cursor.rest.isEmpty then do
      let s ← (s.closeBlocks none).dropKey?
      some (s.tokens.push .textEnd)
    else do run? fuel (← s.next?)

end Cutting

/-- The tokens of a text. -/
def Token.scan? (text : List Char) : Option (List Token) :=
  if text.all isPrintable then
    (Cutting.run? (text.length + 1) (.ofText (unifyBreaks text))).map Array.toList
  else none

example : Token.scan? "a: [b]".toList =
    some [.openBlockMapping, .key, .scalar .plain ['a'], .value, .openSequence,
      .scalar .plain ['b'], .closeSequence, .closeBlock, .textEnd] := by decide +kernel

end ContentStore.Yaml
