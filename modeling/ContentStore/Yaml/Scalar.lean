import ContentStore.Yaml.Cursor
/-!
# Scalars of YAML

A scalar is written plainly, in single or double quotes, or as a block of lines that stand deeper
than their surroundings.  In all but the literal block a single line break between two words folds
into a space, and of several the first one is dropped.
-/

namespace ContentStore.Yaml

/-- How a scalar is written. -/
inductive ScalarStyle where
  | plain
  | single
  | double
  | literal
  | folded
deriving DecidableEq, Repr

/-- A scalar that has been read: its text, whether line breaks stood after it, and the cursor after
it. -/
structure Lexeme where
  text : List Char
  broken : Bool
  after : Cursor

/-! ## The gaps between words -/

/-- What stands between two words: the blanks before the first line break and the breaks.  In an
escaped gap a backslash has taken the place of the first break. -/
structure Gap where
  blanks : List Char
  breaks : List Char
  escaped : Bool

namespace Gap

/-- There is no gap. -/
def none : Gap := ⟨[], [], false⟩

/-- A gap that a backslash at the end of a line has begun. -/
def escape : Gap := ⟨[], [], true⟩

/-- A line has ended in the gap. -/
def isBroken (g : Gap) : Bool := g.escaped || !g.breaks.isEmpty

/-- Something stands in the gap. -/
def isOpen (g : Gap) : Bool := g.isBroken || !g.blanks.isEmpty

/-- The gap with one more blank or break; blanks at the start of a line do not count. -/
def add (g : Gap) (c : Char) : Gap :=
  if isBreak c then { g with breaks := g.breaks ++ [c] }
  else if g.isBroken then g
  else { g with blanks := g.blanks ++ [c] }

/-- The text that a gap folds into. -/
def fold (g : Gap) : List Char :=
  if g.escaped then g.breaks
  else match g.breaks with
    | [] => g.blanks
    | ['\n'] => [' ']
    | '\n' :: more => more
    | breaks => breaks

end Gap

/-! ## Plain scalars -/

/-- A character that ends a plain scalar: a colon before a gap, and among brackets the marks of
their structure. -/
def endsPlain (flow : Bool) (c : Char) (rest : List Char) : Bool :=
  (c == ':' && atGap rest) || (flow && [',', '[', ']', '{', '}'].contains c)

/-- Reads a plain scalar among brackets or at an indentation, on from the words and the gap that
stand before. -/
def plainFrom (flow : Bool) (indent : Nat) (words : List Char) (gap : Gap) (place : Place) :
    List Char → Option Lexeme
  | [] => some ⟨words.reverse, gap.isBroken, [], place⟩
  | c :: rest =>
    if isGap c then
      if gap.isBroken && place.column < indent && c == '\t' then none
      else plainFrom flow indent words (gap.add c) (place.after c) rest
    else if gap.isOpen && ((!flow && place.column < indent) ||
        isDocumentMark place (c :: rest) || c == '#') then
      some ⟨words.reverse, gap.isBroken, c :: rest, place⟩
    else if flow && c == ':' && atOneOf [',', '?', '[', ']', '{', '}'] rest then none
    else if endsPlain flow c rest then some ⟨words.reverse, gap.isBroken, c :: rest, place⟩
    else plainFrom flow indent (c :: (gap.fold.reverse ++ words)) .none (place.after c) rest

/-- Reads a plain scalar. -/
def plain? (flow : Bool) (indent : Nat) (u : Cursor) : Option Lexeme :=
  plainFrom flow indent [] .none u.place u.rest

/-! ## Quoted scalars -/

/-- Reads on in single quotes, where a doubled quote is a quote. -/
def singleFrom (words : List Char) (gap : Gap) (place : Place) : List Char → Option Lexeme
  | [] => none
  | c :: rest =>
    if isGap c then singleFrom words (gap.add c) (place.after c) rest
    else if gap.isOpen && isDocumentMark place (c :: rest) then none
    else if c = '\'' then
      match rest with
      | '\'' :: more =>
        singleFrom ('\'' :: (gap.fold.reverse ++ words)) .none ((place.after '\'').after '\'') more
      | _ => some ⟨(gap.fold.reverse ++ words).reverse, false, rest, place.after c⟩
    else singleFrom (c :: (gap.fold.reverse ++ words)) .none (place.after c) rest

/-- The character that a letter after a backslash stands for. -/
def escapeChar? : Char → Option Char
  | '0' => some '\x00'
  | 'a' => some '\x07'
  | 'b' => some '\x08'
  | 't' => some '\t'
  | '\t' => some '\t'
  | 'n' => some '\n'
  | 'v' => some '\x0b'
  | 'f' => some '\x0c'
  | 'r' => some '\r'
  | 'e' => some '\x1b'
  | ' ' => some ' '
  | '"' => some '"'
  | '/' => some '/'
  | '\\' => some '\\'
  | 'N' => some '\u0085'
  | '_' => some '\u00a0'
  | 'L' => some '\u2028'
  | 'P' => some '\u2029'
  | _ => none

/-- The character whose code hexadecimal digits write. -/
def codeChar? (digits : List Char) : Option Char := do
  let n ← Text.valueInBase? 16 digits
  if n.isValidChar then some (Char.ofNat n) else none

/-- Reads on in double quotes, where a backslash gives a character by a letter or by its code, or
takes a line break away. -/
def doubleFrom (words : List Char) (gap : Gap) (place : Place) : List Char → Option Lexeme
  | [] => none
  | c :: rest =>
    let words' := gap.fold.reverse ++ words
    if isGap c then doubleFrom words (gap.add c) (place.after c) rest
    else if gap.isOpen && isDocumentMark place (c :: rest) then none
    else if c = '"' then some ⟨words'.reverse, false, rest, place.after c⟩
    else if c = '\\' then
      match rest with
      | [] => none
      | 'x' :: d₁ :: d₂ :: more =>
        (codeChar? [d₁, d₂]).bind fun e =>
          doubleFrom (e :: words') .none (['x', d₁, d₂].foldl Place.after (place.after c)) more
      | 'u' :: d₁ :: d₂ :: d₃ :: d₄ :: more =>
        (codeChar? [d₁, d₂, d₃, d₄]).bind fun e =>
          doubleFrom (e :: words') .none
            (['u', d₁, d₂, d₃, d₄].foldl Place.after (place.after c)) more
      | 'U' :: d₁ :: d₂ :: d₃ :: d₄ :: d₅ :: d₆ :: d₇ :: d₈ :: more =>
        (codeChar? [d₁, d₂, d₃, d₄, d₅, d₆, d₇, d₈]).bind fun e =>
          doubleFrom (e :: words') .none
            (['U', d₁, d₂, d₃, d₄, d₅, d₆, d₇, d₈].foldl Place.after (place.after c)) more
      | d :: more =>
        if isBreak d then doubleFrom words' .escape ((place.after c).after d) more
        else (escapeChar? d).bind fun e =>
          doubleFrom (e :: words') .none ((place.after c).after d) more
    else doubleFrom (c :: words') .none (place.after c) rest

/-- Reads a scalar that begins with its quote. -/
def quoted? (quote : Char) (u : Cursor) : Option Lexeme :=
  let u := u.skip
  if quote = '"' then doubleFrom [] .none u.place u.rest else singleFrom [] .none u.place u.rest

/-! ## Block scalars -/

/-- What becomes of the line breaks at the end of a block. -/
inductive Chomping where
  | strip
  | clip
  | keep
deriving DecidableEq, Repr

/-- The chomping of an indicator. -/
def chomping? : Char → Option Chomping
  | '-' => some .strip
  | '+' => some .keep
  | _ => none

/-- The depth of an indicator, which is not zero. -/
def depth? (c : Char) : Option Nat :=
  if Text.isDigit c && c != '0' then some (c.toNat - 48) else none

/-- Reads the indicators of a block: a chomping and a depth, in either order, each or none. -/
def blockHeader (u : Cursor) : Chomping × Option Nat × Cursor :=
  match u.rest with
  | [] => (.clip, none, u)
  | a :: rest =>
    let next := rest.head?
    match chomping? a, depth? a with
    | some chomping, _ =>
      match next.bind depth? with
      | some depth => (chomping, some depth, u.skip.skip)
      | none => (chomping, none, u.skip)
    | none, some depth =>
      match next.bind chomping? with
      | some chomping => (chomping, some depth, u.skip.skip)
      | none => (.clip, some depth, u.skip)
    | none, none => (.clip, none, u)

/-- Reads the empty lines at the start of a block whose depth is not given: the deepest column of
their ends, the breaks, and the cursor after them.  A tab has no place there. -/
def leadingLines (deepest : Nat) (breaks : List Char) (place : Place) :
    List Char → Option (Nat × List Char × Cursor)
  | [] => some (max deepest place.column, breaks, ⟨[], place⟩)
  | c :: rest =>
    if c = ' ' then leadingLines deepest breaks (place.after c) rest
    else if c = '\t' then none
    else if isBreak c then
      leadingLines (max deepest place.column) (breaks ++ [c]) (place.after c) rest
    else some (max deepest place.column, breaks, ⟨c :: rest, place⟩)

/-- A block so far: its text with the last character first, the break after its last line, the
breaks after that, and whether its last line began with a blank. -/
structure Block where
  text : List Char
  lastBreak : List Char
  moreBreaks : List Char
  beganBlank : Bool

namespace Block

/-- The block as its next line begins. -/
def beginLine (b : Block) (style : ScalarStyle) (blank : Bool) : Block :=
  let folds := style = .folded && atOneOf ['\n'] b.lastBreak && !b.beganBlank && !blank
  let joint :=
    if folds then (if b.moreBreaks.isEmpty then [' '] else b.moreBreaks)
    else b.lastBreak ++ b.moreBreaks
  ⟨joint.reverse ++ b.text, [], [], blank⟩

/-- The text of a finished block. -/
def finish (b : Block) : Chomping → List Char
  | .strip => b.text.reverse
  | .clip => b.text.reverse ++ b.lastBreak
  | .keep => b.text.reverse ++ b.lastBreak ++ b.moreBreaks

end Block

/-- Reads on in a block of a depth, in one of its lines or before one. -/
def blockFrom (style : ScalarStyle) (depth : Nat) (inLine : Bool) (b : Block) (place : Place) :
    List Char → Option (Block × Cursor)
  | [] => some (b, ⟨[], place⟩)
  | c :: rest =>
    if inLine then
      if isBreak c then
        blockFrom style depth false { b with lastBreak := [c] } (place.after c) rest
      else blockFrom style depth true { b with text := c :: b.text } (place.after c) rest
    else if isBreak c then
      blockFrom style depth false { b with moreBreaks := b.moreBreaks ++ [c] } (place.after c) rest
    else if place.column < depth && c == ' ' then
      blockFrom style depth false b (place.after c) rest
    else if place.column < depth && c == '\t' then none
    else if place.column = depth then
      let b := b.beginLine style (isBlank c)
      blockFrom style depth true { b with text := c :: b.text } (place.after c) rest
    else some (b, ⟨c :: rest, place⟩)

/-- Reads a block that begins with its indicator; `indent` is the column of its surroundings, if
they have one. -/
def block? (style : ScalarStyle) (indent : Option Nat) (u : Cursor) : Option Lexeme := do
  let (chomping, depth, u) := blockHeader u.skip
  let u ← u.restOfLine?
  let (depth, breaks, u) ←
    match depth with
    | some d => some (indent.getD 0 + d, [], u)
    | none =>
      (leadingLines 0 [] u.place u.rest).map fun (deepest, breaks, u) =>
        (max deepest (max ((indent.map (· + 1)).getD 0) 1), breaks, u)
  let (b, u) ← blockFrom style depth false ⟨[], [], breaks, false⟩ u.place u.rest
  some ⟨b.finish chomping, false, u⟩

example : (block? .folded none (.ofText ">-\n a\n b\n\n c\n".toList)).map Lexeme.text =
    some "a b\nc".toList := by decide +kernel

end ContentStore.Yaml
