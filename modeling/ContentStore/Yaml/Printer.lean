import ContentStore.Json.Printer
import ContentStore.Yaml.Style
/-!
# Writing a value as YAML

Arrays and objects are written as block collections, one item or member a line, the empty ones in
brackets.  A collection under a hyphen or an explicit key begins in the same line; under a key in
its own line, an object two blanks deeper and an array as deep as its key.  A key of several lines
or of more than 128 bytes is explicit, with a question mark before it.
-/

namespace ContentStore.Yaml

/-- A hexadecimal digit in upper case. -/
def hexDigit (n : Nat) : Char := (Nat.digitChar (n % 16)).toUpper

/-- The lowest `width` hexadecimal digits of a number. -/
def hexDigits : Nat → Nat → List Char
  | 0, _ => []
  | width + 1, n => hexDigits width (n / 16) ++ [hexDigit n]

/-- A character as it stands in double quotes. -/
def escape (c : Char) : List Char :=
  match c with
  | '\x00' => ['\\', '0']
  | '\x07' => ['\\', 'a']
  | '\x08' => ['\\', 'b']
  | '\t' => ['\\', 't']
  | '\n' => ['\\', 'n']
  | '\x0b' => ['\\', 'v']
  | '\x0c' => ['\\', 'f']
  | '\r' => ['\\', 'r']
  | '\x1b' => ['\\', 'e']
  | '"' => ['\\', '"']
  | '\\' => ['\\', '\\']
  | '\u0085' => ['\\', 'N']
  | '\u2028' => ['\\', 'L']
  | '\u2029' => ['\\', 'P']
  | _ =>
    let code := c.toNat
    if isShown c then [c]
    else if code ≤ 0xFF then '\\' :: 'x' :: hexDigits 2 code
    else if code ≤ 0xFFFF then '\\' :: 'u' :: hexDigits 4 code
    else '\\' :: 'U' :: hexDigits 8 code

/-- Blanks up to an indentation. -/
def pad (indent : Nat) : List Char := List.replicate indent ' '

/-- Lines from the second on, indented where they are not empty; `fresh` tells that a line has just
ended. -/
def indentLines (indent : Nat) (fresh : Bool) : List Char → List Char
  | [] => []
  | c :: rest =>
    if isBreak c then c :: indentLines indent true rest
    else (if fresh then pad indent else []) ++ c :: indentLines indent false rest

/-- The inside of single quotes, where a quote is doubled.  A text with line feeds is never written
so, but one with other breaks may be. -/
def singleBody (indent : Nat) (fresh : Bool) : List Char → List Char
  | [] => if fresh then pad indent else []
  | c :: rest =>
    if isBreak c then c :: singleBody indent true rest
    else
      (if fresh then pad indent else []) ++ (if c = '\'' then ['\'', '\''] else [c]) ++
        singleBody indent false rest

/-- The indicators of a literal block: the indentation if it begins with a blank line or a space,
and what becomes of the breaks at its end. -/
def literalHeader (cs : List Char) : List Char :=
  let indentation := if cs.head?.any (fun c => isSpace c || isBreak c) then ['2'] else []
  let chomping := match cs.reverse with
    | [] => ['-']
    | last :: more =>
      if !isBreak last then ['-']
      else match more with
        | [] => ['+']
        | c :: _ => if isBreak c then ['+'] else []
  '|' :: indentation ++ chomping ++ ['\n']

/-- A line is ended unless it has been ended already. -/
def endLine (cs : List Char) : List Char := if cs.getLast?.any isBreak then cs else cs ++ ['\n']

/-- A text in its style, with the lines after the first at an indentation, up to the end of its last
line. -/
def textLines (indent : Nat) (cs : List Char) : List Char :=
  match styleOf cs with
  | .literal => endLine (literalHeader cs ++ indentLines indent true cs)
  | .double => '"' :: cs.flatMap escape ++ ['"', '\n']
  | .single => '\'' :: singleBody indent false cs ++ ['\'', '\n']
  | _ => cs ++ ['\n']

/-- A value without items or members, up to the end of its last line. -/
def leafLines (indent : Nat) : Json → List Char
  | .null => Json.nullText ++ ['\n']
  | .bool b => Json.boolText b ++ ['\n']
  | .number n => n.text .minusOnly ++ ['\n']
  | .text s => textLines indent s.toList
  | .array _ => ['[', ']', '\n']
  | .object _ => ['{', '}', '\n']

/-- The longest key, in bytes, that may stand before its colon in the same line. -/
def simpleKeySize : Nat := 128

/-- A key that may stand before its colon in the same line. -/
def isSimpleKey (key : String) : Bool :=
  key.utf8ByteSize ≤ simpleKeySize && !key.toList.any endsLine

/-- A key with its colon, or an explicit key with the colon in the next line. -/
def keyLines (indent : Nat) (key : String) : List Char :=
  if isSimpleKey key then (textLines indent key.toList).dropLast ++ [':']
  else '?' :: ' ' :: textLines (indent + 2) key.toList ++ pad indent ++ [':']

mutual

/-- A value that begins in a line at an indentation. -/
def linesAt (indent : Nat) : Json → List Char
  | .array (item :: rest) => '-' :: ' ' :: linesAt (indent + 2) item ++ itemLines indent rest
  | .object ((key, value) :: rest) =>
    keyLines indent key ++ valueLines indent (isSimpleKey key) value ++ memberLines indent rest
  | v => leafLines indent v

/-- Items, each on a line of its own. -/
def itemLines (indent : Nat) : List Json → List Char
  | [] => []
  | item :: rest =>
    pad indent ++ '-' :: ' ' :: linesAt (indent + 2) item ++ itemLines indent rest

/-- Members, each on a line of its own. -/
def memberLines (indent : Nat) : List (String × Json) → List Char
  | [] => []
  | (key, value) :: rest =>
    pad indent ++ keyLines indent key ++ valueLines indent (isSimpleKey key) value ++
      memberLines indent rest

/-- What stands after the colon of a key that stands at an indentation. -/
def valueLines (indent : Nat) (simple : Bool) : Json → List Char
  | .array (item :: rest) =>
    if simple then
      '\n' :: pad indent ++ '-' :: ' ' :: linesAt (indent + 2) item ++ itemLines indent rest
    else
      ' ' :: '-' :: ' ' :: linesAt (indent + 4) item ++ itemLines (indent + 2) rest
  | .object ((key, value) :: rest) =>
    (if simple then '\n' :: pad (indent + 2) else [' ']) ++ keyLines (indent + 2) key ++
      valueLines (indent + 2) (isSimpleKey key) value ++ memberLines (indent + 2) rest
  | v => ' ' :: leafLines (indent + 2) v

end

/-- The text of a value in YAML. -/
def write (v : Json) : String :=
  String.ofList (match v with
    | .text s => textLines 2 s.toList
    | _ => linesAt 0 v)

example : write (.object [("a", .array [.text "x: y", .array [.null]]), ("b", .text "c\nd")]) =
    "a:\n- 'x: y'\n- - null\nb: |-\n  c\n  d\n" := by decide +kernel

end ContentStore.Yaml
