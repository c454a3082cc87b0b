import ContentStore.Json.Reader
/-!
# Writing a JSON text

A value is written on one line without blanks, or indented by two blanks a level.  In a text a
quote, a backslash and the characters below U+0020 are escaped, and no other character.
-/

namespace ContentStore.Json

/-- A hexadecimal digit in lower case. -/
def hexDigit (n : Nat) : Char := Nat.digitChar (n % 16)

/-- A character as it stands inside a text. -/
def escape (c : Char) : List Char :=
  if c = '"' then ['\\', '"']
  else if c = '\\' then ['\\', '\\']
  else if c = '\n' then ['\\', 'n']
  else if c = '\r' then ['\\', 'r']
  else if c = '\t' then ['\\', 't']
  else if c = '\x08' then ['\\', 'b']
  else if c = '\x0c' then ['\\', 'f']
  else if c.toNat < 0x20 then ['\\', 'u', '0', '0', hexDigit (c.toNat / 16), hexDigit c.toNat]
  else [c]

/-- A text in quotes. -/
def quote (s : String) : List Char := '"' :: s.toList.flatMap escape ++ ['"']

/-- The text of a number in JSON. -/
def numberText (n : Number) : List Char := n.text .always

/-- The text of a truth value. -/
def boolText (b : Bool) : List Char := if b then ['t', 'r', 'u', 'e'] else ['f', 'a', 'l', 's', 'e']

/-- The word for the absent value. -/
def nullText : List Char := ['n', 'u', 'l', 'l']

mutual

/-- A value on one line. -/
def compact : Json → List Char
  | .null => nullText
  | .bool b => boolText b
  | .number n => numberText n
  | .text s => quote s
  | .array [] => ['[', ']']
  | .array (item :: rest) => '[' :: compact item ++ compactItems rest ++ [']']
  | .object [] => ['{', '}']
  | .object ((key, value) :: rest) =>
    '{' :: quote key ++ ':' :: compact value ++ compactMembers rest ++ ['}']

/-- The items after the first, each with its comma. -/
def compactItems : List Json → List Char
  | [] => []
  | item :: rest => ',' :: compact item ++ compactItems rest

/-- The members after the first, each with its comma. -/
def compactMembers : List (String × Json) → List Char
  | [] => []
  | (key, value) :: rest => ',' :: quote key ++ ':' :: compact value ++ compactMembers rest

end

/-- A new line at a level of indentation. -/
def newLine (level : Nat) : List Char := '\n' :: List.replicate (2 * level) ' '

mutual

/-- A value over several lines, its first line standing at a level of indentation. -/
def indented (level : Nat) : Json → List Char
  | .null => nullText
  | .bool b => boolText b
  | .number n => numberText n
  | .text s => quote s
  | .array [] => ['[', ']']
  | .array (item :: rest) =>
    '[' :: newLine (level + 1) ++ indented (level + 1) item ++ indentedItems level rest ++
      newLine level ++ [']']
  | .object [] => ['{', '}']
  | .object ((key, value) :: rest) =>
    '{' :: newLine (level + 1) ++ quote key ++ ':' :: ' ' :: indented (level + 1) value ++
      indentedMembers level rest ++ newLine level ++ ['}']

/-- The items after the first, each with its comma and on a line of its own. -/
def indentedItems (level : Nat) : List Json → List Char
  | [] => []
  | item :: rest =>
    ',' :: newLine (level + 1) ++ indented (level + 1) item ++ indentedItems level rest

/-- The members after the first, each with its comma and on a line of its own. -/
def indentedMembers (level : Nat) : List (String × Json) → List Char
  | [] => []
  | (key, value) :: rest =>
    ',' :: newLine (level + 1) ++ quote key ++ ':' :: ' ' :: indented (level + 1) value ++
      indentedMembers level rest

end

/-- How a value is laid out. -/
inductive Layout where
  | oneLine
  | indentedLines
deriving DecidableEq, Repr

/-- The text of a value in a layout. -/
def write (layout : Layout) (v : Json) : String :=
  String.ofList (match layout with
    | .oneLine => compact v
    | .indentedLines => indented 0 v)

/-- The text of a value on one line. -/
def toText (v : Json) : String := write .oneLine v

example : ((read? " [1, 1.0, \x7b\"b\": -0, \"a\": 1e16, \"b\": \"\\u00e9\\n\"\x7d] ").map toText) =
    some "[1,1.0,\x7b\"a\":1e+16,\"b\":\"é\\n\"\x7d]" := by decide +kernel

end ContentStore.Json
