import ContentStore.Text.Case
/-!
# Tokens of a statement

A statement is a list of tokens: words, numbers, texts, placeholders, the marks of the grammar and
the operators that the grammar does not use.  Every token has a text, in which an error message
shows it: texts stand in quotes with their escapes undone, and an operator with two spellings has
one text.
-/

namespace ContentStore.Sql

/-- The kinds of literals that are no plain text. -/
inductive LiteralKind where
  | national
  | hexadecimal
  | escaped
  | raw
  | bytes
  | doubleQuotedBytes
deriving DecidableEq, Repr

/-- A token of a statement. -/
inductive Token where
  /-- A word, with the quote that it stands in, if any. -/
  | word (quote : Option Char) (name : String)
  /-- A number as it is written, with or without the letter for a long one. -/
  | number (digits : String) (long : Bool)
  /-- A text in single quotes. -/
  | text (value : String)
  /-- A text in single or double quotes with a letter in front. -/
  | literal (kind : LiteralKind) (value : String)
  /-- A text between two dollar marks, with the tag in them, if any. -/
  | dollarText (tag : Option String) (value : String)
  /-- A place for a parameter. -/
  | placeholder (name : String)
  | leftParen
  | rightParen
  | comma
  | period
  | equal
  | doubleEqual
  | minus
  | semicolon
  /-- Any other operator or mark. -/
  | operator (spelling : String)
  /-- A character that begins no other token. -/
  | character (c : Char)
deriving DecidableEq, Repr

namespace Token

/-- The text of a token. -/
def toText : Token → String
  | word none name => name
  | word (some q) name => q.toString ++ name ++ q.toString
  | number digits long => digits ++ (if long then "L" else "")
  | text value => "'" ++ value ++ "'"
  | literal .national value => "N'" ++ value ++ "'"
  | literal .hexadecimal value => "X'" ++ value ++ "'"
  | literal .escaped value => "E'" ++ value ++ "'"
  | literal .raw value => "R'" ++ value ++ "'"
  | literal .bytes value => "B'" ++ value ++ "'"
  | literal .doubleQuotedBytes value => "B\"" ++ value ++ "\""
  | dollarText none value => "$$" ++ value ++ "$$"
  | dollarText (some tag) value => "$" ++ tag ++ "$" ++ value ++ "$" ++ tag ++ "$"
  | placeholder name => name
  | leftParen => "("
  | rightParen => ")"
  | comma => ","
  | period => "."
  | equal => "="
  | doubleEqual => "=="
  | minus => "-"
  | semicolon => ";"
  | operator spelling => spelling
  | character c => c.toString

/-- A place for a parameter. -/
def isPlaceholder : Token → Bool
  | placeholder _ => true
  | _ => false

/-- The word of a keyword, in any letter case and without quotes. -/
def isKeyword (keyword : String) : Token → Bool
  | word none name => Text.sameLetters name keyword
  | _ => false

/-- One of several keywords. -/
def isOneOf (keywords : List String) (t : Token) : Bool := keywords.any fun k => t.isKeyword k

/-- How many parameters the tokens take. -/
def placeholders (tokens : List Token) : Nat := tokens.countP isPlaceholder

/-- The texts of tokens with a blank between two of them. -/
def render (tokens : List Token) : String := " ".intercalate (tokens.map toText)

/-- A token in an error message, or the end of the statement. -/
def describe : Option Token → String
  | some t => "'" ++ t.toText ++ "'"
  | none => "end of statement"

end Token

end ContentStore.Sql
