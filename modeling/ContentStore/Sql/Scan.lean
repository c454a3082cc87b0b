import ContentStore.Sql.Token
import ContentStore.Text.Digits
import ContentStore.Text.Letter
/-!
# Cutting a statement into tokens

A statement is read from the left, each time by the longest token that its next characters admit.
Blanks and comments separate tokens and are dropped.  A text, a quoted name, a text between dollar
marks or a comment that does not end is a fault, which keeps the rest of the statement at the place
to blame, so that the place can be told by line and column.
-/

namespace ContentStore.Sql

/-- What is wrong with the characters of a statement. -/
inductive ScanFault where
  | unclosedText
  | unclosedEscapedText
  | unclosedName (quote : Char)
  | unclosedComment
  | unclosedDollarText
  | unclosedTaggedText
  | wrongClosingTag (tag : String)
  | unclosedClosingTag
deriving DecidableEq, Repr

namespace ScanFault

/-- The text of a fault. -/
def message : ScanFault → String
  | unclosedText => "Unterminated string literal"
  | unclosedEscapedText => "Unterminated encoded string literal"
  | unclosedName quote => "Expected close delimiter '" ++ quote.toString ++ "' before EOF."
  | unclosedComment => "Unexpected EOF while in a multi-line comment"
  | unclosedDollarText => "Unterminated dollar-quoted string"
  | unclosedTaggedText => "Unterminated dollar-quoted, expected $"
  | wrongClosingTag tag => "Unterminated dollar-quoted string at or near \"" ++ tag ++ "\""
  | unclosedClosingTag => "Unterminated dollar-quoted string, expected $"

end ScanFault

/-- A place in a statement; lines and columns count from one. -/
structure Position where
  line : Nat
  column : Nat
deriving DecidableEq, Repr

namespace Position

/-- The place of the first character. -/
def start : Position := ⟨1, 1⟩

/-- The place after a character. -/
def next (p : Position) (c : Char) : Position :=
  if c = '\n' then ⟨p.line + 1, 1⟩ else ⟨p.line, p.column + 1⟩

/-- The place in a statement at which only `rest` is left. -/
def ofRest (statement rest : List Char) : Position :=
  (statement.take (statement.length - rest.length)).foldl next start

/-- The text of a place. -/
def toText (p : Position) : String :=
  " at Line: " ++ toString p.line ++ ", Column " ++ toString p.column

end Position

namespace Scan

/-- What a reader of a lexeme gives: what it has read and the characters left, or a fault and the
characters left at the place to blame. -/
abbrev Reader (α : Type) := List Char → Except (ScanFault × List Char) (α × List Char)

/-! ## Texts and names -/

/-- Reads up to a closing quote; a doubled quote is a quote inside. -/
def untilQuote? (quote : Char) : List Char → Option (List Char × List Char)
  | [] => none
  | c :: rest =>
    if c = quote then
      match rest with
      | d :: after =>
        if d = quote then (untilQuote? quote after).map fun (cs, r) => (quote :: cs, r)
        else some ([], d :: after)
      | [] => some ([], [])
    else (untilQuote? quote rest).map fun (cs, r) => (c :: cs, r)

/-- Reads a text that begins with its quote. -/
def quotedText (quote : Char) : Reader String := fun cs =>
  match untilQuote? quote (cs.drop 1) with
  | some (body, rest) => .ok (String.ofList body, rest)
  | none => .error (.unclosedText, cs)

/-- The character of a byte, which only an ASCII code other than zero has. -/
def byteChar? (digits : Option Nat) : Option Char := do
  let n := (← digits) % 256
  if n = 0 ∨ 127 < n then none else some (Char.ofNat n)

/-- The character of a code that hexadecimal digits write, with a plus sign or none in front. -/
def codeChar? (digits : List Char) : Option Char := do
  let digits := match digits with
    | '+' :: rest => rest
    | _ => digits
  let n ← Text.valueInBase? 16 digits
  if n = 0 then none else if n.isValidChar then some (Char.ofNat n) else none

/-- Reads what follows a backslash: a letter with a meaning, a code in octal or hexadecimal
digits, or a character that stands for itself. -/
def escape? : List Char → Option (Char × List Char)
  | [] => none
  | 'b' :: rest => some ('\x08', rest)
  | 'f' :: rest => some ('\x0c', rest)
  | 'n' :: rest => some ('\n', rest)
  | 'r' :: rest => some ('\r', rest)
  | 't' :: rest => some ('\t', rest)
  | 'u' :: rest =>
    if rest.length < 4 then none else (codeChar? (rest.take 4)).map fun c => (c, rest.drop 4)
  | 'U' :: rest =>
    if rest.length < 8 then none else (codeChar? (rest.take 8)).map fun c => (c, rest.drop 8)
  | 'x' :: rest =>
    let digits := (rest.take 2).takeWhile fun c => (Text.hexValue? c).isSome
    if digits.isEmpty then some ('x', rest)
    else (byteChar? (Text.valueInBase? 16 digits)).map fun c => (c, rest.drop digits.length)
  | c :: rest =>
    if '0' ≤ c ∧ c ≤ '7' then
      let digits := c :: (rest.take 2).takeWhile fun d => '0' ≤ d ∧ d ≤ '7'
      (byteChar? (Text.valueInBase? 8 digits)).map fun c => (c, rest.drop (digits.length - 1))
    else if c = '\x00' then none
    else some (c, rest)

/-- Reads up to the closing quote of a text with escapes, in at most `fuel` steps. -/
def escapedBody? : Nat → List Char → Option (List Char × List Char)
  | _, [] => none
  | 0, _ => none
  | _ + 1, ['\''] => some ([], [])
  | fuel + 1, '\'' :: '\'' :: rest =>
    (escapedBody? fuel rest).map fun (cs, r) => ('\'' :: cs, r)
  | _ + 1, '\'' :: rest => some ([], rest)
  | fuel + 1, '\\' :: rest => do
    let (c, after) ← escape? rest
    (escapedBody? fuel after).map fun (cs, r) => (c :: cs, r)
  | fuel + 1, c :: rest => (escapedBody? fuel rest).map fun (cs, r) => (c :: cs, r)

/-- Reads a text with escapes that begins with its letter and its quote. -/
def escapedText : Reader String := fun cs =>
  match escapedBody? cs.length (cs.drop 2) with
  | some (body, rest) => .ok (String.ofList body, rest)
  | none => .error (.unclosedEscapedText, cs)

/-- Reads a name that begins with its quote. -/
def quotedName (quote : Char) : Reader Token := fun cs =>
  match untilQuote? quote (cs.drop 1) with
  | some (body, rest) => .ok (.word (some quote) (String.ofList body), rest)
  | none => .error (.unclosedName quote, cs)

/-! ## Texts between dollar marks -/

/-- Reads up to two dollar marks in a row, after a dollar mark or not. -/
def untilDollars? (afterDollar : Bool) : List Char → Option (List Char × List Char)
  | [] => none
  | c :: rest =>
    if c = '$' then
      if afterDollar then some ([], rest) else untilDollars? true rest
    else
      (untilDollars? false rest).map fun (cs, r) =>
        ((if afterDollar then ['$', c] else [c]) ++ cs, r)

/-- Reads the tag of a closing mark. -/
def closingTag (tag : List Char) : List Char → Reader Unit
  | [], cs => .ok ((), cs)
  | c :: more, d :: rest =>
    if c = d then closingTag tag more rest
    else .error (.wrongClosingTag (String.ofList tag), rest)
  | _ :: _, [] => .error (.wrongClosingTag (String.ofList tag), [])

/-- Reads what a dollar mark begins: a text between two marks, or a placeholder with a name. -/
def dollar : Reader Token := fun cs =>
  match cs.drop 1 with
  | '$' :: rest =>
    match untilDollars? false rest with
    | some (body, after) => .ok (.dollarText none (String.ofList body), after)
    | none => .error (.unclosedDollarText, [])
  | rest =>
    let inTag := fun c => Text.isAlphabetic c || Text.isNumeric c || c == '_'
    let tag := rest.takeWhile inTag
    match rest.dropWhile inTag with
    | '$' :: afterTag =>
      let body := afterTag.takeWhile (· != '$')
      match afterTag.dropWhile (· != '$') with
      | '$' :: closing => do
        let ((), afterClosing) ← closingTag tag tag closing
        match afterClosing with
        | '$' :: after =>
          .ok (.dollarText (if tag.isEmpty then none else some (String.ofList tag))
            (String.ofList body), after)
        | after => .error (.unclosedClosingTag, after)
      | after => .error (.unclosedTaggedText, after)
    | after => .ok (.placeholder (String.ofList ('$' :: tag)), after)

/-! ## Words and numbers -/

/-- A character that may begin a word. -/
def beginsWord (c : Char) : Bool := Text.isAlphabetic c || c == '_' || c == '#' || c == '@'

/-- A character that may stand in a word. -/
def isWordPart (c : Char) : Bool :=
  Text.isAlphabetic c || Text.isDigit c || c == '@' || c == '$' || c == '#' || c == '_'

/-- Reads a word whose first `taken` characters belong to it whatever they are. -/
def word (taken : Nat) (cs : List Char) : Token × List Char :=
  let more := cs.drop taken
  (.word none (String.ofList (cs.take taken ++ more.takeWhile isWordPart)),
    more.dropWhile isWordPart)

/-- The characters of an exponent, where an exponent with a digit comes next. -/
def exponentPart : List Char → List Char
  | e :: rest =>
    if e = 'e' ∨ e = 'E' then
      let sign := (rest.take 1).takeWhile fun c => c == '+' || c == '-'
      let digits := (rest.drop sign.length).takeWhile Text.isDigit
      if digits.isEmpty then [] else e :: sign ++ digits
    else []
  | [] => []

/-- Reads a number, a hexadecimal literal or a lone period. -/
def number (cs : List Char) : Token × List Char :=
  let (whole, afterWhole) := Text.spanDigits cs
  match whole, afterWhole with
  | ['0'], 'x' :: rest =>
    let isHex := fun c => (Text.hexValue? c).isSome
    (.literal .hexadecimal (String.ofList (rest.takeWhile isHex)), rest.dropWhile isHex)
  | _, _ =>
    let (decimals, afterDecimals) := match afterWhole with
      | '.' :: rest => ('.' :: rest.takeWhile Text.isDigit, rest.dropWhile Text.isDigit)
      | rest => ([], rest)
    let plain := whole ++ decimals
    if plain = ['.'] then (.period, afterDecimals)
    else
      let exponent := exponentPart afterDecimals
      let digits := String.ofList (plain ++ exponent)
      match afterDecimals.drop exponent.length with
      | 'L' :: rest => (.number digits true, rest)
      | rest => (.number digits false, rest)

/-! ## Comments and operators -/

/-- Skips the rest of a comment inside `depth` open comments; `last` is the character before. -/
def skipComment? (depth : Nat) (last : Char) : List Char → Option (List Char)
  | [] => none
  | c :: rest =>
    if last = '/' ∧ c = '*' then skipComment? (depth + 1) c rest
    else if last = '*' ∧ c = '/' then
      if depth ≤ 1 then some rest else skipComment? (depth - 1) c rest
    else skipComment? depth c rest

/-- The operators with their tokens, longer spellings first. -/
def operators : List (String × Token) :=
  [("<=>", .operator "<=>"), ("->>", .operator "->>"), ("||/", .operator "||/"),
   ("!~*", .operator "!~*"), ("#>>", .operator "#>>"), ("->", .operator "->"),
   ("//", .operator "//"), ("|/", .operator "|/"), ("||", .operator "||"),
   ("=>", .operator "=>"), ("==", .doubleEqual), ("!=", .operator "<>"),
   ("!!", .operator "!!"), ("!~", .operator "!~"), ("<=", .operator "<="),
   ("<>", .operator "<>"), ("<<", .operator "<<"), ("<@", .operator "<@"),
   (">=", .operator ">="), (">>", .operator ">>"), ("::", .operator "::"),
   (":=", .operator ":="), ("&&", .operator "&&"), ("^@", .operator "^@"),
   ("~*", .operator "~*"), ("#>", .operator "#>"), ("#-", .operator "#-"),
   ("@>", .operator "@>"), ("@?", .operator "@?"), ("(", .leftParen), (")", .rightParen),
   (",", .comma), ("-", .minus), ("=", .equal), (";", .semicolon), ("/", .operator "/"),
   ("+", .operator "+"), ("*", .operator "*"), ("%", .operator "%"), ("|", .operator "|"),
   ("!", .operator "!"), ("<", .operator "<"), (">", .operator ">"), (":", .operator ":"),
   ("\\", .operator "\\"), ("[", .operator "["), ("]", .operator "]"), ("&", .operator "&"),
   ("^", .operator "^"), ("\x7b", .operator "\x7b"), ("\x7d", .operator "\x7d"),
   ("~", .operator "~")]

/-- The longest operator at the front. -/
def operator? (cs : List Char) : Option (Token × List Char) :=
  (operators.find? fun (spelling, _) => spelling.toList.isPrefixOf cs).map
    fun (spelling, token) => (token, cs.drop spelling.length)

/-- Reads a sign `#` or `@`, or the word that it begins.  The word takes the next character in,
whatever it is, but a sign before a blank or at the end stands alone. -/
def signOrWord (sign : List Char) (cs : List Char) : Token × List Char :=
  match cs.drop sign.length with
  | [] => (.operator (String.ofList sign), [])
  | ' ' :: rest => (.operator (String.ofList sign), ' ' :: rest)
  | _ :: _ => word (sign.length + 1) cs

/-! ## One lexeme -/

/-- A lexeme that is a token. -/
def token (t : Token × List Char) : Except (ScanFault × List Char) (Option Token × List Char) :=
  .ok (some t.1, t.2)

/-- Reads a literal that a letter begins before its quote. -/
def lettered (kind : LiteralKind) (quote : Char) : Reader (Option Token) := fun cs => do
  let (value, rest) ← quotedText quote (cs.drop 1)
  .ok (some (.literal kind value), rest)

/-- Reads one lexeme of a statement that has a character left; a blank or a comment gives no
token. -/
def lexeme : Reader (Option Token) := fun cs =>
  match cs with
  | [] => .ok (none, [])
  | '-' :: '-' :: rest => .ok (none, (rest.dropWhile (· != '\n')).drop 1)
  | '/' :: '*' :: rest =>
    match skipComment? 1 ' ' rest with
    | some after => .ok (none, after)
    | none => .error (.unclosedComment, [])
  | '\'' :: _ => do
    let (value, rest) ← quotedText '\'' cs
    .ok (some (.text value), rest)
  | c :: '\'' :: _ =>
    if c = 'b' ∨ c = 'B' then lettered .bytes '\'' cs
    else if c = 'r' ∨ c = 'R' then lettered .raw '\'' cs
    else if c = 'n' ∨ c = 'N' then lettered .national '\'' cs
    else if c = 'x' ∨ c = 'X' then lettered .hexadecimal '\'' cs
    else if c = 'e' ∨ c = 'E' then do
      let (value, rest) ← escapedText cs
      .ok (some (.literal .escaped value), rest)
    else general cs
  | c :: '"' :: _ =>
    if c = 'b' ∨ c = 'B' then lettered .doubleQuotedBytes '"' cs
    else if c = 'r' ∨ c = 'R' then lettered .raw '"' cs
    else general cs
  | _ => general cs
where
  /-- Reads a lexeme that is neither a comment nor a literal with a letter in front. -/
  general : Reader (Option Token) := fun cs =>
    match cs with
    | [] => .ok (none, [])
    | c :: rest =>
      if c = '"' ∨ c = '`' then do
        let (t, after) ← quotedName c cs
        .ok (some t, after)
      else if Text.isDigit c ∨ c = '.' then token (number cs)
      else
        match operator? cs with
        | some t => token t
        | none =>
          if c = '#' then token (signOrWord ['#'] cs)
          else if c = '@' then
            token (signOrWord (if rest.head? = some '@' then ['@', '@'] else ['@']) cs)
          else if c = '?' then
            token (.placeholder (String.ofList ('?' :: rest.takeWhile Text.isNumeric)),
              rest.dropWhile Text.isNumeric)
          else if beginsWord c then token (word 1 cs)
          else if c = '$' then do
            let (t, after) ← dollar cs
            .ok (some t, after)
          else if Text.isBlank c then .ok (none, rest)
          else token (.character c, rest)

/-- Cuts characters into tokens in at most `fuel` steps. -/
def tokensWithin : Nat → List Char → Except (ScanFault × List Char) (List Token)
  | _, [] => .ok []
  | 0, _ :: _ => .ok []
  | fuel + 1, c :: rest => do
    let (token, after) ← lexeme (c :: rest)
    let tokens ← tokensWithin fuel after
    .ok (token.toList ++ tokens)

end Scan

/-- Cuts a statement into tokens, or tells what is wrong with it and where. -/
def scan (statement : String) : Except (ScanFault × Position) (List Token) :=
  let cs := statement.toList
  match Scan.tokensWithin cs.length cs with
  | .ok tokens => .ok tokens
  | .error (fault, rest) => .error (fault, Position.ofRest cs rest)

end ContentStore.Sql
