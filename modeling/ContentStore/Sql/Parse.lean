import ContentStore.Sql.Condition
/-!
# Reading a statement

A cursor walks over the tokens of a statement and counts the parameters that it has taken, from the
left to the right of the whole statement.  A selection reads its clauses in any order and number and
skips what it does not know; the other statements must keep to their form.
-/

namespace ContentStore.Sql

/-- The tokens not read yet, and how many parameters have been taken. -/
structure Cursor where
  rest : List Token
  bound : Nat

/-- A reader of the tokens at a cursor. -/
abbrev Parser := StateT Cursor (Except StoreError)

namespace Parser

/-- The words that may follow a table and are no alias. -/
def aliasStops : List String :=
  ["WHERE", "ORDER", "LIMIT", "OFFSET", "GROUP", "HAVING", "VALUES", "SET", "JOIN", "INNER",
   "LEFT", "RIGHT", "CROSS"]

/-! ## The cursor -/

/-- The tokens do not fit. -/
def fail {α : Type} (reason : Malformed) : Parser α := throw (.malformed reason)

/-- The next token. -/
def peek : Parser (Option Token) := do return (← get).rest.head?

/-- Reads the next token. -/
def advance : Parser (Option Token) := do
  let cursor ← get
  set { cursor with rest := cursor.rest.tail }
  return cursor.rest.head?

/-- Takes the next parameter. -/
def takeParameter (params : List Json) : Parser Json := do
  let cursor ← get
  set { cursor with bound := cursor.bound + 1 }
  return parameter params cursor.bound

/-- Reads a token of a kind, where one comes next. -/
def eatIf (accept : Token → Bool) : Parser Bool := do
  let cursor ← get
  match cursor.rest with
  | t :: rest =>
    if accept t then
      set { cursor with rest := rest }
      return true
    else return false
  | [] => return false

/-- Reads a keyword, where it comes next. -/
def eatKeyword (keyword : String) : Parser Bool := eatIf (·.isKeyword keyword)

/-- Reads a token, where it comes next. -/
def eatToken (token : Token) : Parser Bool := eatIf (· == token)

/-- Reads a keyword that must come next. -/
def expectKeyword (keyword : String) : Parser Unit := do
  unless ← eatKeyword keyword do fail (.expected (.keyword keyword) (← peek))

/-- Reads a token that must come next. -/
def expectToken (token : Token) : Parser Unit := do
  unless ← eatToken token do fail (.expected (.mark token) (← peek))

/-- Reads an equals sign, single or double. -/
def expectEqual : Parser Unit := do
  unless ← eatIf (fun t => t == .equal || t == .doubleEqual) do
    fail (.expected (.mark .equal) (← peek))

/-- Nothing may be left. -/
def expectEnd : Parser Unit := do
  let rest := (← get).rest
  unless rest.isEmpty do fail (.trailing rest)

/-! ## Names and values -/

/-- Reads the further parts of a qualified name; the last part counts. -/
def nameParts (name : String) : List Token → Except StoreError (String × List Token)
  | .period :: .word _ part :: rest => nameParts part rest
  | .period :: rest => .error (.malformed (.expected .identifierAfterPeriod rest.head?))
  | rest => .ok (name, rest)

/-- Reads a name, of which the last part counts. -/
def name : Parser String := do
  let cursor ← get
  match cursor.rest with
  | .word _ first :: rest =>
    let (last, left) ← nameParts first rest
    set { cursor with rest := left }
    return last
  | rest => fail (.expected .identifier rest.head?)

/-- Reads the name of a table of the site. -/
def table : Parser Table := do
  let n ← name
  match Table.lookup? n with
  | some t => return t
  | none => throw (.unknownTable n)

/-- Skips an alias of a table: `AS` and any token, or a word that begins no clause. -/
def skipAlias : Parser Unit := do
  if ← eatKeyword "AS" then discard advance
  else discard (eatIf fun t => match t with
    | .word _ _ => !t.isOneOf aliasStops
    | _ => false)

/-- The value of a number. -/
def numberOf (digits : String) : Parser Assigned :=
  match numberValue? digits.toList with
  | some v => return .value v
  | none => fail (.invalidNumber digits)

/-- Reads a value: a parameter, a literal, or the present time. -/
def value (params : List Json) : Parser Assigned := do
  match ← advance with
  | some (.placeholder _) => return .value (← takeParameter params)
  | some (.number digits _) => numberOf digits
  | some .minus =>
    match ← advance with
    | some (.number digits _) => numberOf ("-" ++ digits)
    | found => fail (.expected .numberAfterMinus found)
  | some (.text s) => return .value (.text s)
  | some (.word none word) =>
    let upper := Text.upperAscii word
    if upper = "TRUE" then return .value (.bool true)
    else if upper = "FALSE" then return .value (.bool false)
    else if upper = "NULL" then return .value .null
    else if upper = "NOW" ∨ upper = "CURRENT_TIMESTAMP" then
      if ← eatToken .leftParen then expectToken .rightParen
      return .now
    else fail (.unsupportedValue word)
  | found => fail (.expected .value found)

/-- Reads an item and further ones as long as commas follow, at most `fuel` further ones. -/
def commaSeparated {α : Type} (item : Parser α) : Nat → Parser (List α)
  | 0 => do return [← item]
  | fuel + 1 => do
    let first ← item
    if ← eatToken .comma then return first :: (← commaSeparated item fuel) else return [first]

/-- Reads items between commas; each comma is a token, so the tokens left bound the items. -/
def list {α : Type} (item : Parser α) : Parser (List α) := do
  commaSeparated item (← get).rest.length

/-! ## Selections -/

/-- Skips the tokens before the first one outside parentheses at which to stop, and takes their
parameters. -/
def skipBefore (stop : Token → Bool) (cursor : Cursor) : Cursor :=
  let (skipped, rest) := splitBefore stop 0 cursor.rest
  ⟨rest, cursor.bound + Token.placeholders skipped⟩

/-- Reads the conditions of a `WHERE` clause. -/
def whereClause (params : List Json) (cursor : Cursor) : List Filter × Cursor :=
  let (conditions, rest) := splitConditions 0 cursor.rest
  let found := findFilters params cursor.bound conditions
  (found.filters, ⟨rest, found.bound⟩)

/-- Reads the terms of an `ORDER BY` clause, of which only the first counts. -/
def orderClause (cursor : Cursor) : Option RowOrder × Cursor :=
  let stops := fun (t : Token) => t.isOneOf orderStops
  let (term, rest) := splitBefore (fun t => t == .comma || stops t) 0 cursor.rest
  (order? term, skipBefore stops ⟨rest, cursor.bound + Token.placeholders term⟩)

/-- Reads the count of a `LIMIT` or `OFFSET` clause; what is no count is read and dropped. -/
def countClause (params : List Json) (cursor : Cursor) : Option Nat × Cursor :=
  match cursor.rest with
  | [] => (none, cursor)
  | t :: rest =>
    if t.isOneOf conditionStops then (none, cursor)
    else match t with
      | .number digits _ => (Text.natural? digits.toList, { cursor with rest := rest })
      | .placeholder _ => (countOf? (parameter params cursor.bound), ⟨rest, cursor.bound + 1⟩)
      | _ => (none, { cursor with rest := rest })

/-- Reads the counts of a `LIMIT` clause: one count, or an offset, a comma and a count. -/
def limitClause (params : List Json) (cursor : Cursor) (selection : Select) : Select × Cursor :=
  let (first, cursor) := countClause params cursor
  match cursor.rest with
  | .comma :: rest =>
    let (second, cursor) := countClause params { cursor with rest := rest }
    ({ selection with offset := first, limit := second }, cursor)
  | _ => ({ selection with limit := first }, cursor)

/-- Reads the clause or skips the token at the cursor. -/
def clause (params : List Json) (t : Token) (cursor : Cursor) (selection : Select) :
    Select × Cursor :=
  if t.isKeyword "WHERE" then
    let (filters, cursor) := whereClause params cursor
    ({ selection with filters := filters }, cursor)
  else if t.isKeyword "ORDER" then
    match cursor.rest with
    | by_ :: rest =>
      if by_.isKeyword "BY" then
        let (order, cursor) := orderClause { cursor with rest := rest }
        ({ selection with order := order }, cursor)
      else (selection, cursor)
    | [] => (selection, cursor)
  else if t.isKeyword "LIMIT" then limitClause params cursor selection
  else if t.isKeyword "OFFSET" then
    let (offset, cursor) := countClause params cursor
    ({ selection with offset := offset }, cursor)
  else (selection, { cursor with bound := cursor.bound + Token.placeholders [t] })

/-- Reads the clauses of a selection to the end, at most `fuel` of them. -/
def clauses (params : List Json) : Nat → Cursor → Select → Select
  | 0, _, selection => selection
  | fuel + 1, cursor, selection =>
    match cursor.rest with
    | [] => selection
    | t :: rest =>
      let (selection, cursor) := clause params t { cursor with rest := rest } selection
      clauses params fuel cursor selection

/-- Reads a selection after its verb.  What it projects does not count. -/
def select (params : List Json) : Parser Statement := do
  modify (skipBefore (·.isKeyword "FROM"))
  expectKeyword "FROM"
  let t ← table
  skipAlias
  let cursor ← get
  return .select (clauses params cursor.rest.length cursor (Select.all t))

/-! ## Insertions, changes and deletions -/

/-- The assignments of columns and values, as many of the one as of the other. -/
def assign (columns : List String) (values : List Assigned) : Parser (List Assignment) :=
  if columns.length = values.length then return columns.zipWith Assignment.mk values
  else fail (.columnCount columns.length values.length)

/-- Reads an insertion after its verb.  Without columns the parameters fill fixed fields, whatever
the values are. -/
def insert (params : List Json) : Parser Statement := do
  expectKeyword "INTO"
  let t ← table
  let columns ←
    if ← eatToken .leftParen then do
      let names ← list name
      expectToken .rightParen
      pure (some names)
    else pure none
  unless ← eatKeyword "VALUES" do throw (.unsupported .insertWithoutValues)
  expectToken .leftParen
  let values ← list (value params)
  expectToken .rightParen
  expectEnd
  match columns with
  | some names => return .insert t (← assign names values)
  | none => return .insert t ((columnlessFields.zip params).map fun (f, v) => ⟨f, .value v⟩)

/-- Reads `WHERE id =` and a value; what follows does not count. -/
def whereId (params : List Json) (verb : String) : Parser Json := do
  let withoutId : StoreError := .unsupported (.withoutId verb)
  unless ← eatKeyword "WHERE" do throw withoutId
  unless Text.sameLetters (← name) "id" do throw withoutId
  expectEqual
  match ← value params with
  | .value v => return v
  | .now => throw withoutId

/-- Reads a field, an equals sign and a value. -/
def assignment (params : List Json) : Parser Assignment := do
  let field ← name
  expectEqual
  return ⟨field, ← value params⟩

/-- Reads a change after its verb. -/
def update (params : List Json) : Parser Statement := do
  let t ← table
  skipAlias
  expectKeyword "SET"
  let changes ← list (assignment params)
  return .update t (← whereId params "UPDATE") changes

/-- Reads a deletion after its verb. -/
def delete (params : List Json) : Parser Statement := do
  expectKeyword "FROM"
  let t ← table
  skipAlias
  return .delete t (← whereId params "DELETE")

/-- Reads a statement. -/
def statement (params : List Json) : Parser Statement := do
  match ← advance with
  | none => throw (.unsupported .empty)
  | some (.word _ word) =>
    let verb := Text.upperAscii word
    if verb = "SELECT" then select params
    else if verb = "INSERT" then insert params
    else if verb = "UPDATE" then update params
    else if verb = "DELETE" then delete params
    else throw (.unsupported (.verb verb))
  | some t => throw (.unsupported (.startsWith t))

end Parser

/-- Tokens without the semicolons at their end. -/
def dropSemicolons (tokens : List Token) : List Token :=
  (tokens.reverse.dropWhile (· == .semicolon)).reverse

/-- The statement that tokens make with parameters. -/
def ofTokens (tokens : List Token) (params : List Json) : Except StoreError Statement :=
  (Parser.statement params).run' ⟨dropSemicolons tokens, 0⟩

/-- The statement that a text makes with parameters. -/
def parse (text : String) (params : List Json) : Except StoreError Statement :=
  match scan text with
  | .ok tokens => ofTokens tokens params
  | .error (fault, position) => .error (.malformed (.scan fault position))

end ContentStore.Sql
