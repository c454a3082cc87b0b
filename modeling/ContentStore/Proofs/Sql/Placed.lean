import ContentStore.Sql.Parse
/-!
# Reading a statement whose placeholders carry their values

A second reader of statements.  Here each token carries the value of its own place, no parameters
are counted, and a placeholder that is read gives the value that it carries.  What takes no
parameter is read as in `Parser`, on the tokens alone.  `place` puts into each place the value of
the number of placeholders that stand before it in the statement (`getElem?_place`).
-/

namespace ContentStore.Sql

/-- A token with the value of its place. -/
abbrev Placed := Token × Json

/-- The tokens with the values of their places, `k` placeholders standing before the first. -/
def place (value : Nat → Json) : Nat → List Token → List Placed
  | _, [] => []
  | k, t :: rest => (t, value k) :: place value (k + Token.placeholders [t]) rest

/-- The placed tokens of a cursor. -/
def Cursor.placed (value : Nat → Json) (c : Cursor) : List Placed := place value c.bound c.rest

/-- A reader of placed tokens. -/
abbrev PlacedReader := StateT (List Placed) (Except StoreError)

namespace Placed

variable {α : Type}

/-- The tokens without their values. -/
def tokens (placed : List Placed) : List Token := placed.map Prod.fst

/-- The placed tokens that remain when these tokens remain. -/
def remaining (placed : List Placed) (rest : List Token) : List Placed :=
  placed.drop (placed.length - rest.length)

/-- Reads what takes no parameter. -/
def plain (p : Parser α) : PlacedReader α := fun placed => do
  let (a, cursor) ← p.run ⟨tokens placed, 0⟩
  return (a, remaining placed cursor.rest)

/-- Reads a value: that of a placeholder is the one that it carries. -/
def value : PlacedReader Assigned := fun placed =>
  match placed with
  | (.placeholder _, v) :: rest => .ok (.value v, rest)
  | _ => plain (Parser.value []) placed

/-- Reads an item and further ones as long as commas follow, at most `fuel` further ones. -/
def commaSeparated (item : PlacedReader α) : Nat → PlacedReader (List α)
  | 0 => do return [← item]
  | fuel + 1 => do
    let first ← item
    if ← plain (Parser.eatToken .comma) then return first :: (← commaSeparated item fuel)
    else return [first]

/-- Reads items between commas. -/
def list (item : PlacedReader α) : PlacedReader (List α) := do
  commaSeparated item (← get).length

/-! ## Selections -/

/-- The value of the placeholder in a condition. -/
def operandValue (condition : List Placed) : Json :=
  match condition.find? fun p => p.1.isPlaceholder with
  | some p => p.2
  | none => .null

/-- Adds what the next condition filters; its own value is the only parameter. -/
def addCondition (state : Found × List Placed) (condition : List Token) : Found × List Placed :=
  let v := operandValue (state.2.take condition.length)
  (Found.add [v] { state.1 with bound := 0 } condition, state.2.drop (condition.length + 1))

/-- Reads the conditions of a `WHERE` clause. -/
def whereClause (placed : List Placed) : List Filter × List Placed :=
  let (conditions, rest) := splitConditions 0 (tokens placed)
  let (found, _) := conditions.foldl addCondition (⟨false, none, none, none, 0⟩, placed)
  (found.filters, remaining placed rest)

/-- Reads the terms of an `ORDER BY` clause. -/
def orderClause (placed : List Placed) : Option RowOrder × List Placed :=
  let (order, cursor) := Parser.orderClause ⟨tokens placed, 0⟩
  (order, remaining placed cursor.rest)

/-- Reads the count of a `LIMIT` or `OFFSET` clause. -/
def countClause (placed : List Placed) : Option Nat × List Placed :=
  match placed with
  | (.placeholder _, v) :: rest => (countOf? v, rest)
  | _ =>
    let (count, cursor) := Parser.countClause [] ⟨tokens placed, 0⟩
    (count, remaining placed cursor.rest)

/-- Reads the counts of a `LIMIT` clause. -/
def limitClause (placed : List Placed) (selection : Select) : Select × List Placed :=
  let (first, placed) := countClause placed
  match placed with
  | (.comma, _) :: rest =>
    let (second, placed) := countClause rest
    ({ selection with offset := first, limit := second }, placed)
  | _ => ({ selection with limit := first }, placed)

/-- Reads the clause or skips the token before the placed tokens. -/
def clause (t : Token) (placed : List Placed) (selection : Select) : Select × List Placed :=
  if t.isKeyword "WHERE" then
    let (filters, placed) := whereClause placed
    ({ selection with filters := filters }, placed)
  else if t.isKeyword "ORDER" then
    match placed with
    | (by_, _) :: rest =>
      if by_.isKeyword "BY" then
        let (order, placed) := orderClause rest
        ({ selection with order := order }, placed)
      else (selection, placed)
    | [] => (selection, placed)
  else if t.isKeyword "LIMIT" then limitClause placed selection
  else if t.isKeyword "OFFSET" then
    let (offset, placed) := countClause placed
    ({ selection with offset := offset }, placed)
  else (selection, placed)

/-- Reads the clauses of a selection to the end, at most `fuel` of them. -/
def clauses : Nat → List Placed → Select → Select
  | 0, _, selection => selection
  | _ + 1, [], selection => selection
  | fuel + 1, (t, _) :: rest, selection =>
    let (selection, placed) := clause t rest selection
    clauses fuel placed selection

/-- Reads a selection after its verb. -/
def select : PlacedReader Statement := do
  plain (modify (Parser.skipBefore (·.isKeyword "FROM")))
  plain (Parser.expectKeyword "FROM")
  let t ← plain Parser.table
  plain Parser.skipAlias
  let placed ← get
  return .select (clauses placed.length placed (Select.all t))

/-! ## Insertions, changes and deletions -/

/-- Reads an insertion after its verb; without columns it makes the given assignments. -/
def insert (columnless : List Assignment) : PlacedReader Statement := do
  plain (Parser.expectKeyword "INTO")
  let t ← plain Parser.table
  let columns ←
    if ← plain (Parser.eatToken .leftParen) then do
      let names ← plain (Parser.list Parser.name)
      plain (Parser.expectToken .rightParen)
      pure (some names)
    else pure none
  unless ← plain (Parser.eatKeyword "VALUES") do throw (.unsupported .insertWithoutValues)
  plain (Parser.expectToken .leftParen)
  let values ← list value
  plain (Parser.expectToken .rightParen)
  plain Parser.expectEnd
  match columns with
  | some names => return .insert t (← plain (Parser.assign names values))
  | none => return .insert t columnless

/-- Reads `WHERE id =` and a value. -/
def whereId (verb : String) : PlacedReader Json := do
  let withoutId : StoreError := .unsupported (.withoutId verb)
  unless ← plain (Parser.eatKeyword "WHERE") do throw withoutId
  unless Text.sameLetters (← plain Parser.name) "id" do throw withoutId
  plain Parser.expectEqual
  match ← value with
  | .value v => return v
  | .now => throw withoutId

/-- Reads a field, an equals sign and a value. -/
def assignment : PlacedReader Assignment := do
  let field ← plain Parser.name
  plain Parser.expectEqual
  return ⟨field, ← value⟩

/-- Reads a change after its verb. -/
def update : PlacedReader Statement := do
  let t ← plain Parser.table
  plain Parser.skipAlias
  plain (Parser.expectKeyword "SET")
  let changes ← list assignment
  return .update t (← whereId "UPDATE") changes

/-- Reads a deletion after its verb. -/
def delete : PlacedReader Statement := do
  plain (Parser.expectKeyword "FROM")
  let t ← plain Parser.table
  plain Parser.skipAlias
  return .delete t (← whereId "DELETE")

/-- Reads a statement; an insertion without columns makes the given assignments. -/
def statement (columnless : List Assignment) : PlacedReader Statement := fun placed =>
  match placed with
  | [] => .error (.unsupported .empty)
  | (.word _ word, _) :: rest =>
    let verb := Text.upperAscii word
    if verb = "SELECT" then select rest
    else if verb = "INSERT" then insert columnless rest
    else if verb = "UPDATE" then update rest
    else if verb = "DELETE" then delete rest
    else .error (.unsupported (.verb verb))
  | (t, _) :: _ => .error (.unsupported (.startsWith t))

end Placed

/-! ## The values of the places -/

theorem placeholders_append (a b : List Token) :
    Token.placeholders (a ++ b) = Token.placeholders a + Token.placeholders b :=
  List.countP_append

theorem placeholders_cons (t : Token) (rest : List Token) :
    Token.placeholders (t :: rest) = Token.placeholders [t] + Token.placeholders rest :=
  placeholders_append [t] rest

theorem tokens_place (value : Nat → Json) (k : Nat) (ts : List Token) :
    Placed.tokens (place value k ts) = ts := by
  induction ts generalizing k with
  | nil => rfl
  | cons t rest ih => exact congrArg (t :: ·) (ih _)

theorem length_place (value : Nat → Json) (k : Nat) (ts : List Token) :
    (place value k ts).length = ts.length := by
  rw [← tokens_place value k ts, Placed.tokens, List.length_map, ← Placed.tokens, tokens_place]

theorem length_placed (value : Nat → Json) (c : Cursor) :
    (c.placed value).length = c.rest.length :=
  length_place value c.bound c.rest

theorem tokens_placed (value : Nat → Json) (c : Cursor) :
    Placed.tokens (c.placed value) = c.rest :=
  tokens_place value c.bound c.rest

theorem place_append (value : Nat → Json) (k : Nat) (a b : List Token) :
    place value k (a ++ b) = place value k a ++ place value (k + Token.placeholders a) b := by
  induction a generalizing k with
  | nil => rfl
  | cons t rest ih =>
    rw [List.cons_append, place, place, ih, placeholders_cons t rest, Nat.add_assoc,
      List.cons_append]

theorem getElem?_place_from (value : Nat → Json) (k : Nat) (ts : List Token) (i : Nat) :
    (place value k ts)[i]? =
      ts[i]?.map fun t => (t, value (k + Token.placeholders (ts.take i))) := by
  induction ts generalizing k i with
  | nil => rfl
  | cons t rest ih =>
    cases i with
    | zero => rfl
    | succ i =>
      rw [place, List.getElem?_cons_succ, List.getElem?_cons_succ, ih, List.take_succ_cons,
        placeholders_cons t (rest.take i), Nat.add_assoc]

/-- A token carries the value of the number of placeholders before it. -/
theorem getElem?_place (value : Nat → Json) (ts : List Token) (i : Nat) :
    (place value 0 ts)[i]? =
      ts[i]?.map fun t => (t, value (Token.placeholders (ts.take i))) := by
  rw [getElem?_place_from, Nat.zero_add]

/-- Places that begin later have the values of a later start. -/
theorem place_add (value : Nat → Json) (k lag : Nat) (ts : List Token) :
    place value (k + lag) ts = place (fun i => value (i + lag)) k ts := by
  induction ts generalizing k with
  | nil => rfl
  | cons t rest ih => rw [place, place, Nat.add_right_comm, ih]

end ContentStore.Sql
