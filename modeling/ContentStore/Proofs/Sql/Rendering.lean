import ContentStore.Sql.Condition
/-!
# Statements as tokens

How a statement is written in the grammar: a selection with any projection in front, its conditions,
its ordering and its counts, and the other statements with their fields and values.  A value stands
as a placeholder, whose parameter comes in its turn, and the present time as a call.  Only some
selections can be written: `FiltersNormal` says which filters stand for themselves, and a count must
fit into 64 bits.
-/

namespace ContentStore.Sql

/-- What the grammar leaves open in the writing of a statement: the tokens that a selection
projects, the quotes of names, and whether two counts stand together behind `LIMIT`. -/
structure Spelling where
  projection : List Token
  /-- The quote of the fields that a statement names freely. -/
  quote : Char
  /-- The quote of the fields that the grammar knows, if any. -/
  ownQuote : Option Char
  pairedCounts : Bool

/-- A word without quotes. -/
def keyword (name : String) : Token := .word none name

/-- Items with a token between two of them. -/
def separated (mark : Token) : List (List Token) → List Token
  | [] => []
  | [last] => last
  | first :: second :: rest => first ++ mark :: separated mark (second :: rest)

/-- A place for the next parameter. -/
def slot : Token := .placeholder "?"

/-- A count in decimal digits. -/
def countToken (n : Nat) : Token := .number (String.ofList (Nat.toDigits 10 n)) false

/-- A column that an insertion names, with the quote that its name stands in. -/
structure Column where
  quote : Char
  name : String

/-- The token of a column. -/
def Column.tokens (c : Column) : List Token := [.word (some c.quote) c.name]

/-- What a field is set to. -/
def Assigned.tokens : Assigned → List Token
  | value _ => [slot]
  | now => [keyword "NOW", .leftParen, .rightParen]

/-- The parameter of what a field is set to. -/
def Assigned.values : Assigned → List Json
  | value v => [v]
  | now => []

/-- The condition of a filter. -/
def Filter.tokens (sp : Spelling) : Filter → List Token
  | isActive => [.word sp.ownQuote "is_active", .equal, .number "1" false]
  | id _ => [.word sp.ownQuote "id", .equal, slot]
  | slug _ => [.word sp.ownQuote "slug", .equal, slot]
  | field name _ => [.word (some sp.quote) name, .equal, slot]

/-- The parameter of a filter. -/
def Filter.values : Filter → List Json
  | isActive => []
  | id v | slug v | field _ v => [v]

/-- The `WHERE` clause of filters, if there are any. -/
def whereTokens (sp : Spelling) : List Filter → List Token
  | [] => []
  | f :: rest =>
    keyword "WHERE" :: separated (keyword "AND") ((f :: rest).map (Filter.tokens sp))

/-- The `ORDER BY` clause of an order. -/
def orderTokens : Option RowOrder → List Token
  | none => []
  | some .newestFirst => [keyword "ORDER", keyword "BY", keyword "created_at", keyword "DESC"]
  | some .sortOrder => [keyword "ORDER", keyword "BY", keyword "sort_order"]

/-- The clause of a count. -/
def countTokens (verb : String) : Option Nat → List Token
  | none => []
  | some n => [keyword verb, countToken n]

/-- The clauses of the counts of a window. -/
def windowTokens (paired : Bool) (limit offset : Option Nat) : List Token :=
  match paired, limit, offset with
  | true, some n, some m => [keyword "LIMIT", countToken m, .comma, countToken n]
  | _, _, _ => countTokens "LIMIT" limit ++ countTokens "OFFSET" offset

/-- The clauses of a selection. -/
def Select.clauseTokens (sp : Spelling) (selection : Select) : List Token :=
  whereTokens sp selection.filters ++
    (orderTokens selection.order ++
      windowTokens sp.pairedCounts selection.limit selection.offset)

/-- The condition that names a record by its identifier. -/
def idTokens (sp : Spelling) : List Token :=
  [keyword "WHERE", .word sp.ownQuote "id", .equal, slot]

/-- An assignment in a change. -/
def Assignment.tokens (sp : Spelling) (a : Assignment) : List Token :=
  .word (some sp.quote) a.field :: .equal :: a.assigned.tokens

namespace Statement

/-- The tokens of a statement. -/
def tokens (sp : Spelling) : Statement → List Token
  | select selection =>
    keyword "SELECT" :: (sp.projection ++
      keyword "FROM" :: keyword selection.table.name :: selection.clauseTokens sp)
  | insert t values =>
    keyword "INSERT" :: keyword "INTO" :: keyword t.name :: .leftParen ::
      (separated .comma (values.map fun a => [.word (some sp.quote) a.field]) ++
        .rightParen :: keyword "VALUES" :: .leftParen ::
          (separated .comma (values.map fun a => a.assigned.tokens) ++ [.rightParen]))
  | update t _ changes =>
    keyword "UPDATE" :: keyword t.name :: keyword "SET" ::
      (separated .comma (changes.map (Assignment.tokens sp)) ++ idTokens sp)
  | delete t _ => keyword "DELETE" :: keyword "FROM" :: keyword t.name :: idTokens sp

/-- The tokens in front of which no value of a statement stands: what a selection projects. -/
def leading (sp : Spelling) : Statement → List Token
  | select _ => sp.projection
  | _ => []

/-- The parameters of a statement, in the order of its tokens. -/
def values : Statement → List Json
  | select selection => selection.filters.flatMap Filter.values
  | insert _ list => list.flatMap fun a => a.assigned.values
  | update _ id changes => changes.flatMap (fun a => a.assigned.values) ++ [id]
  | delete _ id => [id]

end Statement

/-! ## What can be written -/

/-- Behind open parentheses, every parenthesis has its partner, and no `FROM` stands outside. -/
def Projects (depth : Nat) : List Token → Prop
  | [] => depth = 0
  | t :: rest => (depth = 0 → t.isKeyword "FROM" = false ∧ t ≠ .rightParen) ∧
    Projects (depthAfter depth t) rest

instance decidableProjects : ∀ depth ts, Decidable (Projects depth ts)
  | depth, [] => inferInstanceAs (Decidable (depth = 0))
  | depth, t :: rest =>
    have := decidableProjects (depthAfter depth t) rest
    inferInstanceAs (Decidable ((depth = 0 → t.isKeyword "FROM" = false ∧ t ≠ .rightParen) ∧
      Projects (depthAfter depth t) rest))

/-- A field that is compared with a value has a filter of its own, and is neither the identifier nor
the slug nor a test for active records. -/
def IsFreeField (name : String) (v : Json) : Prop :=
  Text.sameLetters name "id" = false ∧ Text.sameLetters name "slug" = false ∧
    (Text.sameLetters name "is_active" = true → v.isTruthy = false)

/-- Filters stand for themselves: some of the three known ones in their order, or one on another
field. -/
inductive FiltersNormal : List Filter → Prop
  | known {filters : List Filter} (id slug : Json)
    (inOrder : filters.Sublist [.isActive, .id id, .slug slug]) : FiltersNormal filters
  | free {name : String} {v : Json} (free : IsFreeField name v) : FiltersNormal [.field name v]

/-- A statement can be written in the grammar. -/
def Statement.Expressible : Statement → Prop
  | select selection => FiltersNormal selection.filters ∧
    (∀ n, selection.limit = some n → n < UInt64.size) ∧
      ∀ m, selection.offset = some m → m < UInt64.size
  | insert _ values => values ≠ []
  | update _ _ changes => changes ≠ []
  | delete _ _ => True

end ContentStore.Sql
