import ContentStore.Error
/-!
# Conditions and orderings

The tokens of a `WHERE` clause fall into conditions, and each is recognised on its own: a field,
which may stand behind a qualifier, an equals sign, and an operand.  Only the first condition on the
identifier and on the slug count; one on another field counts only if there is no other filter.  A
condition that is not recognised filters nothing, but its placeholders take their parameters.
-/

namespace ContentStore.Sql

/-- The keywords that end a condition. -/
def conditionStops : List String := ["AND", "ORDER", "LIMIT", "OFFSET", "GROUP", "HAVING"]

/-- The keywords that end an ordering. -/
def orderStops : List String := ["LIMIT", "OFFSET"]

/-- The depth of parentheses after a token; a closing one without its partner does not count. -/
def depthAfter (depth : Nat) : Token → Nat
  | .leftParen => depth + 1
  | .rightParen => depth - 1
  | _ => depth

/-- Splits tokens before the first one outside parentheses at which to stop. -/
def splitBefore (stop : Token → Bool) (depth : Nat) : List Token → List Token × List Token
  | [] => ([], [])
  | t :: rest =>
    if depth = 0 ∧ stop t then ([], t :: rest)
    else
      let (taken, left) := splitBefore stop (depthAfter depth t) rest
      (t :: taken, left)

/-- The number that a number token writes. -/
def numberValue? (digits : List Char) : Option Json :=
  match Json.Token.readNumber? digits with
  | some (n, []) => some (.number n)
  | _ => none

/-- What a field is compared with. -/
inductive Operand where
  | parameter
  | literal (value : Json)
  | now

/-- The operand that tokens make. -/
def operand? : List Token → Option Operand
  | [.placeholder _] => some .parameter
  | [.number digits _] => (numberValue? digits.toList).map .literal
  | [.minus, .number digits _] => (numberValue? ('-' :: digits.toList)).map .literal
  | [.text value] => some (.literal (.text value))
  | [.word none name] =>
    if Text.sameLetters name "TRUE" then some (.literal (.bool true))
    else if Text.sameLetters name "FALSE" then some (.literal (.bool false))
    else if Text.sameLetters name "NULL" then some (.literal .null)
    else none
  | [.word none name, .leftParen, .rightParen] =>
    if Text.sameLetters name "NOW" then some .now else none
  | _ => none

/-- The field and the operand of tokens that follow the field's qualifier, if it has one. -/
def comparisonOf? (field : String) : List Token → Option (String × Operand)
  | .equal :: rest => (operand? rest).map fun o => (field, o)
  | .doubleEqual :: rest => (operand? rest).map fun o => (field, o)
  | _ => none

/-- The comparison that the tokens of a condition make. -/
def comparison? : List Token → Option (String × Operand)
  | .word _ _ :: .period :: .word _ field :: rest => comparisonOf? field rest
  | .word _ field :: rest => comparisonOf? field rest
  | _ => none

/-- The filters found so far, and how many parameters have been taken. -/
structure Found where
  isActive : Bool
  id : Option Json
  slug : Option Json
  other : Option (String × Json)
  bound : Nat

/-- The parameter at an index; one that is missing is null. -/
def parameter (params : List Json) (index : Nat) : Json := params[index]?.getD .null

/-- A literal that asks for active records. -/
def isActiveLiteral : Json → Bool
  | .bool b => b
  | .number n => n.sameValue (.integer 1 (by decide))
  | _ => false

/-- Adds what one condition filters. -/
def Found.add (params : List Json) (found : Found) (condition : List Token) : Found :=
  let bound := found.bound + Token.placeholders condition
  match comparison? condition with
  | some (field, .parameter) =>
    let v := parameter params found.bound
    if Text.sameLetters field "is_active" ∧ v.isTruthy then
      { found with isActive := true, bound := bound }
    else if Text.sameLetters field "id" then
      { found with id := found.id.or (some v), bound := bound }
    else if Text.sameLetters field "slug" then
      { found with slug := found.slug.or (some v), bound := bound }
    else { found with other := found.other.or (some (field, v)), bound := bound }
  | some (field, .literal v) =>
    if Text.sameLetters field "is_active" ∧ isActiveLiteral v then
      { found with isActive := true, bound := bound }
    else { found with bound := bound }
  | _ => { found with bound := bound }

/-- The filters in their fixed order; the one on another field stands alone. -/
def Found.filters (found : Found) : List Filter :=
  let named := (if found.isActive then [.isActive] else []) ++
    (found.id.map Filter.id).toList ++ (found.slug.map Filter.slug).toList
  if named.isEmpty then (found.other.map fun (name, v) => Filter.field name v).toList else named

/-- Splits the tokens of a `WHERE` clause into its conditions and what follows the clause. -/
def splitConditions (depth : Nat) : List Token → List (List Token) × List Token
  | [] => ([[]], [])
  | t :: rest =>
    if depth = 0 ∧ t.isKeyword "AND" then
      let (conditions, left) := splitConditions 0 rest
      ([] :: conditions, left)
    else if depth = 0 ∧ t.isOneOf conditionStops then ([[]], t :: rest)
    else
      let (conditions, left) := splitConditions (depthAfter depth t) rest
      match conditions with
      | first :: others => ((t :: first) :: others, left)
      | [] => ([[t]], left)

/-- What conditions filter, the first of them taking its parameters from the index `bound` on. -/
def findFilters (params : List Json) (bound : Nat) (conditions : List (List Token)) : Found :=
  conditions.foldl (Found.add params) ⟨false, none, none, none, bound⟩

/-- The order that the tokens of an ordering after its qualifier ask for. -/
def orderOf? : List Token → Option RowOrder
  | [field] => if field.isKeyword "sort_order" then some .sortOrder else none
  | [field, direction] =>
    if field.isKeyword "created_at" ∧ direction.isKeyword "DESC" then some .newestFirst
    else if field.isKeyword "sort_order" ∧ direction.isKeyword "ASC" then some .sortOrder
    else none
  | _ => none

/-- The order that the tokens of an ordering ask for, if it is a known one. -/
def order? : List Token → Option RowOrder
  | .word _ _ :: .period :: rest => orderOf? rest
  | term => orderOf? term

/-- The count that a value stands for: a number that is not negative, its fraction cut off, or a
text that writes one. -/
def countOf? : Json → Option Nat
  | .number (.integer i _) => if 0 ≤ i then some i.toNat else none
  | .number (.double x _) =>
    if x.negative ∧ ¬ x.isZero then none
    else some (min (Binary64.truncate x.magnitude) (Text.wordLimit - 1))
  | .text s => Text.natural? (Text.trim s.toList)
  | _ => none

end ContentStore.Sql
