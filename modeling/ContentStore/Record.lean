import ContentStore.Binary64.Reading
import ContentStore.Json.Printer
/-!
# Records and the looks of a value

A record is the members of an object.  The store owns three of its keys; all others belong to the
caller.  A value has several looks: its scalar text, the text that a search sees, its truth and its
number.  Two values match loosely if they are equal, if one is a truth value and the other its
number 0 or 1, or if both have the same scalar text.
-/

namespace ContentStore

/-- A record: the members of an object, by ascending key. -/
abbrev Record := Json.Members

namespace Record

/-- The key of a record's identifier. -/
def idKey : String := "id"

/-- The key of the stamp of a record's creation. -/
def createdKey : String := "created_at"

/-- The key of the stamp of a record's last change. -/
def updatedKey : String := "updated_at"

/-- The keys that the store owns. -/
def isReserved (key : String) : Bool := key == idKey || key == createdKey || key == updatedKey

/-- The value of a key, if it is a text. -/
def text? (key : String) (record : Record) : Option String :=
  match Json.Members.get? key record with
  | some (.text s) => some s
  | _ => none

/-- The identifier, if it is a text. -/
def id? (record : Record) : Option String := text? idKey record

end Record

namespace Json

/-- The text of a scalar; null, arrays and objects have none. -/
def scalarText? : Json → Option String
  | .text s => some s
  | .number n => some (String.ofList (numberText n))
  | .bool b => some (String.ofList (boolText b))
  | _ => none

/-- The text that a search sees: of an array or object its text on one line, of null none. -/
def searchText? : Json → Option String
  | .null => none
  | .array items => some (toText (.array items))
  | .object members => some (toText (.object members))
  | v => scalarText? v

/-- Both values have a scalar text, and it is the same. -/
def sameScalarText (a b : Json) : Bool :=
  match scalarText? a, scalarText? b with
  | some x, some y => x == y
  | _, _ => false

/-- The number stands for the truth value: one for true, zero for false. -/
def isNumberOf (flag : Bool) (n : Number) : Bool :=
  n.toBinary64.sameValue (if flag then Binary64.one else Binary64.zero)

/-- Loose equality of two values. -/
def looseEq (a b : Json) : Bool :=
  sameValue a b ||
    match a, b with
    | .bool flag, .number n => isNumberOf flag n
    | .number n, .bool flag => isNumberOf flag n
    | _, _ => sameScalarText a b

/-- The truth of a value: false, zero, the empty text and null are not true. -/
def isTruthy : Json → Bool
  | .null => false
  | .bool b => b
  | .number n => !n.toBinary64.isZero
  | .text s => s ≠ ""
  | .array _ => true
  | .object _ => true

/-- The number of a value, or of no value: of a text the number that it denotes, of true one, and
of everything that has no number zero. -/
def numeric : Option Json → Binary64
  | some (.number n) => n.toBinary64
  | some (.text s) => (Binary64.ofText? (Text.trim s.toList)).getD Binary64.zero
  | some (.bool true) => Binary64.one
  | _ => Binary64.zero

end Json

namespace Record

/-- The record has the key, and its value matches loosely. -/
def matchesField (key : String) (value : Json) (record : Record) : Bool :=
  match Json.Members.get? key record with
  | some actual => actual.looseEq value
  | none => false

/-- The record has the key, and its value is true. -/
def isTruthyAt (key : String) (record : Record) : Bool :=
  match Json.Members.get? key record with
  | some actual => actual.isTruthy
  | none => false

end Record

end ContentStore
