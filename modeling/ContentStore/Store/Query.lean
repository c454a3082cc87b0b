import ContentStore.Directory
import ContentStore.Text.Lowercase
/-!
# Reading the records of a table

The records of a table are those of its entries that are objects, in their order.  Everything read
from a table is a function of the directory.
-/

namespace ContentStore

/-- An entry as a record, if it is an object. -/
def recordOf? : Json → Option Record
  | .object members => some members
  | _ => none

/-- An entry has an identifier with the given scalar text. -/
def hasId (id : String) (entry : Json) : Bool :=
  match entry.member? Record.idKey with
  | some v => v.looseEq (.text id)
  | none => false

namespace Directory

/-- The records of a table. -/
def records (t : Table) (d : Directory) : List Record := (d.tableEntries t).filterMap recordOf?

/-- How many records a table has. -/
def count (t : Table) (d : Directory) : Nat := (d.records t).length

/-- The first record with an identifier. -/
def recordById? (t : Table) (id : String) (d : Directory) : Option Record :=
  (d.records t).find? fun r => r.matchesField Record.idKey (.text id)

/-- The records that pass a test. -/
def recordsWhere (t : Table) (test : Record → Bool) (d : Directory) : List Record :=
  (d.records t).filter test

/-- A record shows a text in lower case in one of its fields, letter case aside. -/
def shows (needle : List Char) (fields : List String) (record : Record) : Bool :=
  fields.any fun field =>
    match (Json.Members.get? field record).bind Json.searchText? with
    | some text => Text.holds needle (Text.lower text.toList)
    | none => false

/-- The records that show a term in one of their fields, letter case aside. -/
def search (t : Table) (term : String) (fields : List String) (d : Directory) : List Record :=
  d.recordsWhere t (shows (Text.lower term.toList) fields)

/-- The records of a table as their reader sees them; a record of another shape is an error. -/
def recordsAs {α : Type} (t : Table) (reader : Record → Option α) (d : Directory) :
    Except StoreError (List α) :=
  (d.records t).mapM fun r => (reader r).elim (.error .json) .ok

/-- The record with an identifier as its reader sees it. -/
def recordByIdAs {α : Type} (t : Table) (id : String) (reader : Record → Option α)
    (d : Directory) : Except StoreError (Option α) :=
  match d.recordById? t id with
  | some r => (reader r).elim (.error .json) fun a => .ok (some a)
  | none => .ok none

end Directory

/-! ## Pages -/

/-- One page of records. -/
structure Page where
  items : List Record
  total : Nat
  page : Nat
  limit : Nat
  totalPages : Nat

/-- The greatest count that 64 bits hold. -/
def maxCount : Nat := Text.wordLimit - 1

/-- A page of records; the first page has the number one, and page zero is the first one too. -/
def paginate (records : List Record) (page limit : Nat) : Page :=
  let page := max page 1
  let total := records.length
  if limit = 0 then ⟨[], total, page, limit, 0⟩
  else
    ⟨(records.drop (min ((page - 1) * limit) maxCount)).take limit, total, page, limit,
      (total + limit - 1) / limit⟩

/-- Records as a JSON array. -/
def recordsToJson (records : List Record) : Json := .array (records.map .object)

/-- A page as a JSON object. -/
def Page.toJson (p : Page) : Json :=
  .object (Json.Members.ofPairs
    [("items", recordsToJson p.items), ("total", .ofNat p.total), ("page", .ofNat p.page),
     ("limit", .ofNat p.limit), ("totalPages", .ofNat p.totalPages)])

end ContentStore
