import ContentStore.Sql.Parse
import ContentStore.Store.Basic
/-!
# Running a statement

A selection gives rows: a window of the records that pass all filters, sorted stably.  The other
statements tell how many records they touched, and an insertion tells the new identifier.
-/

namespace ContentStore.Sql

/-- What a statement gives. -/
inductive Outcome where
  | rows (records : List Record)
  | effect (insertId : Option String) (affectedRows : Nat)

namespace Outcome

/-- How many records a statement touched. -/
def affectedRows : Outcome → Nat
  | rows _ => 0
  | effect _ n => n

/-- The identifier of the record that a statement added. -/
def insertId : Outcome → Option String
  | rows _ => none
  | effect id _ => id

/-- The effect of a statement as a JSON object. -/
def effectJson (insertId : Option String) (affectedRows : Nat) : Json :=
  .object (Json.Members.ofPairs
    ((insertId.map fun id => ("insertId", Json.text id)).toList ++
      [("affectedRows", .ofNat affectedRows)]))

/-- The outcome as a JSON array of one item: the rows or the effect. -/
def toTuple : Outcome → Json
  | rows records => .array [recordsToJson records]
  | effect id n => .array [effectJson id n]

end Outcome

/-! ## Selections -/

/-- The instant of a record's creation, if it has one. -/
def createdAt? (r : Record) : Option Instant := (r.text? Record.createdKey).bind Instant.ofText?

/-- One record may stand before another when the newest come first; one without an instant comes
last. -/
def newestFirstLe (a b : Record) : Bool :=
  match createdAt? a, createdAt? b with
  | some s, some t => !s.before t
  | none, some _ => false
  | _, none => true

/-- The place of a record by its number. -/
def sortRank (r : Record) : Int := (Json.numeric (Json.Members.get? "sort_order" r)).rank

/-- The records in an order; records that the order does not tell apart stay as they are. -/
def sortRows : Option RowOrder → List Record → List Record
  | none, rows => rows
  | some .newestFirst, rows => rows.mergeSort newestFirstLe
  | some .sortOrder, rows => rows.mergeSort fun a b => sortRank a ≤ sortRank b

/-- The rows of a window. -/
def window (offset limit : Option Nat) (rows : List Record) : List Record :=
  let rest := rows.drop (offset.getD 0)
  match limit with
  | some n => rest.take n
  | none => rest

/-- The rows of a selection. -/
def Select.rows (selection : Select) (d : Directory) : List Record :=
  window selection.offset selection.limit
    (sortRows selection.order
      (d.recordsWhere selection.table fun r => selection.filters.all fun f => f.passes r))

/-! ## Statements -/

/-- The value of an assignment, the present time taken from the clock. -/
def resolveOne : Assigned → Action Json
  | .value v => return v
  | .now => do return .text (← World.now).stamp

/-- The fields that assignments make; the last assignment to a field counts. -/
def resolve (assignments : List Assignment) : Action Record := do
  let fields ← assignments.mapM fun a => do return (a.field, ← resolveOne a.assigned)
  return Json.Members.ofPairs fields

/-- The effect of touching a record or none. -/
def touched (hit : Bool) : Outcome := .effect none (if hit then 1 else 0)

/-- Runs a statement.  An identifier without a scalar text names no record. -/
def run (s : Store) : Statement → Action Outcome
  | .select selection => do return .rows (selection.rows (← get).directory)
  | .insert t values => do
    let record ← s.create t (← resolve values)
    return .effect record.id? 1
  | .update t id changes =>
    match id.scalarText? with
    | none => return touched false
    | some id => do return touched (← s.update t id (← resolve changes)).isSome
  | .delete t id =>
    match id.scalarText? with
    | none => return touched false
    | some id => do return touched (← s.delete t id)

/-- Reads a statement and runs it. -/
def execute (s : Store) (text : String) (params : List Json) : Action Outcome := do
  run s (← liftExcept (parse text params))
where
  /-- The result of a computation that may fail. -/
  liftExcept {α : Type} : Except StoreError α → Action α
    | .ok a => return a
    | .error e => throw e

/-- Reads a statement and runs it; one that is unsupported selects nothing. -/
def executeOrEmpty (s : Store) (text : String) (params : List Json) : Action Outcome :=
  tryCatch (execute s text params) fun e => if e.isUnsupported then return .rows [] else throw e

end ContentStore.Sql
