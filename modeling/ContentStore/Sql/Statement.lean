import ContentStore.Record
import ContentStore.Table
/-!
# Statements

The four statements, with their parameters already in place.  A selection has filters that must all
pass, an order or none, and a window of rows; an insertion or a change assigns values or the present
time to fields; a change or a deletion names its record by the identifier.
-/

namespace ContentStore.Sql

/-- A condition on a record. -/
inductive Filter where
  /-- The field `is_active` is true. -/
  | isActive
  /-- The identifier matches a value. -/
  | id (value : Json)
  /-- The field `slug` matches a value. -/
  | slug (value : Json)
  /-- A field matches a value. -/
  | field (name : String) (value : Json)

/-- An order of rows. -/
inductive RowOrder where
  /-- By the stamp of creation, the latest first. -/
  | newestFirst
  /-- By the number of the field `sort_order`, the least first. -/
  | sortOrder
deriving DecidableEq, Repr

/-- A selection of records. -/
structure Select where
  table : Table
  filters : List Filter
  order : Option RowOrder
  limit : Option Nat
  offset : Option Nat

/-- All records of a table. -/
def Select.all (table : Table) : Select := ⟨table, [], none, none, none⟩

/-- What a field is set to. -/
inductive Assigned where
  | value (v : Json)
  /-- The present time when the statement runs. -/
  | now

/-- A field and what it is set to. -/
structure Assignment where
  field : String
  assigned : Assigned

/-- A statement. -/
inductive Statement where
  | select (selection : Select)
  | insert (table : Table) (values : List Assignment)
  | update (table : Table) (id : Json) (changes : List Assignment)
  | delete (table : Table) (id : Json)

/-- The table that a statement names. -/
def Statement.table : Statement → Table
  | .select selection => selection.table
  | .insert table _ => table
  | .update table _ _ => table
  | .delete table _ => table

/-- The fields that the parameters of an insertion without columns fill, in their order. -/
def columnlessFields : List String := ["title", "slug", "content", "is_active"]

/-- A field test of a filter on a record. -/
def Filter.passes : Filter → Record → Bool
  | .isActive, record => record.isTruthyAt "is_active"
  | .id v, record => record.matchesField Record.idKey v
  | .slug v, record => record.matchesField "slug" v
  | .field name v, record => record.matchesField name v

end ContentStore.Sql
