import ContentStore.Identifier
import ContentStore.Store.Query
/-!
# The store and its operations

An operation meets the world: the data directory, the readings of a clock and the draws of chance,
both taken one after the other.  It gives a result or fails, and leaves the world behind in both
cases.  Every write takes a whole table from its file, changes it and writes the file anew.
-/

namespace ContentStore

/-- What an operation meets: the data directory, the readings of a clock and how many have been
taken, and the draws of chance and how many have been taken. -/
structure World where
  directory : Directory
  clock : Nat → Instant
  readings : Nat
  chance : Nat → Nat
  draws : Nat

/-- An operation that may fail. -/
abbrev Action := ExceptT StoreError (StateM World)

/-- A store: the path of its data directory and its configuration. -/
structure Store where
  root : String
  config : Config

namespace World

/-- Takes a reading of the clock. -/
def now : Action Instant :=
  modifyGet fun w => (w.clock w.readings, { w with readings := w.readings + 1 })

/-- Takes a draw of chance. -/
def draw : Action Nat :=
  modifyGet fun w => (w.chance w.draws, { w with draws := w.draws + 1 })

/-- The data directory. -/
def directory? : Action Directory := do return (← get).directory

end World

namespace Store

/-- The entries of a table. -/
def load (t : Table) : Action (List Json) := do return (← get).directory.tableEntries t

/-- Writes the entries of a table. -/
def save (s : Store) (t : Table) (items : List Json) : Action Unit := do
  let w ← get
  match w.directory.writeTable s.config t items with
  | .ok d => set { w with directory := d }
  | .error e => throw e

/-- The fields that a caller may give. -/
def callerFields (fields : Record) : Record := fields.filter fun (key, _) => !Record.isReserved key

/-- A new record: the caller's fields, an identifier, and both stamps. -/
def newRecord (id stamp : String) (fields : Record) : Record :=
  Json.Members.setAll [(Record.idKey, .text id)]
    (callerFields fields ++ [(Record.createdKey, .text stamp), (Record.updatedKey, .text stamp)])

/-- Makes a new record of the caller's fields with a new identifier and the present time. -/
def stampNew (s : Store) (fields : Record) : Action Record := do
  let now ← World.now
  let id := Identifier.make s.config.idStrategy now (← World.draw)
  return newRecord id now.stamp fields

/-- Adds a record to the end of a table. -/
def create (s : Store) (t : Table) (fields : Record) : Action Record := do
  let items ← load t
  let record ← s.stampNew fields
  s.save t (items ++ [.object record])
  return record

/-- Adds several records to the end of a table with one write. -/
def bulkCreate (s : Store) (t : Table) (list : List Record) : Action (List Record) := do
  let items ← load t
  let created ← list.mapM s.stampNew
  s.save t (items ++ created.map .object)
  return created

/-- Adds a record made from any value, which must be an object. -/
def createFrom (s : Store) (t : Table) : Json → Action Record
  | .object fields => s.create t fields
  | v => throw (.notAnObject t v)

/-- The later of a record's two stamps as texts; a record without stamps has the empty one. -/
def lastStamp (record : Record) : String :=
  let created := (Record.text? Record.createdKey record).getD ""
  let updated := (Record.text? Record.updatedKey record).getD ""
  if created < updated then updated else created

/-- A record with the caller's fields set. -/
def merged (record changes : Record) : Record := Json.Members.setAll record (callerFields changes)

/-- A record with the caller's fields set and the stamp of its change renewed. -/
def changed (now : Instant) (record changes : Record) : Record :=
  let record := merged record changes
  Json.Members.set Record.updatedKey (.text (Instant.stampAfter now (lastStamp record))) record

/-- Changes the first entry with an identifier, if there is one and it is a record. -/
def update (s : Store) (t : Table) (id : String) (changes : Record) : Action (Option Record) := do
  let items ← load t
  match items.findIdx? (hasId id) with
  | none => return none
  | some i =>
    match items[i]? with
    | some (.object record) =>
      let record := changed (← World.now) record changes
      s.save t (items.set i (.object record))
      return some record
    | _ => return none

/-- Removes the first entry with an identifier, and tells whether there was one. -/
def delete (s : Store) (t : Table) (id : String) : Action Bool := do
  let items ← load t
  match items.findIdx? (hasId id) with
  | none => return false
  | some i =>
    s.save t (items.eraseIdx i)
    return true

/-- Removes every entry of a table. -/
def truncate (s : Store) (t : Table) : Action Unit := s.save t []

/-- Puts entries in the place of those of a table. -/
def restore (s : Store) (t : Table) (snapshot : List Json) : Action Unit := s.save t snapshot

/-! ## Names and status -/

/-- The table of a name. -/
def tableNamed (name : String) : Except StoreError Table :=
  match Table.lookup? name with
  | some t => .ok t
  | none => .error (.unknownTable name)

/-- The name is that of a JSON file of no table. -/
def isStray (name : String) : Bool :=
  ".json".toList.isSuffixOf name.toList && !(Table.all.any fun t => t.fileName = name)

/-- What is to be told of a table. -/
def tableStatus (d : Directory) (t : Table) : Json :=
  .object (Json.Members.ofPairs
    [("file", .text t.fileName), ("exists", .bool (d.find? t.fileName).isSome),
     ("count", .ofNat (d.count t))])

/-- What is to be told of a store: its path, its strategy, its tables, and the JSON files in the
directory that belong to no table. -/
def status (s : Store) (d : Directory) : Json :=
  .object (Json.Members.ofPairs
    [("data_dir", .text s.root), ("id_strategy", .text s.config.idStrategy.name),
     ("tables", .object (Json.Members.ofPairs (Table.all.map fun t => (t.name, tableStatus d t)))),
     ("stray_files", .array ((d.names.filter isStray).map .text))])

end Store

end ContentStore
