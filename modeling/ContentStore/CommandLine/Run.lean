import ContentStore.CommandLine.Arguments
import ContentStore.Sql.Run
import ContentStore.Store.Opening
import ContentStore.Yaml.Printer
/-!
# Running a command

A command opens the store with the configuration of its directory, does its work and gives a JSON
value, which is written as YAML or JSON.  A failure writes its text to the errors, and the program
ends with the failure still at hand: a new file that goes with it is not removed.
-/

namespace ContentStore.CommandLine

/-- Why a command fails. -/
inductive Failure where
  | store (error : StoreError)
  | noRecord (id table : String)
  | unreadableSnapshot (file : String)
  /-- The snapshot is no JSON text. -/
  | malformedSnapshot
  | snapshotNotArray (file : String)

namespace Failure

/-- The text of a failure; of failures that come from outside only the beginning. -/
def message : Failure → String
  | store error => error.message
  | noRecord id table => "No record '" ++ id ++ "' in " ++ table
  | unreadableSnapshot file => "Failed to read snapshot file '" ++ file ++ "': "
  | malformedSnapshot => "Malformed JSON"
  | snapshotNotArray file => "Snapshot file '" ++ file ++ "' is not a JSON array"

end Failure

/-- A task that may fail. -/
abbrev Task := ExceptT Failure (StateM World)

/-- An operation of the store as a task. -/
def ofAction {α : Type} (action : Action α) : Task α := ExceptT.adapt .store action

/-- A result that may be an error of the store, as a task. -/
def ofResult {α : Type} : Except StoreError α → Task α
  | .ok a => return a
  | .error e => throw (.store e)

/-- The value of an argument: what it writes as JSON, or else its text. -/
def looseValue (argument : String) : Json := (Json.read? argument).getD (.text argument)

/-- The record of the fields of an argument. -/
def looseRecord (fields : List (String × String)) : Record :=
  Json.Members.ofPairs (fields.map fun f => (f.1, looseValue f.2))

/-- An object with the given members. -/
def object (pairs : List (String × Json)) : Json := .object (Json.Members.ofPairs pairs)

/-- The entries of a snapshot file. -/
def snapshotOf (file : String) : Option String → Except Failure (List Json)
  | none => .error (.unreadableSnapshot file)
  | some text =>
    match Json.read? text with
    | none => .error .malformedSnapshot
    | some (.array entries) => .ok entries
    | some _ => .error (.snapshotNotArray file)

/-- Does the work of a command; `texts` gives the texts of files. -/
def perform (s : Store) (texts : String → Option String) : Command → Task Json
  | .get name id => do
    let t ← ofResult (Store.tableNamed name)
    match (← get).directory.recordById? t id with
    | some record => return .object record
    | none => throw (.noRecord id name)
  | .list name page limit => do
    let t ← ofResult (Store.tableNamed name)
    return (paginate ((← get).directory.records t) page limit).toJson
  | .search name term fields => do
    let t ← ofResult (Store.tableNamed name)
    return recordsToJson ((← get).directory.search t term fields)
  | .insert name fields => do
    let t ← ofResult (Store.tableNamed name)
    return .object (← ofAction (s.create t (looseRecord fields)))
  | .update name id fields => do
    let t ← ofResult (Store.tableNamed name)
    match ← ofAction (s.update t id (looseRecord fields)) with
    | some record => return .object record
    | none => throw (.noRecord id name)
  | .delete name id dryRun => do
    let t ← ofResult (Store.tableNamed name)
    if dryRun then
      let record := ((← get).directory.recordById? t id).elim Json.null .object
      return object
        [("dry_run", .bool true),
         ("would_delete", object [("table", .text t.name), ("id", .text id)]),
         ("record", record)]
    else if ← ofAction (s.delete t id) then
      return object [("ok", .bool true), ("deleted", .text id)]
    else throw (.noRecord id name)
  | .sql statement params => do
    return (← ofAction (Sql.execute s statement (params.map looseValue))).toTuple
  | .backup name => do
    let t ← ofResult (Store.tableNamed name)
    return .array ((← get).directory.tableEntries t)
  | .restore name file => do
    let t ← ofResult (Store.tableNamed name)
    match snapshotOf file (texts file) with
    | .error failure => throw failure
    | .ok entries =>
      ofAction (s.restore t entries)
      return object
        [("ok", .bool true), ("table", .text t.name), ("restored", .ofNat entries.length)]
  | .truncate name => do
    let t ← ofResult (Store.tableNamed name)
    ofAction (s.truncate t)
    return object [("ok", .bool true), ("truncated", .text t.name)]
  | .status => return s.status (← get).directory

/-- A value in an output format. -/
def output : OutputFormat → Json → String
  | .yaml, v => Yaml.write v
  | .json, v => Json.write .indentedLines v ++ "\n"

/-- What a run of the program leaves: its exit code and the texts of its output and its errors. -/
structure Reply where
  code : Nat
  out : String
  err : String
deriving DecidableEq, Repr

namespace Reply

/-- The reply of a failure. -/
def ofFailure (failure : Failure) : Reply := ⟨1, "", "ERROR:" ++ failure.message ++ "\n"⟩

/-- The reply to arguments that give no request. -/
def ofStop : Stop → Reply
  | .misuse => ⟨2, "", helpText⟩
  | .help => ⟨0, helpText, ""⟩
  | .version => ⟨0, versionText, ""⟩

end Reply

/-- The path of the data directory: that of the request, that of the environment, or `data`. -/
def Request.root (r : Request) (environment : Option String) : String :=
  (r.dataDir.or environment).getD "data"

/-- The letters and digits of the names of new files. -/
def nameLetters : List Char :=
  "ABCDEFGHIJKLMNOPQRSTUVWXYZabcdefghijklmnopqrstuvwxyz0123456789".toList

/-- The name of a new file that is to take the place of an old one: six letters and digits by
chance behind a fixed beginning. -/
def temporaryName (entropy : Nat) : String :=
  String.ofList ('.' :: 't' :: 'm' :: 'p' :: Identifier.digits nameLetters 6 entropy)

/-- The first free name that the next draws of chance give, in at most so many tries. -/
def freeName? (w : World) : Nat → Nat → Option String
  | 0, _ => none
  | tries + 1, ahead =>
    let name := temporaryName (w.chance (w.draws + ahead))
    if (w.directory.find? name).isNone then some name else freeName? w tries (ahead + 1)

/-- How often a free name is looked for. -/
def nameTries : Nat := 65536

/-- The world when the program ends with a failure: the new file that goes with it stays. -/
def Failure.ended (w : World) : Failure → World
  | store (.persist bytes) =>
    match freeName? w nameTries 0 with
    | some name => { w with directory := w.directory.set name (.file bytes) }
    | none => w
  | _ => w

/-- Runs a request at a place that has a path. -/
def Request.run (r : Request) (root : String) (place : Place) (texts : String → Option String) :
    StateM World Reply := do
  match Store.openAt root place none with
  | .error e => return .ofFailure (.store e)
  | .ok (s, d) =>
    modify fun w => { w with directory := d }
    match ← perform s texts r.command with
    | .error failure =>
      modify fun w => failure.ended w
      return .ofFailure failure
    | .ok v => return ⟨0, output r.format v, ""⟩

end ContentStore.CommandLine
