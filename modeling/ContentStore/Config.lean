import ContentStore.Json.Printer
/-!
# Configuration

A store is configured by how it makes identifiers, how it lays out its files, and how it puts a new
file in the place of an old one.
-/

namespace ContentStore

/-- How identifiers are made. -/
inductive IdStrategy where
  /-- A lexically sortable identifier: the time, then chance. -/
  | ulid
  /-- A universally unique identifier of version 4. -/
  | uuid
  /-- A short identifier of letters, digits, `_` and `-`. -/
  | nanoid
deriving DecidableEq, Repr

namespace IdStrategy

/-- The name of a strategy. -/
def name : IdStrategy → String
  | ulid => "ulid"
  | uuid => "uuid"
  | nanoid => "nanoid"

/-- The strategy of a name. -/
def ofName? (name : String) : Option IdStrategy := [ulid, uuid, nanoid].find? fun s => s.name = name

end IdStrategy

/-- The configuration of a store. -/
structure Config where
  idStrategy : IdStrategy
  /-- Files are written over several lines. -/
  pretty : Bool
  /-- A new file is written beside the old one and takes its place in one step. -/
  atomicWrites : Bool
deriving DecidableEq, Repr

namespace Config

/-- The configuration of a store that has no configuration file. -/
def default : Config := ⟨.ulid, true, true⟩

/-- The layout of the files. -/
def layout (config : Config) : Json.Layout := if config.pretty then .indentedLines else .oneLine

/-- The name of the configuration file in the data directory. -/
def fileName : String := "sitestore.yaml"

end Config

end ContentStore
