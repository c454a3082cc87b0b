import ContentStore.Config.Reading
import ContentStore.Store.Basic
/-!
# Opening a store

A store is opened at the path of its data directory, which is made if nothing stands there.  Its
configuration is given, or is that of the configuration file in the directory.
-/

namespace ContentStore

/-- What stands at the path of a data directory. -/
inductive Place where
  | nothing
  | file
  | directory (d : Directory)

namespace Place

/-- The directory at a place, which is made if nothing stands there. -/
def directory? : Place → Except StoreError Directory
  | nothing => .ok .empty
  | file => .error .io
  | directory d => .ok d

end Place

namespace Directory

/-- The configuration of a directory: that of its configuration file, or the default one if there is
no such file. -/
def config (d : Directory) : Except StoreError Config :=
  match d.find? Config.fileName with
  | none => .ok .default
  | some .folder => .error .io
  | some (.file bytes) =>
    match String.fromUTF8? bytes with
    | none => .error .io
    | some text => (Config.ofText? text).elim (.error .config) .ok

end Directory

namespace Store

/-- Opens the store at a path, with the given configuration or else with that of its directory. -/
def openAt (root : String) (place : Place) (config : Option Config) :
    Except StoreError (Store × Directory) := do
  let d ← place.directory?
  let config ← config.elim d.config .ok
  return (⟨root, config⟩, d)

end Store

end ContentStore
