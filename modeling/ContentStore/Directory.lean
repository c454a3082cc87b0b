import ContentStore.Error
import ContentStore.Config
/-!
# The data directory

A directory gives names to files and folders, by ascending name.  A file is written in one of two
ways: a new file takes the place of the old one, or the old file is overwritten.  Both fail, and
change nothing, where a folder stands under the name.
-/

namespace ContentStore

/-- What stands under a name. -/
inductive Entry where
  | file (bytes : ByteArray)
  | folder

/-- The files and folders of a directory, by ascending name. -/
structure Directory where
  entries : List (String × Entry)

namespace Directory

/-- A directory without files. -/
def empty : Directory := ⟨[]⟩

/-- What stands under a name. -/
def find? (name : String) (d : Directory) : Option Entry :=
  (d.entries.find? fun e => e.1 = name).map Prod.snd

/-- Puts an entry under a name into a list of entries. -/
def setIn (name : String) (entry : Entry) : List (String × Entry) → List (String × Entry)
  | [] => [(name, entry)]
  | (n, e) :: rest =>
    if n = name then (name, entry) :: rest
    else if name < n then (name, entry) :: (n, e) :: rest
    else (n, e) :: setIn name entry rest

/-- Puts an entry under a name. -/
def set (name : String) (entry : Entry) (d : Directory) : Directory :=
  ⟨setIn name entry d.entries⟩

/-- The names in the directory, in ascending order. -/
def names (d : Directory) : List String := d.entries.map Prod.fst

/-- The text of a file, if there is a file of that name that holds one. -/
def text? (name : String) (d : Directory) : Option String :=
  match d.find? name with
  | some (.file bytes) => String.fromUTF8? bytes
  | _ => none

/-- A new file takes the place of what stands under a name, unless that is a folder. -/
def replace (name : String) (bytes : ByteArray) (d : Directory) : Except StoreError Directory :=
  match d.find? name with
  | some .folder => .error (.persist bytes)
  | _ => .ok (d.set name (.file bytes))

/-- What stands under a name is overwritten, unless it is a folder. -/
def overwrite (name : String) (bytes : ByteArray) (d : Directory) : Except StoreError Directory :=
  match d.find? name with
  | some .folder => .error .io
  | _ => .ok (d.set name (.file bytes))

end Directory

/-! ## The files of the tables -/

/-- The entries that the bytes of a table's file hold.  Bytes that are no text, a text that is no
JSON, and a JSON value that is no array hold none. -/
def entriesOfBytes (bytes : ByteArray) : List Json :=
  match (String.fromUTF8? bytes).bind Json.read? with
  | some (.array items) => items
  | _ => []

/-- The bytes of a table's file that holds entries. -/
def bytesOfEntries (layout : Json.Layout) (items : List Json) : ByteArray :=
  (Json.write layout (.array items)).toUTF8

namespace Directory

/-- The entries of a table; a table without a file has none. -/
def tableEntries (t : Table) (d : Directory) : List Json :=
  match d.find? t.fileName with
  | some (.file bytes) => entriesOfBytes bytes
  | _ => []

/-- The directory with a table's file written anew. -/
def writeTable (config : Config) (t : Table) (items : List Json) (d : Directory) :
    Except StoreError Directory :=
  let bytes := bytesOfEntries config.layout items
  if config.atomicWrites then d.replace t.fileName bytes else d.overwrite t.fileName bytes

end Directory

end ContentStore
