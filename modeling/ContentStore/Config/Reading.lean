import ContentStore.Config
import ContentStore.Yaml.Fields
/-!
# Reading a configuration

A configuration is the mapping of a YAML document.  A field that is left out has its default, a
field of another name does not count, and a field that comes twice is an error.
-/

namespace ContentStore.Config

open Yaml (Leaf)

/-- The tag of a truth value. -/
def boolTag : List Char := "tag:yaml.org,2002:bool".toList

/-- The truth value that a word writes. -/
def boolOfWord? (word : List Char) : Option Bool :=
  if ["true", "True", "TRUE"].contains (String.ofList word) then some true
  else if ["false", "False", "FALSE"].contains (String.ofList word) then some false
  else none

/-- The words for nothing. -/
def isNullWord (word : List Char) : Bool :=
  ["", "~", "null", "Null", "NULL"].contains (String.ofList word)

/-- The truth value of a node: a plain scalar, or a literal one with the tag of a truth value. -/
def bool? : Leaf → Option Bool
  | .scalar _ .plain text => boolOfWord? text
  | .scalar (some tag) .literal text => if tag = boolTag then boolOfWord? text else none
  | _ => none

/-- The strategy of a node: a scalar that is its name, or nothing with its name as a local tag. -/
def strategy? : Leaf → Option IdStrategy
  | .scalar (some ('!' :: name)) style text =>
    if style = .plain && isNullWord text then IdStrategy.ofName? (String.ofList name) else none
  | .scalar _ _ text => IdStrategy.ofName? (String.ofList text)
  | .collection => none

/-- The fields of a configuration so far. -/
structure Draft where
  idStrategy : Option IdStrategy
  pretty : Option Bool
  atomicWrites : Option Bool

namespace Draft

/-- A field that has not come yet gets a value. -/
def fill? {α : Type} (old value : Option α) : Option (Option α) :=
  match old with
  | some _ => none
  | none => value.map some

/-- A field adds to the draft. -/
def add? (d : Draft) : Leaf × Leaf → Option Draft
  | (.scalar _ _ key, value) =>
    match String.ofList key with
    | "id_strategy" =>
      (fill? d.idStrategy (strategy? value)).map fun s => { d with idStrategy := s }
    | "pretty" => (fill? d.pretty (bool? value)).map fun b => { d with pretty := b }
    | "atomic_writes" =>
      (fill? d.atomicWrites (bool? value)).map fun b => { d with atomicWrites := b }
    | _ => some d
  | (.collection, _) => none

/-- The configuration with defaults for what has not come. -/
def finish (d : Draft) : Config :=
  ⟨d.idStrategy.getD default.idStrategy, d.pretty.getD default.pretty,
    d.atomicWrites.getD default.atomicWrites⟩

end Draft

/-- The configuration of a text; a text of blanks is that of the defaults. -/
def ofText? (text : String) : Option Config :=
  if text.toList.all Text.isBlank then some default
  else do
    let fields ← Yaml.fields? text.toList
    some (← fields.foldlM Draft.add? ⟨none, none, none⟩).finish

end ContentStore.Config
