import ContentStore.Yaml.Event
/-!
# The fields of a YAML document

A document whose root is a mapping, or is left out, has fields: its keys with their values, in the
order of the text.  Of a value that is a collection only that is told.

An anchor is numbered by how many different names have been anchored before it.  An alias stands for
the last node of the document whose anchor has the number that the alias's name has where the alias
stands.
-/

namespace ContentStore.Yaml

/-- A node as it looks from outside. -/
inductive Leaf where
  | scalar (tag : Option (List Char)) (style : ScalarStyle) (text : List Char)
  | collection
deriving DecidableEq, Repr

/-- A node, or the number of the anchor that it stands for. -/
inductive Link where
  | leaf (leaf : Leaf)
  | alias (number : Nat)
deriving DecidableEq, Repr

/-- The fields so far: the numbers of the anchored names, the nodes of the numbers, how deep the
next event stands, and the keys and values of the root with the last one first. -/
structure Gathering where
  numbers : List (List Char × Nat)
  nodes : List (Nat × Leaf)
  depth : Nat
  links : List Link

namespace Gathering

/-- The state within a root mapping. -/
def start : Gathering := ⟨[], [], 0, []⟩

/-- Numbers the anchor of a node. -/
def anchored (s : Gathering) (leaf : Leaf) : Option (List Char) → Gathering
  | none => s
  | some name =>
    let names := s.numbers.map Prod.fst
    let number := names.eraseDups.length
    { s with numbers := (name, number) :: s.numbers, nodes := (number, leaf) :: s.nodes }

/-- A key or value of the root, or a node further down. -/
def seen (s : Gathering) (link : Link) : Gathering :=
  if s.depth = 0 then { s with links := link :: s.links } else s

/-- A collection begins. -/
def opened (s : Gathering) (anchor : Option (List Char)) : Gathering :=
  let s := (s.anchored .collection anchor).seen (.leaf .collection)
  { s with depth := s.depth + 1 }

/-- An event adds to the fields.  An alias needs an anchor before it. -/
def step (s : Gathering) : Event → Option Gathering
  | .scalar anchor tag style text =>
    let leaf := Leaf.scalar tag style text
    some ((s.anchored leaf anchor).seen (.leaf leaf))
  | .alias name => do
    let (_, number) ← s.numbers.find? fun n => n.1 = name
    some (s.seen (.alias number))
  | .openSequence anchor => some (s.opened anchor)
  | .openMapping anchor => some (s.opened anchor)
  | .close => some { s with depth := s.depth - 1 }

/-- The node that a key or value is or stands for. -/
def resolve? (s : Gathering) : Link → Option Leaf
  | .leaf leaf => some leaf
  | .alias number => (s.nodes.find? fun n => n.1 = number).map Prod.snd

end Gathering

/-- Keys and values in turn, as pairs. -/
def pairs : List Leaf → List (Leaf × Leaf)
  | key :: value :: rest => (key, value) :: pairs rest
  | _ => []

/-- The fields of a document's events. -/
def fieldsOfEvents? : List Event → Option (List (Leaf × Leaf))
  | [] => some []
  | [.scalar _ _ .plain []] => some []
  | .openMapping anchor :: events => do
    let s ← events.foldlM Gathering.step (Gathering.start.anchored .collection anchor)
    some (pairs (← s.links.reverse.mapM s.resolve?))
  | _ => none

/-- The fields of a text. -/
def fields? (text : List Char) : Option (List (Leaf × Leaf)) :=
  (Event.read? text).bind fieldsOfEvents?

end ContentStore.Yaml
