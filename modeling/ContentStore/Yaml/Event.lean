import ContentStore.Yaml.Token
/-!
# Events of a YAML document

The tokens of a text drive a machine that keeps on a stack what is to come, the next thing first.
It tells the nodes of the document in the order of the text: scalars, aliases, and the starts and
ends of collections.  A text has one document at most.
-/

namespace ContentStore.Yaml

/-- What happens as a document is read. -/
inductive Event where
  | scalar (anchor tag : Option (List Char)) (style : ScalarStyle) (text : List Char)
  | alias (name : List Char)
  | openSequence (anchor : Option (List Char))
  | openMapping (anchor : Option (List Char))
  | close
deriving DecidableEq, Repr

/-- The surroundings of a node: among block collections; there too, where the items of a sequence
may stand as deep as the key before them; or between brackets. -/
inductive Surroundings where
  | block
  | afterKey
  | flow
deriving DecidableEq, Repr

/-- A place where a node may stand or be left out. -/
inductive Slot where
  | root
  | item
  | flatItem
  | blockKeyOrValue
  | flowKey
  | flowValue
  | pairValue
deriving DecidableEq, Repr

namespace Slot

/-- The surroundings of a slot. -/
def surroundings : Slot → Surroundings
  | root => .block
  | item => .block
  | flatItem => .block
  | blockKeyOrValue => .afterKey
  | flowKey => .flow
  | flowValue => .flow
  | pairValue => .flow

/-- The node is left out if this token comes next. -/
def isEmptyBefore : Slot → Token → Bool
  | root, token =>
    match token with
    | .version _ _ | .handle _ _ | .documentStart | .documentEnd | .textEnd => true
    | _ => false
  | item, token => token = .entry || token = .closeBlock
  | flatItem, token => [.entry, .key, .value, .closeBlock].contains token
  | blockKeyOrValue, token => [.key, .value, .closeBlock].contains token
  | flowKey, token => [.value, .comma, .closeMapping].contains token
  | flowValue, token => [.comma, .closeMapping].contains token
  | pairValue, token => [.comma, .closeSequence].contains token

end Slot

/-- What is to come. -/
inductive Expected where
  /-- Directives and the start of a document, or its root node at once. -/
  | document
  | documentStart
  | documentEnd
  | textEnd
  /-- A node or nothing. -/
  | slot (slot : Slot)
  /-- The content of a node whose anchor or tag has been read. -/
  | content (surroundings : Surroundings) (anchor tag : Option (List Char))
  /-- The items of a block sequence. -/
  | items
  /-- The items of a sequence that stands as deep as the key before it. -/
  | flatItems
  /-- The keys of a block mapping. -/
  | keys
  /-- The value of a block mapping's key. -/
  | value
  /-- An item between square brackets, or the end. -/
  | flowItem
  /-- A comma between square brackets, or the end. -/
  | flowItems
  /-- The key of a mapping of one pair between square brackets. -/
  | pairKey
  | pairValue
  | pairEnd
  /-- A key between braces, or the end. -/
  | flowKey
  /-- A comma between braces, or the end. -/
  | flowKeys
  | flowValue
  /-- A key between braces has no value. -/
  | noValue
deriving DecidableEq, Repr

/-- A node that is left out. -/
def Event.absent : Event := .scalar none none .plain []

/-- The handles of tags that every document has. -/
def standardHandles : List (List Char × List Char) :=
  [(['!'], ['!']), (['!', '!'], "tag:yaml.org,2002:".toList)]

/-- The tag that a handle and the rest of a tag stand for. -/
def resolveTag? (handles : List (List Char × List Char)) (handle suffix : List Char) :
    Option (List Char) :=
  if handle.isEmpty then some suffix
  else (handles.find? fun h => h.1 = handle).map fun h => h.2 ++ suffix

namespace Expected

/-- What happens, and what is to come then. -/
abbrev Move := List Event × List Expected

/-- A node begins with a token, or its anchor or tag does. -/
def beginNode? (handles : List (List Char × List Char)) (surroundings : Surroundings)
    (anchor tag : Option (List Char)) (token : Token) (rest : List Expected) : Option Move :=
  match token with
  | .alias name => if anchor = none ∧ tag = none then some ([.alias name], rest) else none
  | .anchor name =>
    if anchor = none then some ([], .content surroundings (some name) tag :: rest) else none
  | .tag handle suffix =>
    if tag = none then do
      let tag ← resolveTag? handles handle suffix
      some ([], .content surroundings anchor (some tag) :: rest)
    else none
  | .scalar style text =>
    some ([.scalar anchor (tag.filter (· ≠ ['!'])) style text], rest)
  | .openSequence => some ([.openSequence anchor], .flowItem :: rest)
  | .openMapping => some ([.openMapping anchor], .flowKey :: rest)
  | .openBlockSequence =>
    if surroundings = .flow then none else some ([.openSequence anchor], .items :: rest)
  | .openBlockMapping =>
    if surroundings = .flow then none else some ([.openMapping anchor], .keys :: rest)
  | .entry =>
    if surroundings = .afterKey then
      some ([.openSequence anchor], .slot .flatItem :: .flatItems :: rest)
    else none
  | _ => none

/-- Something happens without the token. -/
def tell (event : Event) (move : Option Move) : Option Move :=
  move.map fun (events, rest) => (event :: events, rest)

/-- A token moves on what is to come.  What it leaves out is passed over first. -/
def move? (handles : List (List Char × List Char)) : List Expected → Token → Option Move
  | [], _ => none
  | .document :: rest, token =>
    match token with
    | .documentStart => some ([], .slot .root :: .documentEnd :: rest)
    | .textEnd => some ([], [])
    | _ => beginNode? handles .block none none token (.documentEnd :: rest)
  | .documentStart :: rest, token =>
    if token = .documentStart then some ([], .slot .root :: .documentEnd :: rest) else none
  | .documentEnd :: rest, token =>
    if token = .documentEnd then some ([], rest) else move? handles rest token
  | .textEnd :: rest, token =>
    if token = .documentEnd then some ([], .textEnd :: rest)
    else if token = .textEnd then some ([], rest) else none
  | .slot place :: rest, token =>
    if place.isEmptyBefore token then tell .absent (move? handles rest token)
    else beginNode? handles place.surroundings none none token rest
  | .content surroundings anchor tag :: rest, token =>
    match beginNode? handles surroundings anchor tag token rest with
    | some move => some move
    | none => tell (.scalar anchor tag .plain []) (move? handles rest token)
  | .items :: rest, token =>
    if token = .entry then some ([], .slot .item :: .items :: rest)
    else if token = .closeBlock then some ([.close], rest) else none
  | .flatItems :: rest, token =>
    if token = .entry then some ([], .slot .flatItem :: .flatItems :: rest)
    else tell .close (move? handles rest token)
  | .keys :: rest, token =>
    if token = .key then some ([], .slot .blockKeyOrValue :: .value :: .keys :: rest)
    else if token = .closeBlock then some ([.close], rest) else none
  | .value :: rest, token =>
    if token = .value then some ([], .slot .blockKeyOrValue :: rest)
    else tell .absent (move? handles rest token)
  | .flowItem :: rest, token =>
    match token with
    | .closeSequence => some ([.close], rest)
    | .key => some ([.openMapping none], .pairKey :: .pairValue :: .pairEnd :: .flowItems :: rest)
    | _ => beginNode? handles .flow none none token (.flowItems :: rest)
  | .flowItems :: rest, token =>
    if token = .comma then some ([], .flowItem :: rest)
    else if token = .closeSequence then some ([.close], rest) else none
  | .pairKey :: rest, token =>
    if [.value, .comma, .closeSequence].contains token then some ([.absent], rest)
    else beginNode? handles .flow none none token rest
  | .pairValue :: rest, token =>
    if token = .value then some ([], .slot .pairValue :: rest)
    else tell .absent (move? handles rest token)
  | .pairEnd :: rest, token => tell .close (move? handles rest token)
  | .flowKey :: rest, token =>
    match token with
    | .closeMapping => some ([.close], rest)
    | .key => some ([], .slot .flowKey :: .flowValue :: .flowKeys :: rest)
    | _ => beginNode? handles .flow none none token (.noValue :: .flowKeys :: rest)
  | .flowKeys :: rest, token =>
    if token = .comma then some ([], .flowKey :: rest)
    else if token = .closeMapping then some ([.close], rest) else none
  | .flowValue :: rest, token =>
    if token = .value then some ([], .slot .flowValue :: rest)
    else tell .absent (move? handles rest token)
  | .noValue :: rest, token => tell .absent (move? handles rest token)

end Expected

/-- The state of the machine: the handles of the directives, whether a version has been given, what
has happened with the last event first, and what is to come. -/
structure Telling where
  handles : List (List Char × List Char)
  versioned : Bool
  events : List Event
  expected : List Expected

namespace Telling

/-- The state before a text. -/
def start : Telling := ⟨[], false, [], [.document, .textEnd]⟩

/-- A directive may come next. -/
def admitsDirective (s : Telling) : Bool :=
  s.expected.head? == some .document || s.expected.head? == some .documentStart

/-- A token moves the machine. -/
def step (s : Telling) (token : Token) : Option Telling :=
  let next := .documentStart :: s.expected.drop 1
  if s.admitsDirective then
    match token with
    | .version major minor =>
      if !s.versioned && major == 1 && (minor == 1 || minor == 2) then
        some { s with versioned := true, expected := next }
      else none
    | .handle name tag =>
      if s.handles.any fun h => h.1 = name then none
      else some { s with handles := s.handles ++ [(name, tag)], expected := next }
    | _ => advance s token
  else advance s token
where
  /-- A token that is no directive moves the machine. -/
  advance (s : Telling) (token : Token) : Option Telling := do
    let (events, expected) ← Expected.move? (s.handles ++ standardHandles) s.expected token
    some { s with events := events.reverse ++ s.events, expected }

end Telling

/-- The events of a list of tokens. -/
def Event.ofTokens? (tokens : List Token) : Option (List Event) := do
  let s ← tokens.foldlM Telling.step .start
  if s.expected.isEmpty then some s.events.reverse else none

/-- The events of a text. -/
def Event.read? (text : List Char) : Option (List Event) :=
  (Token.scan? text).bind Event.ofTokens?

example : Event.read? "- a: !t &x\n- [b: c]".toList =
    some [.openSequence none, .openMapping none, .scalar none none .plain ['a'],
      .scalar (some ['x']) (some ['!', 't']) .plain [], .close, .openSequence none,
      .openMapping none, .scalar none none .plain ['b'], .scalar none none .plain ['c'],
      .close, .close, .close] := by decide +kernel

end ContentStore.Yaml
