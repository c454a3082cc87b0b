import ContentStore.Json.Token
/-!
# Reading a JSON text

The tokens of a text drive a machine that keeps the open arrays and objects on a stack, the
innermost first.  The stack is also the measure of nesting: an array or object that would stand
deeper than the limit is refused.  A repeated key keeps its last value.
-/

namespace ContentStore.Json

/-- The nesting that a JSON text of a file, a parameter or an argument may have. -/
def nestingLimit : Nat := 127

/-- An array or object that waits for one of its values: the items so far, the last one first, or
the members so far and the key of the value to come. -/
inductive Frame where
  | array (items : List Json)
  | object (members : Members) (key : String)

/-- What may come next, with the frames around it. -/
inductive Reading where
  /-- A value must come. -/
  | value (frames : List Frame)
  /-- An array has just begun: a value, or the end of the array. -/
  | firstItem (frames : List Frame)
  /-- An item has been read: a comma, or the end of the array. -/
  | afterItem (items : List Json) (frames : List Frame)
  /-- An object has just begun: a key, or the end of the object. -/
  | firstKey (frames : List Frame)
  /-- A comma has been read in an object: a key must come. -/
  | key (members : Members) (frames : List Frame)
  /-- A key has been read: a colon must come. -/
  | colon (members : Members) (key : String) (frames : List Frame)
  /-- A member has been read: a comma, or the end of the object. -/
  | afterMember (members : Members) (frames : List Frame)
  /-- The whole value has been read: nothing may come. -/
  | done (value : Json)

namespace Reading

/-- Hands a finished value to the innermost frame. -/
def supply (value : Json) : List Frame → Reading
  | [] => .done value
  | .array items :: frames => .afterItem (value :: items) frames
  | .object members k :: frames => .afterMember (Members.set k value members) frames

/-- A value begins: a scalar is finished at once, an array or object opens within the limit. -/
def beginValue (limit : Nat) (frames : List Frame) : Token → Option Reading
  | .null => some (supply .null frames)
  | .bool b => some (supply (.bool b) frames)
  | .number n => some (supply (.number n) frames)
  | .text s => some (supply (.text s) frames)
  | .openArray => if frames.length < limit then some (.firstItem frames) else none
  | .openObject => if frames.length < limit then some (.firstKey frames) else none
  | _ => none

/-- One token moves the reading on, or has no place there. -/
def step (limit : Nat) : Reading → Token → Option Reading
  | .value frames, token => beginValue limit frames token
  | .firstItem frames, .closeArray => some (supply (.array []) frames)
  | .firstItem frames, token => beginValue limit (.array [] :: frames) token
  | .afterItem items frames, .comma => some (.value (.array items :: frames))
  | .afterItem items frames, .closeArray => some (supply (.array items.reverse) frames)
  | .firstKey frames, .closeObject => some (supply (.object []) frames)
  | .firstKey frames, .text k => some (.colon [] k frames)
  | .key members frames, .text k => some (.colon members k frames)
  | .colon members k frames, .colon => some (.value (.object members k :: frames))
  | .afterMember members frames, .comma => some (.key members frames)
  | .afterMember members frames, .closeObject => some (supply (.object members) frames)
  | _, _ => none

/-- The value of a finished reading. -/
def value? : Reading → Option Json
  | .done v => some v
  | _ => none

end Reading

/-- The value of a list of tokens. -/
def ofTokens? (limit : Nat) (tokens : List Token) : Option Json := do
  (← tokens.foldlM (Reading.step limit) (.value [])).value?

/-- The value of a text that nests at most `limit` levels deep. -/
def readWithin (limit : Nat) (text : String) : Option Json :=
  (Token.scan? text.toList).bind (ofTokens? limit)

/-- The value of a JSON text. -/
def read? (text : String) : Option Json := readWithin nestingLimit text

end ContentStore.Json
