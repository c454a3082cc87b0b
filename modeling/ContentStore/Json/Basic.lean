import ContentStore.Binary64.Decimal
import ContentStore.Text.Digits
/-!
# JSON values

Integers and doubles are two kinds of number: `1` and `1.0` differ.  An integer lies between
`-2^63` and `2^64 - 1`, a double is finite, and an object lists its members by ascending key, each
key once.  The first two facts are part of `Json.Number`; the third is `Json.Ordered`, which every
operation on members keeps.
-/

namespace ContentStore

namespace Json

/-- An integer of 64 bits, with or without a sign. -/
def InWord (i : Int) : Prop := -9223372036854775808 ≤ i ∧ i < 18446744073709551616

instance (i : Int) : Decidable (InWord i) := inferInstanceAs (Decidable (_ ∧ _))

/-- A natural number cut to 64 bits is an integer of 64 bits. -/
theorem inWord_ofNat (n : Nat) : InWord (n % Text.wordLimit : Nat) := by
  simp only [InWord, Text.wordLimit]
  omega

/-- A number of a JSON text. -/
inductive Number where
  | integer (value : Int) (inRange : InWord value)
  | double (value : Binary64) (finite : value.IsFinite)
deriving DecidableEq

namespace Number

/-- An integer where it fits, and the nearest double where it does not; none where that double
is infinite. -/
def ofInt? (i : Int) : Option Number :=
  if h : InWord i then some (.integer i h)
  else if f : (Binary64.ofInt i).IsFinite then some (.double (Binary64.ofInt i) f)
  else none

/-- A finite double as a number. -/
def ofBinary64? (x : Binary64) : Option Number :=
  if f : x.IsFinite then some (.double x f) else none

/-- The nearest double of a number. -/
def toBinary64 : Number → Binary64
  | .integer i _ => Binary64.ofInt i
  | .double x _ => x

/-- Equality of numbers of one kind; the two zeros of the doubles are one number. -/
def sameValue : Number → Number → Bool
  | .integer i _, .integer j _ => i == j
  | .double x _, .double y _ => x.sameValue y
  | _, _ => false

/-- The text of a number: an integer has neither a point nor an exponent, a double has one of
them. -/
def text (sign : Binary64.ExponentSign) : Number → List Char
  | .integer i _ => (if i < 0 then ['-'] else []) ++ Nat.toDigits 10 i.natAbs
  | .double x _ => x.text sign

end Number

end Json

/-- A JSON value. -/
inductive Json where
  | null
  | bool (value : Bool)
  | number (value : Json.Number)
  | text (value : String)
  | array (items : List Json)
  | object (members : List (String × Json))

namespace Json

/-- The members of an object, by ascending key. -/
abbrev Members := List (String × Json)

/-- A natural number of 64 bits; larger ones are cut to that range. -/
def ofNat (n : Nat) : Json :=
  .number (.integer (n % Text.wordLimit : Nat) (inWord_ofNat n))

/-! ## Members of an object -/

namespace Members

/-- The value of a key. -/
def get? (key : String) : Members → Option Json
  | [] => none
  | (k, v) :: rest => if k = key then some v else get? key rest

/-- Gives a key a value: in the place of its old value, or before the first greater key. -/
def set (key : String) (value : Json) : Members → Members
  | [] => [(key, value)]
  | (k, v) :: rest =>
    if k = key then (key, value) :: rest
    else if key < k then (key, value) :: (k, v) :: rest
    else (k, v) :: set key value rest

/-- Gives several keys their values, one after the other. -/
def setAll (members : Members) (pairs : List (String × Json)) : Members :=
  pairs.foldl (fun ms (key, value) => set key value ms) members

/-- The members that pairs of key and value make; the last value of a key counts. -/
def ofPairs (pairs : List (String × Json)) : Members := setAll [] pairs

end Members

/-- The value of a key of an object; nothing else has members. -/
def member? (key : String) : Json → Option Json
  | .object members => Members.get? key members
  | _ => none

/-! ## Nesting, order and equality -/

mutual

/-- How many arrays and objects stand inside one another, this one included. -/
def depth : Json → Nat
  | .array items => depthOfItems items + 1
  | .object members => depthOfMembers members + 1
  | _ => 0

/-- The greatest depth of the items. -/
def depthOfItems : List Json → Nat
  | [] => 0
  | item :: rest => max (depth item) (depthOfItems rest)

/-- The greatest depth of the members' values. -/
def depthOfMembers : List (String × Json) → Nat
  | [] => 0
  | (_, value) :: rest => max (depth value) (depthOfMembers rest)

end

/-- The keys ascend, and no key comes twice. -/
def KeysAscend (members : Members) : Prop := members.Pairwise fun a b => a.1 < b.1

mutual

/-- The keys of every object ascend, at every level. -/
def Ordered : Json → Prop
  | .array items => OrderedItems items
  | .object members => KeysAscend members ∧ OrderedMembers members
  | _ => True

/-- Every item is ordered. -/
def OrderedItems : List Json → Prop
  | [] => True
  | item :: rest => Ordered item ∧ OrderedItems rest

/-- Every member's value is ordered. -/
def OrderedMembers : List (String × Json) → Prop
  | [] => True
  | (_, value) :: rest => Ordered value ∧ OrderedMembers rest

end

mutual

/-- Equality of values, with the two zeros of the doubles as one number at every level. -/
def sameValue : Json → Json → Bool
  | .null, .null => true
  | .bool a, .bool b => a == b
  | .number a, .number b => a.sameValue b
  | .text a, .text b => a == b
  | .array a, .array b => sameItems a b
  | .object a, .object b => sameMembers a b
  | _, _ => false

/-- Equality item by item. -/
def sameItems : List Json → List Json → Bool
  | [], [] => true
  | a :: as, b :: bs => sameValue a b && sameItems as bs
  | _, _ => false

/-- Equality key by key and value by value. -/
def sameMembers : List (String × Json) → List (String × Json) → Bool
  | [], [] => true
  | (j, a) :: as, (k, b) :: bs => j == k && sameValue a b && sameMembers as bs
  | _, _ => false

end

end Json

end ContentStore
