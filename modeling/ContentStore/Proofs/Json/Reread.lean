import ContentStore.Proofs.Json.Members
import ContentStore.Proofs.Json.Number
/-!
# What becomes of a value that is written and read again

Only the doubles of a value can change when it is written and read again, or keep it from being
read at all (`reread?`).  Its nesting, its keys and their order, its texts and its integers stay
(`depth_reread`, `ordered_reread`, `get?_reread`).  A value with all its numbers read as they are is
*settled*, and these values are the ones that come back unchanged (`settled_iff`).
-/

namespace ContentStore.Json

mutual

/-- The value with every number as it is read from its text; none if one of them cannot be read. -/
def reread? : Json → Option Json
  | .number n => n.reread?.map .number
  | .array items => (rereadItems? items).map .array
  | .object members => (rereadMembers? members).map .object
  | .null => some .null
  | .bool b => some (.bool b)
  | .text s => some (.text s)

/-- The items as they are read. -/
def rereadItems? : List Json → Option (List Json)
  | [] => some []
  | item :: rest => do return (← reread? item) :: (← rereadItems? rest)

/-- The members with their values as they are read. -/
def rereadMembers? : List (String × Json) → Option (List (String × Json))
  | [] => some []
  | (key, value) :: rest => do return (key, ← reread? value) :: (← rereadMembers? rest)

end

mutual

/-- Every number of the value is read from its text as it is. -/
def isSettled : Json → Bool
  | .number n => n.reread? = some n
  | .array items => itemsSettled items
  | .object members => membersSettled members
  | _ => true

/-- Every item is settled. -/
def itemsSettled : List Json → Bool
  | [] => true
  | item :: rest => isSettled item && itemsSettled rest

/-- Every member's value is settled. -/
def membersSettled : List (String × Json) → Bool
  | [] => true
  | (_, value) :: rest => isSettled value && membersSettled rest

end

/-- Every number of the value is read from its text as it is. -/
def Settled (v : Json) : Prop := isSettled v = true

instance (v : Json) : Decidable (Settled v) := inferInstanceAs (Decidable (isSettled v = true))

/-! ## Piece by piece -/

/-- One value is the other one as it is read from its text. -/
def Rereads (v v' : Json) : Prop := reread? v = some v'

/-- One member is the other one with its value as it is read. -/
def RereadsMember (m m' : String × Json) : Prop := m'.1 = m.1 ∧ Rereads m.2 m'.2

theorem rereadItems?_eq_some_iff {items items' : List Json} :
    rereadItems? items = some items' ↔ List.Forall₂ Rereads items items' := by
  induction items generalizing items' with
  | nil =>
    rw [rereadItems?, List.forall₂_nil_left_iff, Option.some.injEq, eq_comm]
  | cons item rest ih =>
    rw [rereadItems?]
    constructor
    · intro read
      obtain ⟨v, first, read⟩ := Option.bind_eq_some_iff.mp read
      obtain ⟨vs, others, read⟩ := Option.bind_eq_some_iff.mp read
      cases read
      exact .cons first (ih.mp others)
    · intro read
      cases read with
      | cons first others =>
        rw [ih.mpr others, show reread? item = _ from first]
        rfl

theorem rereadMembers?_eq_some_iff {members members' : List (String × Json)} :
    rereadMembers? members = some members' ↔ List.Forall₂ RereadsMember members members' := by
  induction members generalizing members' with
  | nil =>
    rw [rereadMembers?, List.forall₂_nil_left_iff, Option.some.injEq, eq_comm]
  | cons m rest ih =>
    obtain ⟨key, value⟩ := m
    rw [rereadMembers?]
    constructor
    · intro read
      obtain ⟨v, first, read⟩ := Option.bind_eq_some_iff.mp read
      obtain ⟨vs, others, read⟩ := Option.bind_eq_some_iff.mp read
      cases read
      exact .cons ⟨rfl, first⟩ (ih.mp others)
    · intro read
      cases read with
      | @cons _ m' _ rest' first others =>
        obtain ⟨key', value'⟩ := m'
        obtain ⟨rfl, first⟩ := first
        rw [ih.mpr others, show reread? value = _ from first]
        rfl

/-- An object is read as an object. -/
theorem rereads_of_object {members : Members} {v' : Json} (read : Rereads (.object members) v') :
    ∃ members', v' = .object members' ∧ List.Forall₂ RereadsMember members members' := by
  obtain ⟨ms, reads, rfl⟩ := Option.map_eq_some_iff.mp read
  exact ⟨ms, rfl, rereadMembers?_eq_some_iff.mp reads⟩

/-- Only a text is read as a text. -/
theorem rereads_text_iff {v : Json} {s : String} : Rereads v (.text s) ↔ v = .text s := by
  constructor
  · intro read
    cases v with
    | text => exact Option.some.inj read
    | null | bool => cases read
    | number | array | object =>
      obtain ⟨_, -, same⟩ := Option.map_eq_some_iff.mp read
      cases same
  · rintro rfl
    rfl

/-! ## What stays -/

mutual

/-- The nesting of a value stays. -/
theorem depth_reread : ∀ {v v' : Json}, reread? v = some v' → depth v' = depth v
  | .null, _, read => by cases read; rfl
  | .bool _, _, read => by cases read; rfl
  | .text _, _, read => by cases read; rfl
  | .number _, _, read => by
    obtain ⟨n, -, rfl⟩ := Option.map_eq_some_iff.mp read
    rfl
  | .array items, _, read => by
    obtain ⟨items', reads, rfl⟩ := Option.map_eq_some_iff.mp read
    exact congrArg (· + 1) (depthOfItems_reread reads)
  | .object members, _, read => by
    obtain ⟨members', reads, rfl⟩ := Option.map_eq_some_iff.mp read
    exact congrArg (· + 1) (depthOfMembers_reread reads)

theorem depthOfItems_reread : ∀ {items items' : List Json},
    rereadItems? items = some items' → depthOfItems items' = depthOfItems items
  | [], _, read => by cases read; rfl
  | item :: rest, _, read => by
    obtain ⟨v, first, read⟩ := Option.bind_eq_some_iff.mp read
    obtain ⟨vs, others, read⟩ := Option.bind_eq_some_iff.mp read
    cases read
    exact congrArg₂ max (depth_reread first) (depthOfItems_reread others)

theorem depthOfMembers_reread : ∀ {members members' : List (String × Json)},
    rereadMembers? members = some members' → depthOfMembers members' = depthOfMembers members
  | [], _, read => by cases read; rfl
  | (key, value) :: rest, _, read => by
    obtain ⟨v, first, read⟩ := Option.bind_eq_some_iff.mp read
    obtain ⟨vs, others, read⟩ := Option.bind_eq_some_iff.mp read
    cases read
    exact congrArg₂ max (depth_reread first) (depthOfMembers_reread others)

end

theorem map_fst_reread {members members' : Members}
    (read : List.Forall₂ RereadsMember members members') :
    members'.map Prod.fst = members.map Prod.fst := by
  induction read with
  | nil => rfl
  | cons first _ ih => rw [List.map_cons, List.map_cons, first.1, ih]

theorem keysAscend_iff_keys {members : Members} :
    KeysAscend members ↔ (members.map Prod.fst).Pairwise (· < ·) :=
  List.pairwise_map.symm

mutual

/-- The keys of every object still ascend. -/
theorem ordered_reread : ∀ {v v' : Json}, reread? v = some v' → Ordered v → Ordered v'
  | .null, _, read, ordered => by cases read; exact ordered
  | .bool _, _, read, ordered => by cases read; exact ordered
  | .text _, _, read, ordered => by cases read; exact ordered
  | .number _, _, read, _ => by
    obtain ⟨n, -, rfl⟩ := Option.map_eq_some_iff.mp read
    trivial
  | .array items, _, read, ordered => by
    obtain ⟨items', reads, rfl⟩ := Option.map_eq_some_iff.mp read
    exact orderedItems_reread reads ordered
  | .object members, _, read, ordered => by
    obtain ⟨members', reads, rfl⟩ := Option.map_eq_some_iff.mp read
    obtain ⟨ascend, orderedMembers⟩ := ordered
    refine ⟨?_, orderedMembers_reread reads orderedMembers⟩
    rw [keysAscend_iff_keys, map_fst_reread (rereadMembers?_eq_some_iff.mp reads)]
    exact keysAscend_iff_keys.mp ascend

theorem orderedItems_reread : ∀ {items items' : List Json},
    rereadItems? items = some items' → OrderedItems items → OrderedItems items'
  | [], _, read, _ => by cases read; trivial
  | item :: rest, _, read, ordered => by
    obtain ⟨v, first, read⟩ := Option.bind_eq_some_iff.mp read
    obtain ⟨vs, others, read⟩ := Option.bind_eq_some_iff.mp read
    cases read
    exact ⟨ordered_reread first ordered.1, orderedItems_reread others ordered.2⟩

theorem orderedMembers_reread : ∀ {members members' : List (String × Json)},
    rereadMembers? members = some members' → OrderedMembers members → OrderedMembers members'
  | [], _, read, _ => by cases read; trivial
  | (key, value) :: rest, _, read, ordered => by
    obtain ⟨v, first, read⟩ := Option.bind_eq_some_iff.mp read
    obtain ⟨vs, others, read⟩ := Option.bind_eq_some_iff.mp read
    cases read
    exact ⟨ordered_reread first ordered.1, orderedMembers_reread others ordered.2⟩

end

/-- A member keeps its key, and its value is read. -/
theorem get?_reread {members members' : Members}
    (read : List.Forall₂ RereadsMember members members') (key : String) :
    Members.get? key members' = (Members.get? key members).bind reread? := by
  induction read with
  | nil => rfl
  | @cons m m' rest rest' first _ ih =>
    obtain ⟨k, v⟩ := m
    obtain ⟨k', v'⟩ := m'
    obtain ⟨rfl, first⟩ := first
    rw [Members.get?, Members.get?]
    split
    · exact first.symm
    · exact ih

/-- A member is a text after it has been read exactly if it was this text before. -/
theorem get?_reread_text_iff {members members' : Members}
    (read : List.Forall₂ RereadsMember members members') (key s : String) :
    Members.get? key members' = some (.text s) ↔ Members.get? key members = some (.text s) := by
  rw [get?_reread read]
  constructor
  · intro found
    obtain ⟨v, found, text⟩ := Option.bind_eq_some_iff.mp found
    rw [found, rereads_text_iff.mp text]
  · intro found
    rw [found]
    rfl

/-! ## Settled values -/

mutual

/-- A value comes back unchanged exactly if it is settled. -/
theorem settled_iff : ∀ {v : Json}, Settled v ↔ reread? v = some v
  | .null => iff_of_true rfl rfl
  | .bool _ => iff_of_true rfl rfl
  | .text _ => iff_of_true rfl rfl
  | .number n => by
    rw [Settled, isSettled, decide_eq_true_eq, reread?, Option.map_eq_some_iff]
    exact ⟨fun same => ⟨n, same, rfl⟩, fun ⟨m, same, hm⟩ => same.trans (by cases hm; rfl)⟩
  | .array items => by
    rw [Settled, isSettled, itemsSettled_iff, reread?, Option.map_eq_some_iff]
    exact ⟨fun same => ⟨items, same, rfl⟩, fun ⟨m, same, hm⟩ => same.trans (by cases hm; rfl)⟩
  | .object members => by
    rw [Settled, isSettled, membersSettled_iff, reread?, Option.map_eq_some_iff]
    exact ⟨fun same => ⟨members, same, rfl⟩, fun ⟨m, same, hm⟩ => same.trans (by cases hm; rfl)⟩

theorem itemsSettled_iff : ∀ {items : List Json},
    itemsSettled items = true ↔ rereadItems? items = some items
  | [] => iff_of_true rfl rfl
  | item :: rest => by
    rw [itemsSettled, Bool.and_eq_true, itemsSettled_iff, ← Settled, settled_iff,
      rereadItems?_eq_some_iff, rereadItems?_eq_some_iff, List.forall₂_cons]
    rfl

theorem membersSettled_iff : ∀ {members : List (String × Json)},
    membersSettled members = true ↔ rereadMembers? members = some members
  | [] => iff_of_true rfl rfl
  | (key, value) :: rest => by
    rw [membersSettled, Bool.and_eq_true, membersSettled_iff, ← Settled, settled_iff,
      rereadMembers?_eq_some_iff, rereadMembers?_eq_some_iff, List.forall₂_cons]
    exact and_congr_left fun _ => (and_iff_right rfl).symm

end

/-- A double is read from its text as it is exactly if its text is read as the nearest double. -/
theorem reread?_double_iff {x : Binary64} (finite : x.IsFinite) :
    (Number.double x finite).reread? = some (.double x finite) ↔
      (Number.double x finite).numeral.magnitude = (Number.double x finite).numeral.nearest := by
  rw [reread?_double finite, nearest_numeral finite]
  constructor
  · intro same
    unfold Number.ofBinary64? at same
    split at same
    · exact congrArg Binary64.magnitude (Number.double.inj (Option.some.inj same))
    · cases same
  · intro same
    rw [same]
    exact ofBinary64?_finite finite

/-- An integer is settled. -/
theorem settled_integer {i : Int} (inRange : InWord i) : Settled (.number (.integer i inRange)) :=
  decide_eq_true (reread?_integer inRange)

theorem settled_object_iff {members : Members} :
    Settled (.object members) ↔ ∀ m ∈ members, Settled m.2 := by
  rw [Settled, isSettled]
  induction members with
  | nil => exact iff_of_true rfl fun _ mem => absurd mem List.not_mem_nil
  | cons m rest ih => rw [membersSettled, Bool.and_eq_true, ih, List.forall_mem_cons, Settled]

end ContentStore.Json
