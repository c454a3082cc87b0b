import ContentStore.Proofs.Sql.Conditions
import Mathlib.Data.List.Basic
/-!
# The meaning of the conditions of a `WHERE` clause

What conditions filter by, said without the order in which they are read (`Meaning`): each condition
comes with its parameter (`valued`), some may ask for active records, and of those that compare a
field of a kind with a parameter the first counts (`FirstSlot`).  The conditions are read one after
another into what has been found so far, and this fold keeps for each kind the first such comparison
(`foldl_add`).  So the filters found are those that the conditions mean (`findFilters_meaning`), and
no other list of filters is meant (`Meaning.unique`).
-/

namespace ContentStore.Sql

open Token (placeholders)

/-! ## Conditions with their parameters -/

/-- Each condition with the parameter in its place: that of the number of placeholders in the
conditions before it, counted from an index on. -/
def valued (params : List Json) (k : Nat) (conditions : List (List Token)) :
    List (List Token × Json) :=
  conditions.mapIdx fun i condition =>
    (condition, parameter params (k + placeholders (conditions.take i).flatten))

theorem valued_cons (params : List Json) (k : Nat) (condition : List Token)
    (others : List (List Token)) :
    valued params k (condition :: others) =
      (condition, parameter params k) ::
        valued params (k + placeholders condition) others := by
  rw [valued, List.mapIdx_cons, valued]
  refine congrArg (_ :: ·) ?_
  simp only [List.take_succ_cons, List.flatten_cons, placeholders_append, Nat.add_assoc]

/-- A condition asks for active records: by a parameter that is true, or by one of two literals. -/
inductive AsksActive (condition : List Token) (value : Json) : Prop
  | parameter {field : String} (isActive : Text.sameLetters field "is_active" = true)
    (compares : ComparesSlot field condition) (truthy : value.isTruthy = true)
  | one {field : String} {operand : List Token}
    (isActive : Text.sameLetters field "is_active" = true)
    (compares : Compares field operand condition)
    (literal : Literal operand (.number (.integer 1 (by decide))))
  | true {field : String} {operand : List Token}
    (isActive : Text.sameLetters field "is_active" = true)
    (compares : Compares field operand condition) (literal : Literal operand (.bool true))

/-- Of the conditions that compare a field of a kind with a parameter this is the first: its field
and its parameter. -/
def FirstSlot (kind : String → Bool) (conditions : List (List Token × Json)) (field : String)
    (value : Json) : Prop :=
  ∃ front condition back, conditions = front ++ (condition, value) :: back ∧
    kind field = true ∧ ComparesSlot field condition ∧
    ∀ earlier ∈ front, ∀ other, ComparesSlot other earlier.1 → kind other = false

/-- A field whose comparison has a filter of its own. -/
def isOwnField (field : String) : Bool :=
  Text.sameLetters field "id" || Text.sameLetters field "slug"

/-- Some condition asks for active records, or compares the identifier or the slug with a
parameter. -/
def SomeNamed (conditions : List (List Token × Json)) : Prop :=
  ∃ c ∈ conditions, AsksActive c.1 c.2 ∨
    ∃ field, isOwnField field = true ∧ ComparesSlot field c.1

/-- The place of a filter among others. -/
def Filter.rank : Filter → Nat
  | isActive => 0
  | id _ => 1
  | slug _ => 2
  | field _ _ => 3

/-- What conditions with their parameters filter by. -/
structure Meaning (conditions : List (List Token × Json)) (filters : List Filter) : Prop where
  inOrder : filters.Pairwise fun f g => f.rank < g.rank
  isActive : .isActive ∈ filters ↔ ∃ c ∈ conditions, AsksActive c.1 c.2
  id : ∀ v, .id v ∈ filters ↔ ∃ field, FirstSlot (Text.sameLetters · "id") conditions field v
  slug : ∀ v, .slug v ∈ filters ↔ ∃ field, FirstSlot (Text.sameLetters · "slug") conditions field v
  field : ∀ name v, .field name v ∈ filters ↔
    ¬SomeNamed conditions ∧ FirstSlot (fun _ => true) conditions name v

/-- Conditions mean one list of filters. -/
theorem Meaning.unique {conditions : List (List Token × Json)} {filters others : List Filter}
    (means : Meaning conditions filters) (also : Meaning conditions others) :
    filters = others := by
  have nodup : ∀ {list : List Filter}, list.Pairwise (fun f g => f.rank < g.rank) → list.Nodup :=
    fun inOrder => inOrder.imp fun less same => absurd (congrArg Filter.rank same) (by omega)
  have members : ∀ f, f ∈ filters ↔ f ∈ others := by
    intro f
    cases f with
    | isActive => exact means.isActive.trans also.isActive.symm
    | id v => exact (means.id v).trans (also.id v).symm
    | slug v => exact (means.slug v).trans (also.slug v).symm
    | field name v => exact (means.field name v).trans (also.field name v).symm
  have perm := (List.perm_ext_iff_of_nodup (nodup means.inOrder) (nodup also.inOrder)).mpr members
  refine perm.eq_of_pairwise (fun f g _ _ less greater => ?_) means.inOrder also.inOrder
  omega

/-! ## What one condition adds -/

/-- A condition with its parameter asks for active records. -/
def asksActive (c : List Token × Json) : Bool :=
  match comparison? c.1 with
  | some (field, .parameter) => Text.sameLetters field "is_active" && c.2.isTruthy
  | some (field, .literal v) => Text.sameLetters field "is_active" && isActiveLiteral v
  | _ => false

/-- The field and the parameter that a condition compares, if they are of a kind. -/
def slotOf? (kind : String → Json → Bool) (c : List Token × Json) : Option (String × Json) :=
  match comparison? c.1 with
  | some (field, .parameter) => if kind field c.2 then some (field, c.2) else none
  | _ => none

theorem isActiveLiteral_iff {v : Json} :
    isActiveLiteral v = true ↔ v = .number (.integer 1 (by decide)) ∨ v = .bool true := by
  cases v with
  | bool b => simp [isActiveLiteral]
  | number n => cases n <;> simp [isActiveLiteral, Json.Number.sameValue]
  | _ => simp [isActiveLiteral]

theorem asksActive_iff {c : List Token × Json} : asksActive c = true ↔ AsksActive c.1 c.2 := by
  constructor
  · intro asks
    unfold asksActive at asks
    split at asks
    · next field compares =>
      obtain ⟨isActive, truthy⟩ := Bool.and_eq_true_iff.mp asks
      exact .parameter isActive (comparison?_parameter_iff.mp compares) truthy
    · next field v compares =>
      obtain ⟨isActive, known⟩ := Bool.and_eq_true_iff.mp asks
      obtain ⟨operand, written, literal⟩ := comparison?_literal_iff.mp compares
      rcases isActiveLiteral_iff.mp known with rfl | rfl
      · exact .one isActive written literal
      · exact .true isActive written literal
    · cases asks
  · intro asks
    rw [asksActive]
    cases asks with
    | parameter isActive compares truthy =>
      rw [comparison?_parameter_iff.mpr compares]
      exact Bool.and_eq_true_iff.mpr ⟨isActive, truthy⟩
    | one isActive compares literal | true isActive compares literal =>
      rw [comparison?_literal_iff.mpr ⟨_, compares, literal⟩]
      exact Bool.and_eq_true_iff.mpr ⟨isActive, rfl⟩

theorem slotOf?_eq_some_iff {kind : String → Json → Bool} {c : List Token × Json} {field : String}
    {v : Json} :
    slotOf? kind c = some (field, v) ↔
      kind field v = true ∧ ComparesSlot field c.1 ∧ c.2 = v := by
  rw [← comparison?_parameter_iff]
  constructor
  · intro slot
    unfold slotOf? at slot
    split at slot
    · next compares =>
      obtain ⟨isKind, same⟩ := Option.ite_none_right_eq_some.mp slot
      cases same
      exact ⟨isKind, compares, rfl⟩
    · cases slot
  · rintro ⟨isKind, compares, rfl⟩
    rw [slotOf?, compares]
    exact if_pos isKind

theorem slotOf?_eq_none_iff {kind : String → Json → Bool} {c : List Token × Json} :
    slotOf? kind c = none ↔ ∀ field, ComparesSlot field c.1 → kind field c.2 = false := by
  rw [Option.eq_none_iff_forall_ne_some]
  constructor
  · intro none field compares
    refine Bool.eq_false_iff.mpr fun isKind => none (field, c.2) ?_
    exact slotOf?_eq_some_iff.mpr ⟨isKind, compares, rfl⟩
  · rintro others ⟨field, v⟩ slot
    obtain ⟨isKind, compares, rfl⟩ := slotOf?_eq_some_iff.mp slot
    exact absurd isKind (Bool.eq_false_iff.mp (others field compares))

/-- The first comparison of a kind of field is found from the front. -/
theorem firstSlot_iff {kind : String → Bool} {conditions : List (List Token × Json)}
    {field : String} {v : Json} :
    FirstSlot kind conditions field v ↔
      conditions.findSome? (slotOf? fun field _ => kind field) = some (field, v) := by
  rw [List.findSome?_eq_some_iff]
  constructor
  · rintro ⟨front, condition, back, split, isKind, compares, earlier⟩
    refine ⟨front, (condition, v), back, split, ?_, fun c mem => ?_⟩
    · exact slotOf?_eq_some_iff.mpr ⟨isKind, compares, rfl⟩
    · exact slotOf?_eq_none_iff.mpr (earlier c mem)
  · rintro ⟨front, ⟨condition, v'⟩, back, split, slot, earlier⟩
    obtain ⟨isKind, compares, rfl⟩ := slotOf?_eq_some_iff.mp slot
    refine ⟨front, condition, back, split, isKind, compares, fun c mem => ?_⟩
    exact slotOf?_eq_none_iff.mp (earlier c mem)

/-! ## What conditions add in turn -/

/-- A comparison of this field with this value has no filter of its own. -/
def isOther (field : String) (v : Json) : Bool :=
  !isOwnField field && !(Text.sameLetters field "is_active" && v.isTruthy)

/-- The value of a condition on a field of this name. -/
def slotValue? (name : String) (c : List Token × Json) : Option Json :=
  (slotOf? (fun field _ => Text.sameLetters field name) c).map Prod.snd

/-- What has been found with what conditions add. -/
def Found.adding (found : Found) (conditions : List (List Token × Json)) (bound : Nat) : Found where
  isActive := found.isActive || conditions.any asksActive
  id := found.id.or (conditions.findSome? (slotValue? "id"))
  slug := found.slug.or (conditions.findSome? (slotValue? "slug"))
  other := found.other.or (conditions.findSome? (slotOf? isOther))
  bound := bound

theorem Found.adding_nil (found : Found) : found.adding [] found.bound = found := by
  rw [adding, List.any_nil, Bool.or_false]
  simp only [List.findSome?_nil, Option.or_none]

theorem Found.adding_append (found : Found) (front back : List (List Token × Json)) (k n : Nat) :
    (found.adding front k).adding back n = found.adding (front ++ back) n := by
  simp only [adding, List.any_append, List.findSome?_append, Option.or_assoc, Bool.or_assoc]

/-- One condition adds what it asks for, of each kind on its own: no field is of two kinds. -/
theorem Found.add_eq (params : List Json) (found : Found) (condition : List Token) :
    found.add params condition =
      found.adding [(condition, parameter params found.bound)]
        (found.bound + placeholders condition) := by
  simp only [adding, List.any_cons, List.any_nil, Bool.or_false, List.findSome?_singleton]
  cases compares : comparison? condition with
  | none => simp [add, asksActive, slotValue?, slotOf?, compares]
  | some comparison =>
    obtain ⟨field, operand⟩ := comparison
    cases operand with
    | now => simp [add, asksActive, slotValue?, slotOf?, compares]
    | literal v =>
      simp only [add, asksActive, slotValue?, slotOf?, compares]
      split <;> simp_all
    | parameter =>
      simp only [add, asksActive, slotValue?, slotOf?, compares, isOther, isOwnField]
      by_cases isActive : Text.sameLetters field "is_active" = true
      · have noId : Text.sameLetters field "id" = false :=
          sameLetters_other isActive (by decide)
        have noSlug : Text.sameLetters field "slug" = false :=
          sameLetters_other isActive (by decide)
        by_cases truthy : (parameter params found.bound).isTruthy = true <;>
          simp [isActive, noId, noSlug, truthy]
      · by_cases isId : Text.sameLetters field "id" = true
        · have noSlug : Text.sameLetters field "slug" = false :=
            sameLetters_other isId (by decide)
          simp [isActive, isId, noSlug]
        · by_cases isSlug : Text.sameLetters field "slug" = true <;>
            simp [isActive, isId, isSlug]

/-- Conditions add what they ask for, each with its parameter. -/
theorem foldl_add (params : List Json) (conditions : List (List Token)) (found : Found) :
    conditions.foldl (Found.add params) found =
      found.adding (valued params found.bound conditions)
        (found.bound + placeholders conditions.flatten) := by
  induction conditions generalizing found with
  | nil => exact found.adding_nil.symm
  | cons condition others ih =>
    have first : (found.add params condition).bound = found.bound + placeholders condition :=
      found.add_bound params condition
    rw [List.foldl_cons, ih, first, Found.add_eq, Found.adding_append, valued_cons,
      List.flatten_cons, placeholders_append, Nat.add_assoc, List.singleton_append]

/-! ## The filters found -/

/-- The filters that have been found stand in order. -/
theorem Found.filters_inOrder (found : Found) :
    found.filters.Pairwise fun f g => f.rank < g.rank := by
  obtain ⟨isActive, id, slug, other, bound⟩ := found
  cases isActive <;> cases id <;> cases slug <;> cases other <;> simp [filters, Filter.rank]

/-- The filter on another field stands only if nothing else has been found. -/
theorem Found.mem_filters (found : Found) :
    (.isActive ∈ found.filters ↔ found.isActive = true) ∧
      (∀ v, .id v ∈ found.filters ↔ found.id = some v) ∧
      (∀ v, .slug v ∈ found.filters ↔ found.slug = some v) ∧
      ∀ name v, .field name v ∈ found.filters ↔
        (found.isActive = false ∧ found.id = none ∧ found.slug = none) ∧
          found.other = some (name, v) := by
  obtain ⟨isActive, id, slug, other, bound⟩ := found
  cases isActive <;> cases id <;> cases slug <;> cases other <;>
    simp [filters, eq_comm, Prod.ext_iff]

theorem findSome?_slotValue? {conditions : List (List Token × Json)} {name : String} {v : Json} :
    conditions.findSome? (slotValue? name) = some v ↔
      ∃ field, FirstSlot (Text.sameLetters · name) conditions field v := by
  have values : conditions.findSome? (slotValue? name) =
      (conditions.findSome? (slotOf? fun field _ => Text.sameLetters field name)).map Prod.snd :=
    List.map_findSome?.symm
  simp only [values, Option.map_eq_some_iff, firstSlot_iff, Prod.exists, exists_eq_right]

/-- Nothing with a filter of its own is found if no condition names anything. -/
theorem not_someNamed_iff {conditions : List (List Token × Json)} :
    ¬SomeNamed conditions ↔ conditions.any asksActive = false ∧
      conditions.findSome? (slotValue? "id") = none ∧
        conditions.findSome? (slotValue? "slug") = none := by
  have noSlot : ∀ name, conditions.findSome? (slotValue? name) = none ↔ ∀ c ∈ conditions,
      ∀ field, ComparesSlot field c.1 → Text.sameLetters field name = false := by
    intro name
    simp only [List.findSome?_eq_none_iff, slotValue?, Option.map_eq_none_iff,
      slotOf?_eq_none_iff]
  rw [noSlot, noSlot, List.any_eq_false]
  simp only [asksActive_iff, SomeNamed, isOwnField, Bool.or_eq_true]
  grind

/-- Without such a condition the first comparison with a parameter counts. -/
theorem findSome?_other {conditions : List (List Token × Json)} (none : ¬SomeNamed conditions) :
    conditions.findSome? (slotOf? isOther) = conditions.findSome? (slotOf? fun _ _ => true) := by
  rw [← List.head?_filterMap, ← List.head?_filterMap]
  refine congrArg List.head? (List.filterMap_congr fun c mem => Option.ext fun ⟨field, v⟩ => ?_)
  rw [slotOf?_eq_some_iff, slotOf?_eq_some_iff]
  refine and_congr_left fun ⟨compares, same⟩ => iff_of_true ?_ rfl
  subst same
  have notOwn : isOwnField field = false :=
    Bool.eq_false_iff.mpr fun own => none ⟨c, mem, .inr ⟨field, own, compares⟩⟩
  have inactive : (Text.sameLetters field "is_active" && c.2.isTruthy) = false := by
    refine Bool.eq_false_iff.mpr fun asks => none ⟨c, mem, .inl ?_⟩
    obtain ⟨isActive, truthy⟩ := Bool.and_eq_true_iff.mp asks
    exact .parameter isActive compares truthy
  rw [isOther, notOwn, inactive]
  rfl

theorem findFilters_eq (params : List Json) (k : Nat) (conditions : List (List Token)) :
    findFilters params k conditions =
      ⟨(valued params k conditions).any asksActive,
        (valued params k conditions).findSome? (slotValue? "id"),
        (valued params k conditions).findSome? (slotValue? "slug"),
        (valued params k conditions).findSome? (slotOf? isOther),
        k + placeholders conditions.flatten⟩ := by
  rw [findFilters, foldl_add, Found.adding]
  simp only [Bool.false_or, Option.none_or]

/-- The filters that are found are those that the conditions mean. -/
theorem findFilters_meaning (params : List Json) (k : Nat) (conditions : List (List Token)) :
    Meaning (valued params k conditions) (findFilters params k conditions).filters := by
  rw [findFilters_eq]
  generalize valued params k conditions = conditions
  obtain ⟨isActive, id, slug, field⟩ := Found.mem_filters
    ⟨conditions.any asksActive, conditions.findSome? (slotValue? "id"),
      conditions.findSome? (slotValue? "slug"), conditions.findSome? (slotOf? isOther), _⟩
  refine ⟨Found.filters_inOrder _, ?_, fun v => ?_, fun v => ?_, fun name v => ?_⟩
  · rw [isActive, List.any_eq_true]
    simp only [asksActive_iff]
  · rw [id, findSome?_slotValue?]
  · rw [slug, findSome?_slotValue?]
  · rw [field, not_someNamed_iff]
    refine and_congr_right fun none => ?_
    rw [findSome?_other (not_someNamed_iff.mpr none), firstSlot_iff]

end ContentStore.Sql
