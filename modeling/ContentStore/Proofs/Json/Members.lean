import ContentStore.Json.Basic
/-!
# The members of an object as a map

`Members.set` is a write into a finite map: reading after it (`get?_set`, `get?_setAll`), the keys
that it keeps in order (`KeysAscend.set`) and the map that it leaves alone when the key is new and
the greatest (`set_of_greater`).  Members with ascending keys are determined by what is read from
them (`KeysAscend.ext`), so two ways to build an object can be compared key by key.
-/

namespace ContentStore.Json

theorem keysAscend_nil : KeysAscend [] := List.Pairwise.nil

theorem keysAscend_cons {key : String} {value : Json} {rest : Members} :
    KeysAscend ((key, value) :: rest) ↔ (∀ m ∈ rest, key < m.1) ∧ KeysAscend rest :=
  List.pairwise_cons

theorem orderedItems_iff {items : List Json} : OrderedItems items ↔ ∀ v ∈ items, Ordered v := by
  induction items with
  | nil => simp [OrderedItems]
  | cons item rest ih => simp [OrderedItems, ih]

theorem orderedMembers_iff {members : Members} :
    OrderedMembers members ↔ ∀ m ∈ members, Ordered m.2 := by
  induction members with
  | nil => simp [OrderedMembers]
  | cons m rest ih => simp [OrderedMembers, ih]

theorem depthOfItems_le_iff {items : List Json} {n : Nat} :
    depthOfItems items ≤ n ↔ ∀ v ∈ items, depth v ≤ n := by
  induction items with
  | nil => simp [depthOfItems]
  | cons item rest ih => rw [depthOfItems, Nat.max_le, ih, List.forall_mem_cons]

theorem depthOfMembers_le_iff {members : Members} {n : Nat} :
    depthOfMembers members ≤ n ↔ ∀ m ∈ members, depth m.2 ≤ n := by
  induction members with
  | nil => simp [depthOfMembers]
  | cons m rest ih => rw [depthOfMembers, Nat.max_le, ih, List.forall_mem_cons]

/-- An object is one level deeper than its values. -/
theorem depth_object_le_iff {members : Members} {n : Nat} :
    depth (.object members) ≤ n + 1 ↔ ∀ m ∈ members, depth m.2 ≤ n := by
  rw [depth, Nat.add_le_add_iff_right, depthOfMembers_le_iff]

theorem lt_of_not_lt_of_ne {a b : String} (ne : a ≠ b) (notLt : ¬ b < a) : a < b := by
  refine Decidable.byContradiction fun notLt' => ne ?_
  exact String.le_antisymm (String.not_lt.mp notLt) (String.not_lt.mp notLt')

namespace Members

/-! ## Reading after writing -/

/-- A key that no member has reads nothing. -/
theorem get?_eq_none_of_forall_ne {key : String} {members : Members}
    (absent : ∀ m ∈ members, m.1 ≠ key) : get? key members = none := by
  induction members with
  | nil => rfl
  | cons m rest ih =>
    obtain ⟨k, v⟩ := m
    rw [get?, if_neg (absent (k, v) List.mem_cons_self)]
    exact ih fun m mem => absent m (List.mem_cons_of_mem _ mem)

/-- What a key reads is the value of its first member. -/
theorem get?_eq_some_iff {key : String} {value : Json} {members : Members} :
    get? key members = some value ↔
      ∃ front back, members = front ++ (key, value) :: back ∧ ∀ m ∈ front, m.1 ≠ key := by
  constructor
  · intro found
    induction members with
    | nil => cases found
    | cons m rest ih =>
      obtain ⟨k, v⟩ := m
      rw [get?] at found
      split at found
      · next same =>
        cases found
        exact ⟨[], rest, same ▸ rfl, fun _ mem => absurd mem List.not_mem_nil⟩
      · next other =>
        obtain ⟨front, back, rfl, before⟩ := ih found
        exact ⟨(k, v) :: front, back, rfl, List.forall_mem_cons.mpr ⟨other, before⟩⟩
  · rintro ⟨front, back, rfl, before⟩
    induction front with
    | nil => exact if_pos rfl
    | cons m front ih =>
      obtain ⟨other, before⟩ := List.forall_mem_cons.mp before
      exact (if_neg other).trans (ih before)

theorem mem_of_get? {key : String} {value : Json} {members : Members}
    (found : get? key members = some value) : (key, value) ∈ members := by
  obtain ⟨front, back, rfl, -⟩ := get?_eq_some_iff.mp found
  exact List.mem_append_right _ List.mem_cons_self

theorem get?_append (key : String) (a b : Members) :
    get? key (a ++ b) = (get? key a).or (get? key b) := by
  induction a with
  | nil => rfl
  | cons m rest ih =>
    obtain ⟨k, v⟩ := m
    simp only [List.cons_append, get?]
    split
    · rfl
    · exact ih

/-- Reading after one write. -/
theorem get?_set (key key' : String) (value : Json) (members : Members) :
    get? key' (set key value members) = if key = key' then some value else get? key' members := by
  induction members with
  | nil => rfl
  | cons m rest ih =>
    obtain ⟨k, v⟩ := m
    rw [set]
    split
    · next same =>
      subst same
      simp only [get?]
      split <;> rfl
    split
    · rfl
    · next other _ =>
      simp only [get?, ih]
      split
      · next same =>
        rw [if_neg fun same' => other (same.trans same'.symm)]
      · rfl

/-- Reading after several writes: the last one of a key counts. -/
theorem get?_setAll (key : String) (members : Members) (pairs : List (String × Json)) :
    get? key (setAll members pairs) = (get? key pairs.reverse).or (get? key members) := by
  induction pairs generalizing members with
  | nil => rfl
  | cons pair rest ih =>
    obtain ⟨k, v⟩ := pair
    have first : get? key (set k v members) = (get? key [(k, v)]).or (get? key members) := by
      rw [get?_set]
      simp only [get?]
      split <;> rfl
    rw [setAll, List.foldl_cons, ← setAll, ih, first, List.reverse_cons, get?_append,
      Option.or_assoc]

/-- What the keys of a test read is what remains of them. -/
theorem get?_filter (test : String → Bool) (key : String) (members : Members) :
    get? key (members.filter fun (k, _) => test k) =
      if test key then get? key members else none := by
  induction members with
  | nil => simp [get?]
  | cons m rest ih =>
    obtain ⟨k, v⟩ := m
    rw [List.filter_cons]
    by_cases same : k = key
    · subst same
      by_cases pass : test k = true
      · simp [pass, get?]
      · simp [pass, ih]
    · by_cases pass : test k = true
      · simp [pass, get?, same, ih]
      · simp [pass, get?, same, ih]

/-! ## The order of the keys -/

theorem mem_set {key : String} {value : Json} {members : Members} {m : String × Json}
    (mem : m ∈ set key value members) : m = (key, value) ∨ m ∈ members := by
  induction members with
  | nil => exact .inl (List.mem_singleton.mp mem)
  | cons head rest ih =>
    obtain ⟨k, v⟩ := head
    rw [set] at mem
    split at mem
    · rcases List.mem_cons.mp mem with new | old
      · exact .inl new
      · exact .inr (List.mem_cons_of_mem _ old)
    split at mem
    · exact List.mem_cons.mp mem
    · rcases List.mem_cons.mp mem with first | later
      · exact .inr (first ▸ List.mem_cons_self)
      · exact (ih later).imp_right (List.mem_cons_of_mem _)

theorem mem_setAll {members : Members} {pairs : List (String × Json)} {m : String × Json}
    (mem : m ∈ setAll members pairs) : m ∈ pairs ∨ m ∈ members := by
  induction pairs generalizing members with
  | nil => exact .inr mem
  | cons pair rest ih =>
    rcases ih mem with later | before
    · exact .inl (List.mem_cons_of_mem _ later)
    rcases mem_set before with rfl | old
    · exact .inl List.mem_cons_self
    · exact .inr old

/-- A key greater than all others comes to the end. -/
theorem set_of_greater {key : String} {value : Json} {members : Members}
    (greater : ∀ m ∈ members, m.1 < key) : set key value members = members ++ [(key, value)] := by
  induction members with
  | nil => rfl
  | cons m rest ih =>
    obtain ⟨k, v⟩ := m
    have before : k < key := greater (k, v) List.mem_cons_self
    rw [set, if_neg fun same => String.lt_irrefl _ (same ▸ before), if_neg (String.lt_asymm before),
      ih fun m mem => greater m (List.mem_cons_of_mem _ mem)]
    rfl

end Members

theorem KeysAscend.set {members : Members} (ascend : KeysAscend members) (key : String)
    (value : Json) : KeysAscend (Members.set key value members) := by
  induction members with
  | nil => exact List.pairwise_singleton _ _
  | cons m rest ih =>
    obtain ⟨k, v⟩ := m
    obtain ⟨above, ascendRest⟩ := keysAscend_cons.mp ascend
    rw [Members.set]
    split
    · next same =>
      subst same
      exact keysAscend_cons.mpr ⟨above, ascendRest⟩
    split
    · next before =>
      refine keysAscend_cons.mpr ⟨fun m mem => ?_, ascend⟩
      rcases List.mem_cons.mp mem with rfl | later
      · exact before
      · exact String.lt_trans before (above m later)
    · next other notBefore =>
      refine keysAscend_cons.mpr ⟨fun m mem => ?_, ih ascendRest⟩
      rcases Members.mem_set mem with rfl | old
      · exact lt_of_not_lt_of_ne other notBefore
      · exact above m old

theorem KeysAscend.setAll {members : Members} (ascend : KeysAscend members)
    (pairs : List (String × Json)) : KeysAscend (Members.setAll members pairs) := by
  induction pairs generalizing members with
  | nil => exact ascend
  | cons pair rest ih => exact ih (ascend.set pair.1 pair.2)

theorem Ordered.set {members : Members} (ordered : Ordered (.object members)) (key : String)
    {value : Json} (orderedValue : Ordered value) :
    Ordered (.object (Members.set key value members)) := by
  obtain ⟨ascend, orderedMembers⟩ := ordered
  refine ⟨ascend.set key value, orderedMembers_iff.mpr fun m mem => ?_⟩
  rcases Members.mem_set mem with rfl | old
  · exact orderedValue
  · exact orderedMembers_iff.mp orderedMembers m old

theorem Ordered.setAll {members : Members} (ordered : Ordered (.object members))
    {pairs : List (String × Json)} (orderedPairs : ∀ p ∈ pairs, Ordered p.2) :
    Ordered (.object (Members.setAll members pairs)) := by
  induction pairs generalizing members with
  | nil => exact ordered
  | cons pair rest ih =>
    obtain ⟨orderedPair, orderedRest⟩ := List.forall_mem_cons.mp orderedPairs
    exact ih (ordered.set pair.1 orderedPair) orderedRest

/-- Writing members whose keys ascend: what they have comes first. -/
theorem KeysAscend.get?_setAll {pairs : Members} (ascend : KeysAscend pairs) (key : String)
    (members : Members) :
    Members.get? key (Members.setAll members pairs) =
      (Members.get? key pairs).or (Members.get? key members) := by
  induction pairs generalizing members with
  | nil => rfl
  | cons pair rest ih =>
    obtain ⟨k, v⟩ := pair
    obtain ⟨above, ascendRest⟩ := keysAscend_cons.mp ascend
    rw [Members.setAll, List.foldl_cons, ← Members.setAll, ih ascendRest, Members.get?_set,
      Members.get?]
    split
    · next here =>
      subst here
      rw [Members.get?_eq_none_of_forall_ne fun m mem same =>
        String.lt_irrefl _ (same ▸ above m mem)]
      rfl
    · rfl

theorem get?_of_below {key : String} {members : Members} (below : ∀ m ∈ members, key < m.1) :
    Members.get? key members = none :=
  Members.get?_eq_none_of_forall_ne fun m mem same => String.lt_irrefl _ (same ▸ below m mem)

/-- Objects with the same members have the same first key: the lesser of two would stand in one of
them only. -/
theorem first_key_eq {k k' : String} {v v' : Json} {rest rest' : Members}
    (above : ∀ m ∈ rest, k < m.1) (above' : ∀ m ∈ rest', k' < m.1)
    (same : ∀ key, Members.get? key ((k, v) :: rest) = Members.get? key ((k', v') :: rest')) :
    k = k' := by
  refine Decidable.byContradiction fun differ => ?_
  have read := same k
  have read' := same k'
  rw [Members.get?, Members.get?, if_pos rfl, if_neg (Ne.symm differ)] at read
  rw [Members.get?, Members.get?, if_pos rfl, if_neg differ] at read'
  have below : k' < k := above' _ (Members.mem_of_get? read.symm)
  have below' : k < k' := above _ (Members.mem_of_get? read')
  exact String.lt_asymm below below'

/-- Where the keys ascend, a member is read by its key. -/
theorem KeysAscend.get?_of_mem {members : Members} (ascend : KeysAscend members) {key : String}
    {value : Json} (mem : (key, value) ∈ members) : Members.get? key members = some value := by
  obtain ⟨front, back, rfl⟩ := List.append_of_mem mem
  refine Members.get?_eq_some_iff.mpr ⟨front, back, rfl, fun m inFront same => ?_⟩
  have below := (List.pairwise_append.mp ascend).2.2 m inFront _ List.mem_cons_self
  exact String.lt_irrefl key (same ▸ below)

/-- Members with ascending keys are determined by what is read from them. -/
theorem KeysAscend.ext {a b : Members} (ascendA : KeysAscend a) (ascendB : KeysAscend b)
    (same : ∀ key, Members.get? key a = Members.get? key b) : a = b := by
  induction a generalizing b with
  | nil =>
    cases b with
    | nil => rfl
    | cons m rest =>
      have read := same m.1
      rw [Members.get?, Members.get?, if_pos rfl] at read
      cases read
  | cons m rest ih =>
    obtain ⟨k, v⟩ := m
    obtain ⟨above, ascendRest⟩ := keysAscend_cons.mp ascendA
    cases b with
    | nil =>
      have read := same k
      rw [Members.get?, Members.get?, if_pos rfl] at read
      cases read
    | cons m' rest' =>
      obtain ⟨k', v'⟩ := m'
      obtain ⟨above', ascendRest'⟩ := keysAscend_cons.mp ascendB
      obtain rfl := first_key_eq above above' same
      have sameValue := same k
      rw [Members.get?, Members.get?, if_pos rfl, if_pos rfl] at sameValue
      cases sameValue
      rw [ih ascendRest ascendRest' fun key => ?_]
      have read := same key
      rw [Members.get?, Members.get?] at read
      split at read
      · next here => rw [← here, get?_of_below above, get?_of_below above']
      · exact read

end ContentStore.Json
