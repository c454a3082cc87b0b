import ContentStore.Proofs.Json.Members
import ContentStore.Store.Basic
/-!
# Records key by key

What the store makes of a caller's fields, said for each key by itself.  A new record has its
identifier, both stamps and the caller's other fields (`newRecord_eq_stamped`); a changed record has
the caller's fields in front of its own ones, apart from the keys that the store owns, and a new
stamp of its change (`changed_eq_amended`).  An entry has an identifier exactly if the value of its
`id` has this scalar text (`hasId_iff`), and the first record with an identifier is the first entry
with it (`find?_records`).
-/

namespace ContentStore

open Json (KeysAscend Members)

namespace Record

/-- The record that has given keys with given values. -/
def tabulate (keys : List String) (value : String → Option Json) : Record :=
  Members.ofPairs (keys.filterMap fun key => (value key).map fun v => (key, v))

/-- What a new record has under a key. -/
def stampedValue (id stamp : String) (fields : Record) (key : String) : Option Json :=
  if key = idKey then some (.text id)
  else if key = createdKey ∨ key = updatedKey then some (.text stamp)
  else Members.get? key fields

/-- A new record of a caller's fields. -/
def stamped (id stamp : String) (fields : Record) : Record :=
  tabulate (idKey :: createdKey :: updatedKey :: fields.map Prod.fst) (stampedValue id stamp fields)

/-- What a changed record has under a key. -/
def amendedValue (stamp : String) (record changes : Record) (key : String) : Option Json :=
  if key = updatedKey then some (.text stamp)
  else if isReserved key then Members.get? key record
  else (Members.get? key changes).or (Members.get? key record)

/-- A record with a caller's changes and a new stamp of its change. -/
def amended (stamp : String) (record changes : Record) : Record :=
  tabulate (updatedKey :: (record ++ changes).map Prod.fst) (amendedValue stamp record changes)

/-! ## Tables of keys and values -/

theorem get?_filterMap (key : String) (keys : List String) (value : String → Option Json) :
    Members.get? key (keys.filterMap fun k => (value k).map fun v => (k, v)) =
      if key ∈ keys then value key else none := by
  induction keys with
  | nil => rfl
  | cons k rest ih =>
    cases read : value k with
    | none =>
      rw [List.filterMap_cons_none (by rw [read]; rfl), ih]
      by_cases here : key = k
      · subst here
        simp [read]
      · simp [here]
    | some v =>
      rw [List.filterMap_cons_some (by rw [read]; rfl), Members.get?, ih]
      by_cases here : key = k
      · subst here
        simp [read]
      · simp [here, Ne.symm here]

theorem get?_tabulate (key : String) (keys : List String) (value : String → Option Json) :
    Members.get? key (tabulate keys value) = if key ∈ keys then value key else none := by
  rw [tabulate, Members.ofPairs, Members.get?_setAll, ← List.filterMap_reverse, get?_filterMap]
  simp [Members.get?]

theorem tabulate_ascend (keys : List String) (value : String → Option Json) :
    KeysAscend (tabulate keys value) :=
  Json.keysAscend_nil.setAll _

theorem get?_eq_none_of_not_mem {key : String} {record : Record}
    (absent : key ∉ record.map Prod.fst) : Members.get? key record = none :=
  Members.get?_eq_none_of_forall_ne fun m mem same =>
    absent (List.mem_map.mpr ⟨m, mem, same⟩)

/-- A key of a new record has the value that is said for it. -/
theorem get?_stamped (id stamp : String) (fields : Record) (key : String) :
    Members.get? key (stamped id stamp fields) = stampedValue id stamp fields key := by
  rw [stamped, get?_tabulate]
  split
  · rfl
  · next absent =>
    simp only [List.mem_cons, not_or] at absent
    obtain ⟨notId, notCreated, notUpdated, absent⟩ := absent
    rw [stampedValue, if_neg notId, if_neg (by simp [notCreated, notUpdated]),
      get?_eq_none_of_not_mem absent]

/-- A key of a changed record has the value that is said for it. -/
theorem get?_amended (stamp : String) (record changes : Record) (key : String) :
    Members.get? key (amended stamp record changes) = amendedValue stamp record changes key := by
  rw [amended, get?_tabulate]
  split
  · rfl
  · next absent =>
    simp only [List.mem_cons, List.map_append, List.mem_append, not_or] at absent
    obtain ⟨notUpdated, absentRecord, absentChanges⟩ := absent
    rw [amendedValue, if_neg notUpdated, get?_eq_none_of_not_mem absentRecord,
      get?_eq_none_of_not_mem absentChanges]
    split <;> rfl

/-- A change keeps the identifier and the stamp of creation. -/
theorem get?_amended_kept {key : String} (reserved : isReserved key = true)
    (kept : key ≠ updatedKey) (stamp : String) (record changes : Record) :
    Members.get? key (amended stamp record changes) = Members.get? key record := by
  rw [get?_amended, amendedValue, if_neg kept, if_pos reserved]

theorem text?_amended_updated (stamp : String) (record changes : Record) :
    text? updatedKey (amended stamp record changes) = some stamp := by
  rw [text?, get?_amended, amendedValue, if_pos rfl]

/-! ### The values of a record that is made -/

theorem mem_tabulate {keys : List String} {value : String → Option Json} {m : String × Json}
    (mem : m ∈ tabulate keys value) : value m.1 = some m.2 := by
  have pair := (Members.mem_setAll mem).resolve_right List.not_mem_nil
  obtain ⟨key, -, same⟩ := List.mem_filterMap.mp pair
  obtain ⟨v, has, rfl⟩ := Option.map_eq_some_iff.mp same
  exact has

/-- A new record holds texts of the store and what the caller gives. -/
theorem mem_stamped {id stamp : String} {fields : Record} {m : String × Json}
    (mem : m ∈ stamped id stamp fields) : (∃ text, m.2 = .text text) ∨ m ∈ fields := by
  have has := mem_tabulate mem
  unfold stampedValue at has
  split at has
  · exact .inl ⟨id, (Option.some.inj has).symm⟩
  split at has
  · exact .inl ⟨stamp, (Option.some.inj has).symm⟩
  · exact .inr (Members.mem_of_get? has)

/-- A changed record holds its new stamp, what the caller gives and what it held. -/
theorem mem_amended {stamp : String} {record changes : Record} {m : String × Json}
    (mem : m ∈ amended stamp record changes) :
    m.2 = .text stamp ∨ m ∈ changes ∨ m ∈ record := by
  have has := mem_tabulate mem
  unfold amendedValue at has
  split at has
  · exact .inl (Option.some.inj has).symm
  split at has
  · exact .inr (.inr (Members.mem_of_get? has))
  · rcases Option.or_eq_some_iff.mp has with given | ⟨-, held⟩
    · exact .inr (.inl (Members.mem_of_get? given))
    · exact .inr (.inr (Members.mem_of_get? held))

end Record

/-! ## The records that the store makes -/

namespace Store

theorem get?_callerFields (key : String) (fields : Record) :
    Members.get? key (callerFields fields) =
      if Record.isReserved key then none else Members.get? key fields := by
  rw [callerFields, Members.get?_filter (fun key => !Record.isReserved key)]
  cases Record.isReserved key <;> rfl

theorem callerFields_ascend {fields : Record} (ascend : KeysAscend fields) :
    KeysAscend (callerFields fields) :=
  List.Pairwise.filter _ ascend

theorem isReserved_iff {key : String} : Record.isReserved key = true ↔
    key = Record.idKey ∨ key = Record.createdKey ∨ key = Record.updatedKey := by
  simp [Record.isReserved, or_assoc]

/-- A new record, key by key. -/
theorem newRecord_eq_stamped {fields : Record} (ascend : KeysAscend fields) (id stamp : String) :
    newRecord id stamp fields = Record.stamped id stamp fields := by
  have single : KeysAscend [(Record.idKey, Json.text id)] := List.pairwise_singleton _ _
  refine (single.setAll _).ext (Record.tabulate_ascend _ _) fun key => ?_
  have stamps : newRecord id stamp fields =
      Members.set Record.updatedKey (.text stamp) (Members.set Record.createdKey (.text stamp)
        (Members.setAll [(Record.idKey, .text id)] (callerFields fields))) :=
    List.foldl_append
  refine Eq.trans ?_ (Record.get?_stamped id stamp fields key).symm
  rw [← newRecord, stamps, Members.get?_set, Members.get?_set,
    (callerFields_ascend ascend).get?_setAll, get?_callerFields, Record.stampedValue]
  by_cases isId : key = Record.idKey
  · subst isId
    rfl
  by_cases isCreated : key = Record.createdKey
  · subst isCreated
    rfl
  by_cases isUpdated : key = Record.updatedKey
  · subst isUpdated
    rfl
  have own : Record.isReserved key = false :=
    Bool.eq_false_iff.mpr fun reserved =>
      (isReserved_iff.mp reserved).elim isId (·.elim isCreated isUpdated)
  simp [own, Members.get?, Ne.symm isId, Ne.symm isCreated, Ne.symm isUpdated, isId, isCreated,
    isUpdated]

theorem get?_merged {record changes : Record} (ascend : KeysAscend changes) (key : String) :
    Members.get? key (merged record changes) =
      if Record.isReserved key then Members.get? key record
      else (Members.get? key changes).or (Members.get? key record) := by
  rw [merged, (callerFields_ascend ascend).get?_setAll, get?_callerFields]
  split <;> rfl

/-- A change leaves the stamps alone from which the new stamp is made. -/
theorem lastStamp_merged {record changes : Record} (ascend : KeysAscend changes) :
    lastStamp (merged record changes) = lastStamp record := by
  have same : ∀ {key : String}, Record.isReserved key = true →
      Record.text? key (merged record changes) = Record.text? key record := by
    intro key reserved
    rw [Record.text?, get?_merged ascend, if_pos reserved, Record.text?]
  rw [lastStamp, same rfl, same rfl, lastStamp]

/-- A changed record, key by key. -/
theorem changed_eq_amended {record changes : Record} (ascendRecord : KeysAscend record)
    (ascendChanges : KeysAscend changes) (now : Instant) :
    changed now record changes =
      Record.amended (Instant.stampAfter now (lastStamp record)) record changes := by
  have ascendMerged : KeysAscend (merged record changes) := ascendRecord.setAll _
  refine (ascendMerged.set _ _).ext (Record.tabulate_ascend _ _) fun key => ?_
  refine Eq.trans ?_ (Record.get?_amended _ record changes key).symm
  rw [Record.amendedValue, Members.get?_set, lastStamp_merged ascendChanges,
    get?_merged ascendChanges]
  exact ite_congr (propext eq_comm) (fun _ => rfl) fun _ => rfl

/-! ## The records that the store makes are maps -/

theorem callerFields_ordered {fields : Record} (ordered : Json.Ordered (.object fields)) :
    ∀ p ∈ callerFields fields, Json.Ordered p.2 :=
  fun p mem => Json.orderedMembers_iff.mp ordered.2 p (List.mem_filter.mp mem).1

theorem newRecord_ordered {fields : Record} (ordered : Json.Ordered (.object fields))
    (id stamp : String) : Json.Ordered (.object (newRecord id stamp fields)) := by
  have single : Json.Ordered (.object [(Record.idKey, .text id)]) :=
    ⟨List.pairwise_singleton _ _, trivial, trivial⟩
  refine single.setAll fun p mem => ?_
  rcases List.mem_append.mp mem with caller | stamps
  · exact callerFields_ordered ordered p caller
  · simp only [List.mem_cons, List.not_mem_nil, or_false] at stamps
    rcases stamps with rfl | rfl <;> trivial

theorem changed_ordered {record changes : Record} (orderedRecord : Json.Ordered (.object record))
    (orderedChanges : Json.Ordered (.object changes)) (now : Instant) :
    Json.Ordered (.object (changed now record changes)) :=
  (orderedRecord.setAll (callerFields_ordered orderedChanges)).set Record.updatedKey trivial

end Store

/-! ## Entries with an identifier -/

/-- The scalar text of an entry's identifier. -/
def identifierText? (entry : Json) : Option String :=
  (entry.member? Record.idKey).bind Json.scalarText?

/-- A value matches a text loosely exactly if the text is its scalar text. -/
theorem looseEq_text_iff {v : Json} {s : String} :
    v.looseEq (.text s) = true ↔ v.scalarText? = some s := by
  have same : v.looseEq (.text s) = (v.sameValue (.text s) || v.sameScalarText (.text s)) := by
    cases v <;> rfl
  have scalar : v.sameScalarText (.text s) = true ↔ v.scalarText? = some s := by
    unfold Json.sameScalarText
    cases v.scalarText? with
    | none => simp
    | some text => simp [Json.scalarText?]
  rw [same, Bool.or_eq_true, scalar]
  refine ⟨fun h => h.elim (fun equal => ?_) fun h => h, .inr⟩
  cases v with
  | text text =>
    rw [Json.sameValue, beq_iff_eq] at equal
    rw [equal, Json.scalarText?]
  | _ => cases equal

theorem hasId_iff (id : String) (entry : Json) :
    hasId id entry = true ↔ identifierText? entry = some id := by
  unfold hasId identifierText?
  cases entry.member? Record.idKey with
  | none => simp
  | some v => exact looseEq_text_iff

theorem identifierText?_amended (stamp : String) (record changes : Record) :
    identifierText? (.object (Record.amended stamp record changes)) =
      identifierText? (.object record) := by
  rw [identifierText?, identifierText?, Json.member?, Json.member?,
    Record.get?_amended_kept rfl (by decide)]

theorem recordOf?_eq_some {entry : Json} {r : Record} (isRecord : recordOf? entry = some r) :
    entry = .object r := by
  cases entry with
  | object members => exact congrArg Json.object (Option.some.inj isRecord)
  | _ => cases isRecord

theorem find?_records (id : String) (items : List Json) :
    ((items.filterMap recordOf?).find? fun r => r.matchesField Record.idKey (.text id)) =
      (items.find? fun v => identifierText? v = some id).bind recordOf? := by
  rw [List.find?_filterMap]
  congr 2
  funext v
  cases v with
  | object members =>
    rw [Bool.eq_iff_iff, decide_eq_true_iff]
    exact hasId_iff id (.object members)
  | _ => rfl

end ContentStore
