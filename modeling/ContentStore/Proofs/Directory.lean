import ContentStore.Directory
import ContentStore.Proofs.Json.Reading
import ContentStore.Proofs.Json.RoundTrip
/-!
# Reading a table after it has been written

A write of a table puts one file in place and touches no other name (`writeTable_eq`,
`tableEntries_writeTable_other`).  What is read from it afterwards are the entries with their
numbers as they are read from their texts, or nothing at all if one entry nests too deep or one
number cannot be read (`tableEntries_writeTable`).  So the entries come back as they were written
exactly if each leaves room for the array around it and is settled (`rereadEntries_eq_iff`).
-/

namespace ContentStore

open Json (Ordered Rereads Settled depth reread? rereadItems?)

/-- Every entry leaves room for the array around the entries. -/
def Roomy (items : List Json) : Prop := ∀ v ∈ items, depth v < Json.nestingLimit

instance (items : List Json) : Decidable (Roomy items) :=
  inferInstanceAs (Decidable (∀ v ∈ items, depth v < Json.nestingLimit))

/-- Every entry leaves room for the array around the entries, and its numbers are read from their
texts as they are. -/
def Storable (items : List Json) : Prop := ∀ v ∈ items, depth v < Json.nestingLimit ∧ Settled v

instance (items : List Json) : Decidable (Storable items) :=
  inferInstanceAs (Decidable (∀ v ∈ items, depth v < Json.nestingLimit ∧ Settled v))

/-- The entries that are read where entries have been written. -/
def rereadEntries (items : List Json) : List Json :=
  if Roomy items then (rereadItems? items).getD [] else []

/-- The keys of every object in the entries ascend. -/
def OrderedEntries (items : List Json) : Prop := ∀ v ∈ items, Ordered v

section Split

variable {α : Type} {P : α → Prop} {front back : List α} {old new : α}

/-- What holds of all items still holds when one gives its place to another that has it. -/
theorem forall_mem_replaced (all : ∀ v ∈ front ++ old :: back, P v) (has : P new) :
    ∀ v ∈ front ++ new :: back, P v := by
  obtain ⟨before, rest⟩ := List.forall_mem_append.mp all
  obtain ⟨-, behind⟩ := List.forall_mem_cons.mp rest
  exact List.forall_mem_append.mpr ⟨before, List.forall_mem_cons.mpr ⟨has, behind⟩⟩

/-- What holds of all items still holds without one of them. -/
theorem forall_mem_removed (all : ∀ v ∈ front ++ old :: back, P v) : ∀ v ∈ front ++ back, P v := by
  obtain ⟨before, rest⟩ := List.forall_mem_append.mp all
  obtain ⟨-, behind⟩ := List.forall_mem_cons.mp rest
  exact List.forall_mem_append.mpr ⟨before, behind⟩

/-- What stands beside a list of two parts has two parts beside them. -/
theorem forall₂_append_left {β : Type} {R : α → β → Prop} {both : List β}
    (related : List.Forall₂ R (front ++ back) both) :
    ∃ front' back', both = front' ++ back' ∧ List.Forall₂ R front front' ∧
      List.Forall₂ R back back' :=
  ⟨both.take front.length, both.drop front.length, (List.take_append_drop _ _).symm,
    by simpa using List.forall₂_take front.length related,
    by simpa using List.forall₂_drop front.length related⟩

end Split

theorem roomy_iff {items : List Json} :
    Roomy items ↔ depth (.array items) ≤ Json.nestingLimit := by
  have nests : depth (.array items) = Json.depthOfItems items + 1 := rfl
  rw [nests, Nat.succ_le_iff, Nat.lt_iff_le_pred (by decide), Json.depthOfItems_le_iff]
  exact forall₂_congr fun _ _ => Nat.lt_iff_le_pred (by decide)

theorem OrderedEntries.array {items : List Json} (ordered : OrderedEntries items) :
    Ordered (.array items) :=
  Json.orderedItems_iff.mpr ordered

/-! ## The bytes of a table's file -/

theorem fromUTF8?_toUTF8 (s : String) : String.fromUTF8? s.toUTF8 = some s := by
  exact dif_pos s.isValidUTF8

/-- The bytes of a file hold the entries that were written, as they are read. -/
theorem entriesOfBytes_bytesOfEntries (layout : Json.Layout) {items : List Json}
    (ordered : OrderedEntries items) :
    entriesOfBytes (bytesOfEntries layout items) = rereadEntries items := by
  rw [entriesOfBytes, bytesOfEntries, fromUTF8?_toUTF8, Option.bind_some, Json.read?,
    Json.readWithin_write _ layout ordered.array, rereadEntries]
  by_cases roomy : Roomy items
  · rw [if_pos roomy, if_pos (roomy_iff.mp roomy), reread?]
    cases rereadItems? items <;> rfl
  · rw [if_neg roomy, if_neg (mt roomy_iff.mpr roomy)]

/-! ## Entries that come back -/

/-- What is read are the entries one by one as they are read, or nothing. -/
theorem rereadEntries_cases (items : List Json) :
    rereadEntries items = [] ∨ List.Forall₂ Rereads items (rereadEntries items) := by
  unfold rereadEntries
  split
  · cases read : rereadItems? items with
    | none => exact .inl rfl
    | some items' => exact .inr (Json.rereadItems?_eq_some_iff.mp read)
  · exact .inl rfl

theorem Storable.roomy {items : List Json} (storable : Storable items) : Roomy items :=
  fun v mem => (storable v mem).1

theorem storable_iff {items : List Json} :
    Storable items ↔ Roomy items ∧ ∀ v ∈ items, Settled v :=
  forall₂_and

theorem rereadItems?_of_storable {items : List Json} (storable : Storable items) :
    rereadItems? items = some items :=
  Json.rereadItems?_eq_some_iff.mpr
    (List.forall₂_same.mpr fun v mem => Json.settled_iff.mp (storable v mem).2)

theorem rereadEntries_of_storable {items : List Json} (storable : Storable items) :
    rereadEntries items = items := by
  rw [rereadEntries, if_pos storable.roomy, rereadItems?_of_storable storable]
  rfl

/-- Entries come back as they were written exactly if they are storable. -/
theorem rereadEntries_eq_iff {items : List Json} :
    rereadEntries items = items ↔ Storable items := by
  refine ⟨fun same => ?_, rereadEntries_of_storable⟩
  rcases rereadEntries_cases items with none | all
  · rw [← same, none]
    exact fun _ mem => absurd mem List.not_mem_nil
  · rw [same] at all
    have settled := List.forall₂_same.mp all
    by_cases roomy : Roomy items
    · exact fun v mem => ⟨roomy v mem, Json.settled_iff.mpr (settled v mem)⟩
    · rw [rereadEntries, if_neg roomy] at same
      rw [← same]
      exact fun _ mem => absurd mem List.not_mem_nil

theorem entriesOfBytes_fit (bytes : ByteArray) :
    OrderedEntries (entriesOfBytes bytes) ∧ Roomy (entriesOfBytes bytes) := by
  unfold entriesOfBytes
  split
  · next items read =>
    obtain ⟨text, -, read⟩ := Option.bind_eq_some_iff.mp read
    obtain ⟨ordered, nests⟩ := Json.readWithin_fits read
    exact ⟨Json.orderedItems_iff.mp ordered, roomy_iff.mpr nests⟩
  · exact ⟨fun _ mem => absurd mem List.not_mem_nil, fun _ mem => absurd mem List.not_mem_nil⟩

namespace Directory

/-! ## What stands under a name -/

theorem find?_setIn (name other : String) (entry : Entry) (entries : List (String × Entry)) :
    ((setIn name entry entries).find? fun e => e.1 = other).map Prod.snd =
      if name = other then some entry
      else (entries.find? fun e => e.1 = other).map Prod.snd := by
  induction entries with
  | nil =>
    rw [setIn, List.find?_cons]
    by_cases same : name = other <;> simp [same]
  | cons head rest ih =>
    obtain ⟨n, e⟩ := head
    rw [setIn]
    split
    · next same =>
      subst same
      by_cases same : n = other <;> simp [same]
    split
    · by_cases same : name = other <;> simp [same]
    · next differ _ =>
      by_cases here : n = other
      · subst here
        simp [Ne.symm differ]
      · simp only [List.find?_cons, here, decide_false, ih]

/-- What stands under a name after something has been put under a name. -/
theorem find?_set (name other : String) (entry : Entry) (d : Directory) :
    (d.set name entry).find? other = if name = other then some entry else d.find? other :=
  find?_setIn name other entry d.entries

/-! ## Writing a table -/

/-- No folder stands in the place of a table's file. -/
def Writable (t : Table) (d : Directory) : Prop := d.find? t.fileName ≠ some .folder

/-- Where no folder stands, a write puts one file in place. -/
theorem writeTable_of_writable (config : Config) {t : Table} (items : List Json) {d : Directory}
    (writable : d.Writable t) :
    d.writeTable config t items =
      .ok (d.set t.fileName (.file (bytesOfEntries config.layout items))) := by
  have put : ∀ bytes, d.replace t.fileName bytes = .ok (d.set t.fileName (.file bytes)) ∧
      d.overwrite t.fileName bytes = .ok (d.set t.fileName (.file bytes)) := by
    intro bytes
    unfold replace overwrite
    split
    · next folder => exact absurd folder writable
    · exact ⟨rfl, rfl⟩
  unfold writeTable
  cases config.atomicWrites with
  | true => exact (put _).1
  | false => exact (put _).2

/-- The failure of a write where a folder stands. -/
def writeFailure (config : Config) (items : List Json) : StoreError :=
  if config.atomicWrites then .persist (bytesOfEntries config.layout items) else .io

/-- Where a folder stands, a write fails. -/
theorem writeTable_of_folder (config : Config) {t : Table} (items : List Json) {d : Directory}
    (folder : ¬d.Writable t) :
    d.writeTable config t items = .error (writeFailure config items) := by
  have folder : d.find? t.fileName = some .folder := Classical.not_not.mp folder
  unfold writeTable replace overwrite writeFailure
  rw [folder]
  cases config.atomicWrites <;> rfl

/-- A write fails exactly where a folder stands, and otherwise puts one file in place. -/
theorem writeTable_eq {config : Config} {t : Table} {items : List Json} {d d' : Directory} :
    d.writeTable config t items = .ok d' ↔
      d.Writable t ∧ d' = d.set t.fileName (.file (bytesOfEntries config.layout items)) := by
  by_cases writable : d.Writable t
  · rw [writeTable_of_writable config items writable]
    exact ⟨fun same => ⟨writable, (Except.ok.inj same).symm⟩, fun ⟨_, same⟩ => same ▸ rfl⟩
  · rw [writeTable_of_folder config items writable]
    exact ⟨(fun fails => nomatch fails), fun h => absurd h.1 writable⟩

/-- A table whose file holds entries has them as they are read. -/
theorem tableEntries_set {t : Table} {items : List Json} (layout : Json.Layout)
    (ordered : OrderedEntries items) (d : Directory) :
    (d.set t.fileName (.file (bytesOfEntries layout items))).tableEntries t =
      rereadEntries items := by
  rw [tableEntries, find?_set, if_pos rfl]
  exact entriesOfBytes_bytesOfEntries layout ordered

/-- After a write a table has the entries that were written, as they are read. -/
theorem tableEntries_writeTable {config : Config} {t : Table} {items : List Json}
    {d d' : Directory} (ordered : OrderedEntries items)
    (written : d.writeTable config t items = .ok d') :
    d'.tableEntries t = rereadEntries items := by
  obtain ⟨-, rfl⟩ := writeTable_eq.mp written
  exact tableEntries_set config.layout ordered d

/-- A write leaves the entries of every other table alone. -/
theorem tableEntries_writeTable_other {config : Config} {t other : Table} {items : List Json}
    {d d' : Directory} (differ : t ≠ other) (written : d.writeTable config t items = .ok d') :
    d'.tableEntries other = d.tableEntries other := by
  obtain ⟨-, rfl⟩ := writeTable_eq.mp written
  rw [tableEntries, find?_set, if_neg (mt Table.fileName_injective differ)]
  rfl

theorem tableEntries_fit (t : Table) (d : Directory) :
    OrderedEntries (d.tableEntries t) ∧ Roomy (d.tableEntries t) := by
  unfold tableEntries
  split
  · exact entriesOfBytes_fit _
  · exact ⟨fun _ mem => absurd mem List.not_mem_nil, fun _ mem => absurd mem List.not_mem_nil⟩

theorem tableEntries_ordered (t : Table) (d : Directory) : OrderedEntries (d.tableEntries t) :=
  (tableEntries_fit t d).1

/-- Entries that have been read leave room for the array around them. -/
theorem tableEntries_roomy (t : Table) (d : Directory) : Roomy (d.tableEntries t) :=
  (tableEntries_fit t d).2

/-- Entries that have been read can be written and read again if they are settled. -/
theorem tableEntries_storable {t : Table} {d : Directory}
    (settled : ∀ v ∈ d.tableEntries t, Settled v) : Storable (d.tableEntries t) :=
  storable_iff.mpr ⟨tableEntries_roomy t d, settled⟩

end Directory

end ContentStore
