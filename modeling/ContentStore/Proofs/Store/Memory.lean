import ContentStore.Proofs.Directory
import ContentStore.Proofs.Store.Records
import ContentStore.Proofs.Store.Run
/-!
# The store as lists in memory

A table is a list of entries, and an operation of a handle is a function of these lists.  This
module states what each operation does to the lists (`Memory.step`) and shows that one operation on
the files does the same, up to what a file does not give back: after an operation that did not fail
to write, a table whose list has been put anew holds this list as it is read, and every other table
holds its list (`refines_act`).
-/

namespace ContentStore

open Json (Ordered KeysAscend)

/-- The fields that a caller gives: a map from keys to values. -/
abbrev Fields := { fields : Record // Ordered (.object fields) }

/-- A value that a caller gives. -/
abbrev OrderedJson := { v : Json // Ordered v }

/-- An operation of the handle of a table. -/
inductive Operation where
  | create (t : Table) (fields : Fields)
  | createFrom (t : Table) (value : OrderedJson)
  | bulkCreate (t : Table) (list : List Fields)
  | update (t : Table) (id : String) (changes : Fields)
  | delete (t : Table) (id : String)
  | truncate (t : Table)
  | restore (t : Table) (snapshot : List OrderedJson)
  | backup (t : Table)
  | getAll (t : Table)
  | count (t : Table)
  | getById (t : Table) (id : String)
  | getWhere (t : Table) (test : Record → Bool)
  | page (t : Table) (number limit : Nat)
  | pageWhere (t : Table) (test : Record → Bool) (number limit : Nat)
  | search (t : Table) (term : String) (fields : List String)
  | getAllAs (t : Table) (reader : Record → Option Json)
  | getByIdAs (t : Table) (id : String) (reader : Record → Option Json)

/-- What an operation of a handle gives. -/
inductive Answer where
  | done
  | record (record : Record)
  | records (records : List Record)
  | found (record : Option Record)
  | deleted (hit : Bool)
  | entries (items : List Json)
  | number (n : Nat)
  | page (page : Page)
  | values (values : List Json)
  | value (value : Option Json)

/-- The operation on the files. -/
def Operation.act (s : Store) : Operation → Action Answer
  | create t fields => do return .record (← s.create t fields)
  | createFrom t value => do return .record (← s.createFrom t value)
  | bulkCreate t list => do return .records (← s.bulkCreate t (list.map Subtype.val))
  | update t id changes => do return .found (← s.update t id changes)
  | delete t id => do return .deleted (← s.delete t id)
  | truncate t => do
    s.truncate t
    return .done
  | restore t snapshot => do
    s.restore t (snapshot.map Subtype.val)
    return .done
  | backup t => do return .entries (← Store.load t)
  | getAll t => do return .records ((← get).directory.records t)
  | count t => do return .number ((← get).directory.count t)
  | getById t id => do return .found ((← get).directory.recordById? t id)
  | getWhere t test => do return .records ((← get).directory.recordsWhere t test)
  | page t number limit => do return .page (paginate ((← get).directory.records t) number limit)
  | pageWhere t test number limit => do
    return .page (paginate ((← get).directory.recordsWhere t test) number limit)
  | search t term fields => do return .records ((← get).directory.search t term fields)
  | getAllAs t reader => do
    match (← get).directory.recordsAs t reader with
    | .ok values => return .values values
    | .error e => throw e
  | getByIdAs t id reader => do
    match (← get).directory.recordByIdAs t id reader with
    | .ok value => return .value value
    | .error e => throw e

/-! ## The lists -/

/-- The entries of the tables, with the clock and chance of a world. -/
structure Memory where
  entries : Table → List Json
  /-- The list of the table has been put in its place since it was read. -/
  written : Table → Bool
  clock : Nat → Instant
  readings : Nat
  chance : Nat → Nat
  draws : Nat

/-- What a world holds: each table the entries that are read from its file. -/
def World.memory (w : World) : Memory :=
  ⟨fun t => w.directory.tableEntries t, fun _ => false, w.clock, w.readings, w.chance, w.draws⟩

/-- The entries that are objects. -/
def objects (items : List Json) : List Record := items.filterMap recordOf?

/-- Applies a change to the first entry with an identifier, in its place. -/
def amendFirst (id : String) (change : Record → Record) : List Json → Option (Record × List Json)
  | [] => none
  | entry :: rest =>
    if identifierText? entry = some id then
      (recordOf? entry).map fun r => (change r, .object (change r) :: rest)
    else (amendFirst id change rest).map fun (r, items) => (r, entry :: items)

/-- Removes the first entry with an identifier. -/
def removeFirst (id : String) : List Json → Option (List Json)
  | [] => none
  | entry :: rest =>
    if identifierText? entry = some id then some rest
    else (removeFirst id rest).map fun items => entry :: items

namespace Memory

/-- The memory with a list in the place of a table's. -/
def put (m : Memory) (t : Table) (items : List Json) : Memory :=
  { m with
    entries := fun other => if other = t then items else m.entries other
    written := fun other => other = t || m.written other }

theorem entries_put (m : Memory) (t : Table) (items : List Json) (other : Table) :
    (m.put t items).entries other = if other = t then items else m.entries other :=
  rfl

theorem written_put (m : Memory) (t : Table) (items : List Json) (other : Table) :
    (m.put t items).written other = (other = t || m.written other) :=
  rfl

/-- The record that is made with the reading and the draw that lie some steps ahead. -/
def stampedAhead (strategy : IdStrategy) (m : Memory) (steps : Nat) (fields : Record) : Record :=
  let now := m.clock (m.readings + steps)
  Record.stamped (Identifier.make strategy now (m.chance (m.draws + steps))) now.stamp fields

/-- Appends a new record to a table. -/
def create (strategy : IdStrategy) (m : Memory) (t : Table) (fields : Record) : Record × Memory :=
  let record := m.stampedAhead strategy 0 fields
  (record,
    { m.put t (m.entries t ++ [.object record]) with
      readings := m.readings + 1, draws := m.draws + 1 })

/-- Appends new records to a table; each takes a reading of the clock and a draw of chance. -/
def bulkCreate (strategy : IdStrategy) (m : Memory) (t : Table) (list : List Record) :
    List Record × Memory :=
  let created := list.mapIdx (m.stampedAhead strategy)
  (created,
    { m.put t (m.entries t ++ created.map .object) with
      readings := m.readings + list.length, draws := m.draws + list.length })

theorem create_fst (strategy : IdStrategy) (m : Memory) (t : Table) (fields : Record) :
    (m.create strategy t fields).1 = m.stampedAhead strategy 0 fields := by
  rw [create]

theorem entries_create (strategy : IdStrategy) (m : Memory) (t : Table) (fields : Record) :
    (m.create strategy t fields).2.entries =
      (m.put t (m.entries t ++ [.object (m.create strategy t fields).1])).entries := by
  rw [create]

theorem written_create (strategy : IdStrategy) (m : Memory) (t : Table) (fields : Record) :
    (m.create strategy t fields).2.written t = true := by
  rw [create]
  exact congrArg (· || m.written t) (decide_eq_true rfl)

theorem entries_bulkCreate (strategy : IdStrategy) (m : Memory) (t : Table) (list : List Record) :
    (m.bulkCreate strategy t list).2.entries =
      (m.put t (m.entries t ++ (m.bulkCreate strategy t list).1.map .object)).entries := by
  rw [bulkCreate]

/-- A record with a caller's changes and a stamp later than the record's own stamps. -/
def amended (m : Memory) (changes record : Record) : Record :=
  Record.amended (Instant.stampAfter (m.clock m.readings) (Store.lastStamp record)) record changes

/-- Changes the first entry with an identifier; without such an entry nothing changes. -/
def update (m : Memory) (t : Table) (id : String) (changes : Record) : Option Record × Memory :=
  match amendFirst id (m.amended changes) (m.entries t) with
  | none => (none, m)
  | some (record, items) => (some record, { m.put t items with readings := m.readings + 1 })

/-- Removes the first entry with an identifier; without such an entry nothing changes. -/
def delete (m : Memory) (t : Table) (id : String) : Bool × Memory :=
  match removeFirst id (m.entries t) with
  | none => (false, m)
  | some items => (true, m.put t items)

/-- The record of the first entry with an identifier. -/
def recordById? (m : Memory) (t : Table) (id : String) : Option Record :=
  ((m.entries t).find? fun entry => identifierText? entry = some id).bind recordOf?

/-- A result of an operation that succeeds. -/
def succeeded {α : Type} (result : α × Memory) : Except StoreError α × Memory :=
  (.ok result.1, result.2)

/-- A result as the answer of an operation that succeeds. -/
def answered {α β : Type} (answer : α → β) (result : α × Memory) : Except StoreError β × Memory :=
  (.ok (answer result.1), result.2)

/-- An operation on the lists. -/
def step (strategy : IdStrategy) (m : Memory) : Operation → Except StoreError Answer × Memory
  | .create t fields => answered .record (m.create strategy t fields)
  | .createFrom t value =>
    match recordOf? value with
    | some fields => answered .record (m.create strategy t fields)
    | none => (.error (.notAnObject t value), m)
  | .bulkCreate t list => answered .records (m.bulkCreate strategy t (list.map Subtype.val))
  | .update t id changes => answered .found (m.update t id changes)
  | .delete t id => answered .deleted (m.delete t id)
  | .truncate t => (.ok .done, m.put t [])
  | .restore t snapshot => (.ok .done, m.put t (snapshot.map Subtype.val))
  | .backup t => (.ok (.entries (m.entries t)), m)
  | .getAll t => (.ok (.records (objects (m.entries t))), m)
  | .count t => (.ok (.number (objects (m.entries t)).length), m)
  | .getById t id => (.ok (.found (m.recordById? t id)), m)
  | .getWhere t test => (.ok (.records ((objects (m.entries t)).filter test)), m)
  | .page t number limit => (.ok (.page (paginate (objects (m.entries t)) number limit)), m)
  | .pageWhere t test number limit =>
    (.ok (.page (paginate ((objects (m.entries t)).filter test) number limit)), m)
  | .search t term fields =>
    let shown := Directory.shows (Text.lower term.toList) fields
    (.ok (.records ((objects (m.entries t)).filter shown)), m)
  | .getAllAs t reader =>
    match (objects (m.entries t)).mapM reader with
    | some values => (.ok (.values values), m)
    | none => (.error .json, m)
  | .getByIdAs t id reader =>
    match (m.recordById? t id).map reader with
    | some none => (.error .json, m)
    | some (some value) => (.ok (.value (some value)), m)
    | none => (.ok (.value none), m)

/-- The memory as the files give it back: the lists that have been put are read again. -/
def readBack (m : Memory) : Memory :=
  { m with
    entries := fun t => if m.written t then rereadEntries (m.entries t) else m.entries t
    written := fun _ => false }

end Memory

/-! ## The first entry with an identifier -/

theorem findIdx?_cons_identifier (id : String) (entry : Json) (rest : List Json) :
    (entry :: rest).findIdx? (hasId id) =
      if identifierText? entry = some id then some 0
      else (rest.findIdx? (hasId id)).map (· + 1) := by
  rw [List.findIdx?_cons]
  exact ite_congr (propext (hasId_iff _ _)) (fun _ => rfl) fun _ => rfl

/-- The change of the first entry with an identifier is a change at its place. -/
theorem amendFirst_eq (id : String) (change : Record → Record) (items : List Json) :
    amendFirst id change items = do
      let i ← items.findIdx? (hasId id)
      let record ← items[i]?.bind recordOf?
      return (change record, items.set i (.object (change record))) := by
  induction items with
  | nil => rfl
  | cons entry rest ih =>
    rw [amendFirst, findIdx?_cons_identifier]
    split
    · simp only [Option.bind_eq_bind, Option.bind_some, List.getElem?_cons_zero]
      cases recordOf? entry <;> rfl
    · rw [ih]
      cases rest.findIdx? (hasId id) with
      | none => rfl
      | some i =>
        simp only [Option.bind_eq_bind, Option.bind_some, Option.map_some, List.getElem?_cons_succ]
        cases rest[i]?.bind recordOf? <;> rfl

/-- The removal of the first entry with an identifier is a removal at its place. -/
theorem removeFirst_eq (id : String) (items : List Json) :
    removeFirst id items = (items.findIdx? (hasId id)).map items.eraseIdx := by
  induction items with
  | nil => rfl
  | cons entry rest ih =>
    rw [removeFirst, findIdx?_cons_identifier]
    split
    · rfl
    · rw [ih]
      cases rest.findIdx? (hasId id) <;> rfl

/-- The first entry with an identifier stands behind entries that do not have it. -/
structure FirstWith (id : String) (items front : List Json) (old : Record) (back : List Json) :
    Prop where
  split : items = front ++ .object old :: back
  has : identifierText? (.object old) = some id
  first : ∀ entry ∈ front, identifierText? entry ≠ some id

theorem FirstWith.cons {id : String} {items front back : List Json} {old : Record} {entry : Json}
    (found : FirstWith id items front old back) (other : identifierText? entry ≠ some id) :
    FirstWith id (entry :: items) (entry :: front) old back :=
  ⟨congrArg (entry :: ·) found.split, found.has, List.forall_mem_cons.mpr ⟨other, found.first⟩⟩

theorem FirstWith.find? {id : String} {items front back : List Json} {old : Record}
    (found : FirstWith id items front old back) :
    (items.find? fun entry => identifierText? entry = some id) = some (.object old) := by
  rw [found.split, List.find?_append, List.find?_eq_none.mpr fun entry mem => by
    simp [found.first entry mem]]
  simp [found.has]

/-- Only an object has an identifier. -/
theorem exists_object {id : String} {entry : Json} (has : identifierText? entry = some id) :
    ∃ old, entry = .object old := by
  cases entry with
  | object old => exact ⟨old, rfl⟩
  | _ => cases has

theorem amendFirst_eq_some {id : String} {change : Record → Record} {items after : List Json}
    {record : Record} (amends : amendFirst id change items = some (record, after)) :
    ∃ front old back, FirstWith id items front old back ∧ record = change old ∧
      after = front ++ .object record :: back := by
  induction items generalizing after with
  | nil => cases amends
  | cons entry rest ih =>
    rw [amendFirst] at amends
    split at amends
    · next has =>
      obtain ⟨old, rfl⟩ := exists_object has
      cases amends
      exact ⟨[], old, rest, ⟨rfl, has, nofun⟩, rfl, rfl⟩
    · next other =>
      obtain ⟨⟨r, items⟩, found, same⟩ := Option.map_eq_some_iff.mp amends
      cases same
      obtain ⟨front, old, back, first, changed, rfl⟩ := ih found
      exact ⟨entry :: front, old, back, first.cons other, changed, rfl⟩

theorem removeFirst_eq_some {id : String} {items after : List Json}
    (removes : removeFirst id items = some after) :
    ∃ front old back, FirstWith id items front old back ∧ after = front ++ back := by
  induction items generalizing after with
  | nil => cases removes
  | cons entry rest ih =>
    rw [removeFirst] at removes
    split at removes
    · next has =>
      obtain ⟨old, rfl⟩ := exists_object has
      cases removes
      exact ⟨[], old, rest, ⟨rfl, has, nofun⟩, rfl⟩
    · next other =>
      obtain ⟨items, found, rfl⟩ := Option.map_eq_some_iff.mp removes
      obtain ⟨front, old, back, first, rfl⟩ := ih found
      exact ⟨entry :: front, old, back, first.cons other, rfl⟩

namespace Memory

/-- A change that finds a record replaces it in its place. -/
theorem update_eq_some {m : Memory} {t : Table} {id : String} {changes record : Record}
    (found : (m.update t id changes).1 = some record) :
    ∃ front old back, FirstWith id (m.entries t) front old back ∧ record = m.amended changes old ∧
      (m.update t id changes).2 =
        { m.put t (front ++ .object record :: back) with readings := m.readings + 1 } := by
  unfold update at found ⊢
  split at found
  · cases found
  · next amends =>
    cases found
    obtain ⟨front, old, back, first, changed, rfl⟩ := amendFirst_eq_some amends
    exact ⟨front, old, back, first, changed, rfl⟩

/-- A change that finds no record changes nothing. -/
theorem update_eq_none {m : Memory} {t : Table} {id : String} {changes : Record}
    (absent : (m.update t id changes).1 = none) : (m.update t id changes).2 = m := by
  unfold update at absent ⊢
  split at absent
  · rfl
  · cases absent

theorem delete_eq_true {m : Memory} {t : Table} {id : String} (hit : (m.delete t id).1 = true) :
    ∃ front old back, FirstWith id (m.entries t) front old back ∧
      (m.delete t id).2 = m.put t (front ++ back) := by
  unfold delete at hit ⊢
  split at hit
  · cases hit
  · next removes =>
    obtain ⟨front, old, back, first, rfl⟩ := removeFirst_eq_some removes
    exact ⟨front, old, back, first, rfl⟩

theorem delete_eq_false {m : Memory} {t : Table} {id : String} (miss : (m.delete t id).1 = false) :
    (m.delete t id).2 = m := by
  unfold delete at miss ⊢
  split at miss
  · rfl
  · cases miss

end Memory

/-! ## One operation -/

/-- An operation failed because a file could not be written. -/
def writeFailed {α : Type} : Except StoreError α → Bool
  | .error .io => true
  | .error (.persist _) => true
  | _ => false

/-- An operation on the files gave what it gives on the lists and left the lists behind, up to what
the files lose; or it failed to write. -/
def Refines {α : Type} (files : Except StoreError α × World)
    (lists : Except StoreError α × Memory) : Prop :=
  writeFailed files.1 = false → files.1 = lists.1 ∧ files.2.memory = lists.2.readBack

namespace World

theorem memory_entries (w : World) (t : Table) : w.memory.entries t = w.directory.tableEntries t :=
  rfl

theorem records_eq (w : World) (t : Table) :
    w.directory.records t = objects (w.memory.entries t) :=
  rfl

theorem readBack_memory (w : World) : w.memory.readBack = w.memory := rfl

/-- What a written world holds. -/
theorem memory_of_written {s : Store} {t : Table} {items : List Json} {w : World} {d : Directory}
    (ordered : OrderedEntries items) (written : w.directory.writeTable s.config t items = .ok d) :
    { w with directory := d : World }.memory = (w.memory.put t items).readBack := by
  have same : (fun other => d.tableEntries other) = (w.memory.put t items).readBack.entries := by
    funext other
    by_cases here : other = t
    · subst here
      rw [Directory.tableEntries_writeTable ordered written]
      simp [Memory.readBack, Memory.entries_put, Memory.written_put]
    · rw [Directory.tableEntries_writeTable_other (Ne.symm here) written]
      simp [Memory.readBack, Memory.entries_put, Memory.written_put, here, memory]
  exact congrArg (fun entries => Memory.mk entries (fun _ => false) w.clock w.readings w.chance
    w.draws) same

theorem writeFailed_error {α β : Type} {e : StoreError} :
    writeFailed (.error e : Except StoreError α) =
      writeFailed (.error e : Except StoreError β) := by
  cases e <;> rfl

theorem writeFailed_of_writeTable {α : Type} {config : Config} {t : Table} {items : List Json}
    {d : Directory} {e : StoreError} (fails : d.writeTable config t items = .error e) :
    writeFailed (.error e : Except StoreError α) = true := by
  by_cases writable : d.Writable t
  · rw [Directory.writeTable_of_writable config items writable] at fails
    cases fails
  · rw [Directory.writeTable_of_folder config items writable] at fails
    cases fails
    unfold Directory.writeFailure
    cases config.atomicWrites <;> rfl

variable {α β : Type}

/-- A list is written. -/
theorem refines_save (s : Store) (t : Table) {items : List Json} (w : World)
    (ordered : OrderedEntries items) :
    Refines (w.run (s.save t items)) (Memory.succeeded ((), w.memory.put t items)) := by
  intro succeeds
  rw [run_save] at succeeds ⊢
  cases written : w.directory.writeTable s.config t items with
  | ok d => exact ⟨rfl, memory_of_written ordered written⟩
  | error e =>
    rw [written] at succeeds
    exact absurd succeeds (Bool.not_eq_false _ ▸ writeFailed_of_writeTable written)

/-- Nothing is written. -/
theorem refines_same (w : World) (result : Except StoreError α) :
    Refines (result, w) (result, w.memory) :=
  fun _ => ⟨rfl, w.readBack_memory.symm⟩

/-- What is given is looked at in another way. -/
theorem refines_answered {w : World} {action : Action α} {result : α × Memory} (answer : α → β)
    (refines : Refines (w.run action) (Memory.succeeded result)) :
    Refines (w.run (do return answer (← action))) (Memory.answered answer result) := by
  intro succeeds
  rw [run_bind] at succeeds ⊢
  rcases runs : w.run action with ⟨_ | a, w'⟩
  · rw [runs] at succeeds refines
    exact nomatch (refines (writeFailed_error.trans succeeds)).1
  · rw [runs] at refines
    obtain ⟨same, memory⟩ := refines rfl
    cases same
    exact ⟨rfl, memory⟩

/-- A list is written, and something is given. -/
theorem refines_save_give (s : Store) (t : Table) {items : List Json} (w : World) (a : α)
    (ordered : OrderedEntries items) :
    Refines (w.run (do
      s.save t items
      return a)) (Memory.succeeded (a, w.memory.put t items)) :=
  refines_answered (fun () => a) (refines_save s t w ordered)

theorem newRecordAhead_eq (strategy : IdStrategy) (w : World) (steps : Nat) {fields : Record}
    (ordered : Ordered (.object fields)) :
    w.newRecordAhead strategy steps fields = w.memory.stampedAhead strategy steps fields :=
  Store.newRecord_eq_stamped ordered.1 _ _

theorem refines_create (s : Store) (t : Table) (w : World) {fields : Record}
    (ordered : Ordered (.object fields)) :
    Refines (w.run (s.create t fields))
      (Memory.succeeded (w.memory.create s.config.idStrategy t fields)) := by
  have orderedItems : OrderedEntries
      (w.directory.tableEntries t ++ [.object (w.newRecordAhead s.config.idStrategy 0 fields)]) :=
    List.forall_mem_append.mpr ⟨w.directory.tableEntries_ordered t,
      List.forall_mem_singleton.mpr (Store.newRecord_ordered ordered _ _)⟩
  rw [Store.create, run_bind_ok _ (run_load t w), run_bind_ok _ (run_stampNew s fields w),
    Memory.create, ← newRecordAhead_eq _ w 0 ordered]
  exact refines_save_give s t _ _ orderedItems

theorem refines_bulkCreate (s : Store) (t : Table) (w : World) {list : List Record}
    (ordered : ∀ fields ∈ list, Ordered (.object fields)) :
    Refines (w.run (s.bulkCreate t list))
      (Memory.succeeded (w.memory.bulkCreate s.config.idStrategy t list)) := by
  have created : list.mapIdx (w.newRecordAhead s.config.idStrategy) =
      list.mapIdx (w.memory.stampedAhead s.config.idStrategy) :=
    List.mapIdx_eq_mapIdx_iff.mpr fun i h =>
      newRecordAhead_eq _ w i (ordered _ (List.getElem_mem h))
  have orderedItems : OrderedEntries (w.directory.tableEntries t ++
      (list.mapIdx (w.newRecordAhead s.config.idStrategy)).map .object) := by
    refine List.forall_mem_append.mpr ⟨w.directory.tableEntries_ordered t, fun v mem => ?_⟩
    obtain ⟨record, made, rfl⟩ := List.mem_map.mp mem
    obtain ⟨i, h, rfl⟩ := List.mem_mapIdx.mp made
    exact Store.newRecord_ordered (ordered _ (List.getElem_mem h)) _ _
  rw [Store.bulkCreate, run_bind_ok _ (run_load t w), run_bind_ok _ (run_stampAll s list w),
    Memory.bulkCreate, ← created]
  exact refines_save_give s t _ _ orderedItems

theorem refines_update (s : Store) (t : Table) (w : World) (id : String) {changes : Record}
    (ordered : Ordered (.object changes)) :
    Refines (w.run (s.update t id changes))
      (Memory.succeeded (w.memory.update t id changes)) := by
  have orderedItems := w.directory.tableEntries_ordered t
  have change : ∀ record, Ordered (.object record) →
      Store.changed (w.clock w.readings) record changes = w.memory.amended changes record :=
    fun record orderedRecord => Store.changed_eq_amended orderedRecord.1 ordered.1 _
  rw [Store.update, run_bind_ok _ (run_load t w), Memory.update, amendFirst_eq, memory_entries]
  cases (w.directory.tableEntries t).findIdx? (hasId id) with
  | none => exact refines_same w _
  | some i =>
    simp only [Option.bind_eq_bind, Option.bind_some]
    cases here : (w.directory.tableEntries t)[i]? with
    | none => exact refines_same w _
    | some entry =>
      cases entry with
      | object record =>
        have orderedRecord := orderedItems _ (List.mem_of_getElem? here)
        rw [run_bind_ok _ (run_now w), change record orderedRecord]
        refine refines_save_give s t _ _ fun v mem => ?_
        rcases List.mem_or_eq_of_mem_set mem with old | rfl
        · exact orderedItems v old
        · exact change record orderedRecord ▸ Store.changed_ordered orderedRecord ordered _
      | _ => exact refines_same w _

theorem refines_delete (s : Store) (t : Table) (w : World) (id : String) :
    Refines (w.run (s.delete t id))
      (Memory.succeeded (w.memory.delete t id)) := by
  rw [Store.delete, run_bind_ok _ (run_load t w), Memory.delete, removeFirst_eq, memory_entries]
  cases (w.directory.tableEntries t).findIdx? (hasId id) with
  | none => exact refines_same w _
  | some i =>
    refine refines_save_give s t w _ fun v mem => ?_
    exact w.directory.tableEntries_ordered t v (List.mem_of_mem_eraseIdx mem)

/-- One record that its reader refuses fails all of them. -/
theorem mapM_reader (reader : Record → Option Json) (list : List Record) :
    (list.mapM fun r => (reader r).elim (Except.error StoreError.json) .ok) =
      (list.mapM reader).elim (.error .json) .ok := by
  induction list with
  | nil => rfl
  | cons r rest ih =>
    rw [List.mapM_cons, List.mapM_cons, ih]
    cases reader r with
    | none => rfl
    | some value => cases rest.mapM reader <;> rfl

theorem refines_getAllAs (s : Store) (t : Table) (w : World) (reader : Record → Option Json) :
    Refines (w.run ((Operation.getAllAs t reader).act s))
      (w.memory.step s.config.idStrategy (.getAllAs t reader)) := by
  rw [Operation.act, run_bind_ok _ (run_get w), Directory.recordsAs, mapM_reader, records_eq,
    Memory.step]
  cases (objects (w.memory.entries t)).mapM reader <;> exact refines_same w _

theorem recordById?_eq (t : Table) (w : World) (id : String) :
    w.directory.recordById? t id = w.memory.recordById? t id :=
  find?_records id _

theorem refines_getByIdAs (s : Store) (t : Table) (w : World) (id : String)
    (reader : Record → Option Json) :
    Refines (w.run ((Operation.getByIdAs t id reader).act s))
      (w.memory.step s.config.idStrategy (.getByIdAs t id reader)) := by
  rw [Operation.act, run_bind_ok _ (run_get w), Directory.recordByIdAs, recordById?_eq, Memory.step]
  cases w.memory.recordById? t id with
  | none => exact refines_same w _
  | some r =>
    rw [Option.map_some]
    dsimp only
    cases reader r <;> exact refines_same w _

/-- One operation on the files does what it does on the lists. -/
theorem refines_act (s : Store) (op : Operation) (w : World) :
    Refines (w.run (op.act s)) (w.memory.step s.config.idStrategy op) := by
  cases op with
  | create t fields => exact refines_answered Answer.record (refines_create s t w fields.property)
  | createFrom t value =>
    obtain ⟨v, ordered⟩ := value
    cases v with
    | object fields => exact refines_answered Answer.record (refines_create s t w ordered)
    | _ => exact refines_same w _
  | bulkCreate t list =>
    refine refines_answered Answer.records (refines_bulkCreate s t w fun fields mem => ?_)
    obtain ⟨f, -, rfl⟩ := List.mem_map.mp mem
    exact f.property
  | update t id changes =>
    exact refines_answered Answer.found (refines_update s t w id changes.property)
  | delete t id => exact refines_answered Answer.deleted (refines_delete s t w id)
  | truncate t => exact refines_save_give s t w Answer.done fun _ mem => absurd mem List.not_mem_nil
  | restore t snapshot =>
    refine refines_save_give s t w Answer.done fun v mem => ?_
    obtain ⟨entry, -, rfl⟩ := List.mem_map.mp mem
    exact entry.property
  | getById t id =>
    rw [Operation.act, run_bind_ok _ (run_get w), recordById?_eq]
    exact refines_same w _
  | getAllAs t reader => exact refines_getAllAs s t w reader
  | getByIdAs t id reader => exact refines_getByIdAs s t w id reader
  | _ => exact refines_same w _

end World

end ContentStore
