import ContentStore.Proofs.Store.Memory
/-!
# A run of handle operations is a run on lists

Whatever bytes the files hold at first, a run of operations in which no write fails gives the
results of the same run on lists in memory, each list that is put in place of a table's being read
again, and leaves the same lists behind.  Where the tables are settled at first and every entry that
is written is storable, reading again changes nothing, and the lists are simply kept
(`runAll_eq_lists`).  A table with another number does not keep it: the next write of the table
changes it (`delete_changes_other`).  The step is `World.refines_act`; what it carries through the
run is that every list of the memory stays storable (`Memory.step_storable`).
-/

namespace ContentStore

open Json (Settled depth)

/-! ## Runs -/

/-- Operations on the files one after the other; one that fails does not stop the next. -/
def Operation.runAll (s : Store) :
    List Operation → World → List (Except StoreError Answer) × World
  | [], w => ([], w)
  | op :: rest, w =>
    let (result, w₁) := w.run (op.act s)
    let (results, w₂) := runAll s rest w₁
    (result :: results, w₂)

/-- The memory with every list kept as it has been put. -/
def Memory.kept (m : Memory) : Memory := { m with written := fun _ => false }

/-- Operations on the lists one after the other; `settle` says what becomes of the lists that an
operation puts in place before the next one looks at them. -/
def Memory.runAll (settle : Memory → Memory) (strategy : IdStrategy) :
    List Operation → Memory → List (Except StoreError Answer) × Memory
  | [], m => ([], m)
  | op :: rest, m =>
    let (result, m₁) := m.step strategy op
    let (results, m₂) := runAll settle strategy rest (settle m₁)
    (result :: results, m₂)

/-- The entries that an operation put into its table, by its result. -/
def Operation.written : Operation → Except StoreError Answer → List Json
  | create _ _, .ok (.record r) => [.object r]
  | createFrom _ _, .ok (.record r) => [.object r]
  | bulkCreate _ _, .ok (.records list) => list.map .object
  | update _ _ _, .ok (.found (some r)) => [.object r]
  | restore _ snapshot, .ok _ => snapshot.map Subtype.val
  | _, _ => []

/-! ## Lists that stay storable -/

theorem mem_of_amendFirst {id : String} {change : Record → Record} {items after : List Json}
    {record : Record} (amends : amendFirst id change items = some (record, after)) {v : Json}
    (mem : v ∈ after) : v = .object record ∨ v ∈ items := by
  rw [amendFirst_eq] at amends
  obtain ⟨i, -, amends⟩ := Option.bind_eq_some_iff.mp amends
  obtain ⟨old, -, amends⟩ := Option.bind_eq_some_iff.mp amends
  cases amends
  exact (List.mem_or_eq_of_mem_set mem).symm

theorem mem_of_removeFirst {id : String} {items after : List Json}
    (removes : removeFirst id items = some after) {v : Json} (mem : v ∈ after) : v ∈ items := by
  rw [removeFirst_eq] at removes
  obtain ⟨i, -, rfl⟩ := Option.map_eq_some_iff.mp removes
  exact List.mem_of_mem_eraseIdx mem

namespace Memory

/-- Every list of the memory is storable. -/
def AllStorable (m : Memory) : Prop := ∀ t, Storable (m.entries t)

theorem AllStorable.put {m : Memory} (all : m.AllStorable) (t : Table) {items : List Json}
    (storable : Storable items) : (m.put t items).AllStorable := by
  intro other
  rw [entries_put]
  split
  · exact storable
  · exact all other

theorem AllStorable.append {m : Memory} (all : m.AllStorable) (t : Table) {items : List Json}
    (storable : Storable items) : (m.put t (m.entries t ++ items)).AllStorable :=
  all.put t (List.forall_mem_append.mpr ⟨all t, storable⟩)

theorem AllStorable.of_entries {m m' : Memory} (all : m.AllStorable)
    (same : m'.entries = m.entries) : m'.AllStorable :=
  fun t => same ▸ all t

/-- Lists that are storable are kept when they are read again. -/
theorem AllStorable.readBack {m : Memory} (all : m.AllStorable) : m.readBack = m.kept := by
  have same : (fun t => if m.written t then rereadEntries (m.entries t) else m.entries t) =
      m.entries := by
    funext t
    rw [rereadEntries_of_storable (all t), ite_self]
  exact congrArg (fun entries => Memory.mk entries (fun _ => false) m.clock m.readings m.chance
    m.draws) same

theorem create_storable {strategy : IdStrategy} {m : Memory} (all : m.AllStorable) (t : Table)
    {fields : Record} (storable : Storable [.object (m.create strategy t fields).1]) :
    (m.create strategy t fields).2.AllStorable :=
  (all.append t storable).of_entries (entries_create strategy m t fields)

theorem bulkCreate_storable {strategy : IdStrategy} {m : Memory} (all : m.AllStorable) (t : Table)
    {list : List Record} (storable : Storable ((m.bulkCreate strategy t list).1.map .object)) :
    (m.bulkCreate strategy t list).2.AllStorable :=
  (all.append t storable).of_entries (entries_bulkCreate strategy m t list)

theorem update_storable {m : Memory} (all : m.AllStorable) (t : Table) (id : String)
    {changes : Record} (storable : ∀ r, (m.update t id changes).1 = some r → Storable [.object r]) :
    (m.update t id changes).2.AllStorable := by
  unfold update at storable ⊢
  split at storable
  · exact all
  · next record items amends =>
    refine all.put t fun v mem => ?_
    rcases mem_of_amendFirst amends mem with rfl | old
    · exact storable record rfl _ List.mem_cons_self
    · exact all t v old

theorem delete_storable {m : Memory} (all : m.AllStorable) (t : Table) (id : String) :
    (m.delete t id).2.AllStorable := by
  unfold delete
  split
  · exact all
  · next items removes => exact all.put t fun v mem => all t v (mem_of_removeFirst removes mem)

/-- The lists stay storable in an operation that puts only storable entries into its table. -/
theorem step_storable {strategy : IdStrategy} {m : Memory} {op : Operation}
    (all : m.AllStorable) (storable : Storable (op.written (m.step strategy op).1)) :
    (m.step strategy op).2.AllStorable := by
  cases op with
  | create t fields => exact create_storable all t storable
  | createFrom t value =>
    rw [step] at storable ⊢
    split at storable
    · exact create_storable all t storable
    · exact all
  | bulkCreate t list => exact bulkCreate_storable all t storable
  | update t id changes =>
    refine update_storable all t id fun r found => ?_
    rw [step, answered, found] at storable
    exact storable
  | delete t id => exact delete_storable all t id
  | truncate t => exact all.put t fun _ mem => absurd mem List.not_mem_nil
  | restore t snapshot => exact all.put t storable
  | getAllAs t reader =>
    rw [step]
    split <;> exact all
  | getByIdAs t id reader =>
    rw [step]
    split <;> exact all
  | _ => exact all

end Memory

/-- A run that puts only storable entries into its tables keeps the lists that it puts. -/
theorem Memory.runAll_kept {strategy : IdStrategy} {ops : List Operation} {m : Memory}
    (all : m.AllStorable)
    (storable : ∀ p ∈ ops.zip (m.runAll readBack strategy ops).1, Storable (p.1.written p.2)) :
    m.runAll readBack strategy ops = m.runAll kept strategy ops := by
  induction ops generalizing m with
  | nil => rfl
  | cons op rest ih =>
    obtain ⟨storableOp, storableRest⟩ := List.forall_mem_cons.mp storable
    have still : (m.step strategy op).2.AllStorable := step_storable all storableOp
    have same := still.readBack
    have later : (m.step strategy op).2.kept.runAll readBack strategy rest =
        (m.step strategy op).2.kept.runAll kept strategy rest :=
      ih still (same ▸ storableRest)
    rw [runAll, runAll]
    dsimp only
    rw [same, later]

theorem World.memory_allStorable {w : World}
    (settled : ∀ t, ∀ v ∈ w.directory.tableEntries t, Settled v) : w.memory.AllStorable :=
  fun t => Directory.tableEntries_storable (settled t)

/-- A run of handle operations in which no write fails is a run on lists that are read again. -/
theorem runAll_eq_readBack (s : Store) (ops : List Operation) (w : World)
    (succeed : ∀ result ∈ (Operation.runAll s ops w).1, writeFailed result = false) :
    (Operation.runAll s ops w).1 =
        (w.memory.runAll Memory.readBack s.config.idStrategy ops).1 ∧
      (Operation.runAll s ops w).2.memory =
        (w.memory.runAll Memory.readBack s.config.idStrategy ops).2 := by
  induction ops generalizing w with
  | nil => exact ⟨rfl, rfl⟩
  | cons op rest ih =>
    obtain ⟨succeedOp, succeedRest⟩ := List.forall_mem_cons.mp succeed
    obtain ⟨sameResult, memory⟩ := World.refines_act s op w succeedOp
    obtain ⟨sameResults, memoryAfter⟩ := ih (w.run (op.act s)).2 succeedRest
    rw [memory] at sameResults memoryAfter
    exact ⟨congrArg₂ List.cons sameResult sameResults, memoryAfter⟩

/-- A run of handle operations in which no write fails is a run on lists, each of which is read
again when it has been put in place; and these lists are kept as they are where the tables are
settled at first and every written entry leaves room for the array around it and is settled. -/
theorem runAll_eq_lists (s : Store) (ops : List Operation) (w : World)
    (succeed : ∀ result ∈ (Operation.runAll s ops w).1, writeFailed result = false) :
    ((Operation.runAll s ops w).1 =
        (w.memory.runAll Memory.readBack s.config.idStrategy ops).1 ∧
      (Operation.runAll s ops w).2.memory =
        (w.memory.runAll Memory.readBack s.config.idStrategy ops).2) ∧
    ((∀ t, ∀ v ∈ w.directory.tableEntries t, Settled v) →
      (∀ p ∈ ops.zip (Operation.runAll s ops w).1, Storable (p.1.written p.2)) →
      (Operation.runAll s ops w).1 = (w.memory.runAll Memory.kept s.config.idStrategy ops).1 ∧
        (Operation.runAll s ops w).2.memory =
          (w.memory.runAll Memory.kept s.config.idStrategy ops).2) := by
  have run := runAll_eq_readBack s ops w succeed
  refine ⟨run, fun settled storable => ?_⟩
  rw [run.1] at storable
  rw [← Memory.runAll_kept (World.memory_allStorable settled) storable]
  exact run

/-- A record is changed and another one removed. -/
theorem runAll_eq_lists_filled :
    let s : Store := ⟨"data", .default⟩
    let file := "[\x7b\"id\":\"a\",\"x\":0.1\x7d,\x7b\"id\":\"b\"\x7d]".toUTF8
    let w : World :=
      ⟨Directory.empty.set Table.pages.fileName (.file file), fun _ => ⟨0, 0⟩, 0, fun _ => 0, 0⟩
    let given : Fields :=
      ⟨[("title", .text "Home")], List.pairwise_singleton _ _, trivial, trivial⟩
    let ops : List Operation := [.update .pages "a" given, .delete .pages "b"]
    (∀ result ∈ (Operation.runAll s ops w).1, writeFailed result = false) ∧
      (∀ t, ∀ v ∈ w.directory.tableEntries t, Settled v) ∧
      (∀ p ∈ ops.zip (Operation.runAll s ops w).1, Storable (p.1.written p.2)) ∧
      (Operation.runAll s ops w).1 = (w.memory.runAll Memory.kept s.config.idStrategy ops).1 ∧
      (Operation.runAll s ops w).2.memory =
        (w.memory.runAll Memory.kept s.config.idStrategy ops).2 := by
  intro s file w given ops
  have succeed : ∀ result ∈ (Operation.runAll s ops w).1, writeFailed result = false := by
    decide +kernel
  have settled : ∀ t, ∀ v ∈ w.directory.tableEntries t, Settled v := by
    intro t
    cases t <;> decide +kernel
  have storable : ∀ p ∈ ops.zip (Operation.runAll s ops w).1, Storable (p.1.written p.2) := by
    decide +kernel
  exact ⟨succeed, settled, storable, (runAll_eq_lists s ops w succeed).2 settled storable⟩

/-- The text of the record that an answer tells of. -/
def Answer.foundText? : Except StoreError Answer → Option String
  | .ok (.found (some r)) => some (Json.toText (.object r))
  | _ => none

/-- The removal of another entry changes a number of the one that stays. -/
theorem delete_changes_other :
    let s : Store := ⟨"data", .default⟩
    let file := "[\x7b\"id\":\"a\",\"x\":10e-25\x7d,\x7b\"id\":\"b\"\x7d]".toUTF8
    let w : World :=
      ⟨Directory.empty.set Table.pages.fileName (.file file), fun _ => ⟨0, 0⟩, 0, fun _ => 0, 0⟩
    let ops : List Operation := [.getById .pages "a", .delete .pages "b", .getById .pages "a"]
    let ran := Operation.runAll s ops w
    (∀ result ∈ ran.1, writeFailed result = false) ∧
      (∀ p ∈ ops.zip ran.1, Roomy (p.1.written p.2)) ∧
      ran.1.map Answer.foundText? =
        [some "\x7b\"id\":\"a\",\"x\":1e-24\x7d", none,
          some "\x7b\"id\":\"a\",\"x\":1.0000000000000001e-24\x7d"] ∧
      ran.1 ≠ (w.memory.runAll Memory.kept s.config.idStrategy ops).1 := by
  intro s file w ops ran
  have texts : ran.1.map Answer.foundText? =
      [some "\x7b\"id\":\"a\",\"x\":1e-24\x7d", none,
        some "\x7b\"id\":\"a\",\"x\":1.0000000000000001e-24\x7d"] := by
    decide +kernel
  refine ⟨by decide +kernel, by decide +kernel, texts, fun same => ?_⟩
  have differ : ran.1.map Answer.foundText? ≠
      (w.memory.runAll Memory.kept s.config.idStrategy ops).1.map Answer.foundText? := by
    decide +kernel
  exact differ (congrArg (List.map Answer.foundText?) same)

end ContentStore
