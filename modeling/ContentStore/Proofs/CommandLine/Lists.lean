import ContentStore.Proofs.CommandLine.Run
import ContentStore.Proofs.Sql.Lists
/-!
# Commands on lists in memory

What a command of the command line does to the lists of entries (`Memory.perform`).  A command that
succeeds on the files does the same, and the lists that it has put are read again
(`memory_of_reply`).  The end of the program leaves every list as it is (`memory_ended`).
-/

namespace ContentStore

open CommandLine (Command Request Reply)
open Json (Ordered)

/-- The lists after a command that succeeds. -/
def Memory.perform (strategy : IdStrategy) (texts : String → Option String) (m : Memory)
    (command : Command) : Memory :=
  match command with
  | .insert name fields =>
    match Table.lookup? name with
    | some t => (m.create strategy t (CommandLine.looseRecord fields)).2
    | none => m
  | .update name id fields =>
    match Table.lookup? name with
    | some t => (m.update t id (CommandLine.looseRecord fields)).2
    | none => m
  | .delete name id dryRun =>
    match Table.lookup? name with
    | some t => if dryRun then m else (m.delete t id).2
    | none => m
  | .sql statement params =>
    (m.executeText strategy statement (params.map CommandLine.looseValue)).2
  | .restore name file =>
    match Table.lookup? name, CommandLine.snapshotOf file (texts file) with
    | some t, .ok entries => m.put t entries
    | _, _ => m
  | .truncate name =>
    match Table.lookup? name with
    | some t => m.put t []
    | none => m
  | .get _ _ | .list _ _ _ | .search _ _ _ | .backup _ | .status => m

/-! ## The values of arguments and snapshots -/

namespace CommandLine

theorem looseValue_ordered (argument : String) : Ordered (looseValue argument) := by
  unfold looseValue
  cases read : Json.read? argument with
  | none => trivial
  | some v => exact (Json.readWithin_fits read).1

theorem looseRecord_ordered (fields : List (String × String)) :
    Ordered (.object (looseRecord fields)) := by
  refine Json.Ordered.setAll ⟨Json.keysAscend_nil, trivial⟩ fun p mem => ?_
  obtain ⟨field, -, rfl⟩ := List.mem_map.mp mem
  exact looseValue_ordered field.2

theorem snapshotOf_ordered {file : String} {text : Option String} {entries : List Json}
    (reads : snapshotOf file text = .ok entries) : OrderedEntries entries := by
  unfold snapshotOf at reads
  split at reads
  · cases reads
  split at reads
  · cases reads
  · next read =>
    cases reads
    exact Json.orderedItems_iff.mp (Json.readWithin_fits read).1
  · cases reads

end CommandLine

/-! ## A command that succeeds -/

namespace World

variable {α : Type}

/-- An operation that succeeds leaves the lists that it leaves in memory. -/
theorem memory_of_refines {files : Except StoreError α × World}
    {lists : Except StoreError α × Memory} {a : α} {w' : World} (refines : Refines files lists)
    (runs : files = (.ok a, w')) : w'.memory = lists.2.readBack := by
  rw [runs] at refines
  exact (refines rfl).2

theorem memory_of_succeeded {files : Except StoreError α × World} {result : α × Memory} {a : α}
    {w' : World} (refines : Refines files (Memory.succeeded result))
    (runs : files = (.ok a, w')) : w'.memory = result.2.readBack :=
  memory_of_refines refines runs

theorem memory_of_perform {root : String} {config : Config} {texts : String → Option String}
    {w w' : World} {command : Command} {v : Json}
    (runs : w.run (CommandLine.perform ⟨root, config⟩ texts command) =
      (.ok v, w')) :
    w'.memory = (w.memory.perform config.idStrategy texts command).readBack := by
  cases command with
  | get name id =>
    obtain ⟨t, -, runs⟩ := CommandLine.run_named_eq_ok runs
    obtain ⟨w₀, w₁, here, runs⟩ := run_bind_eq_ok runs
    cases here
    cases found : w.directory.recordById? t id <;> rw [found] at runs <;> cases runs
    exact w.readBack_memory.symm
  | list name page limit =>
    obtain ⟨t, -, runs⟩ := CommandLine.run_named_eq_ok runs
    cases runs
    exact w.readBack_memory.symm
  | search name term fields =>
    obtain ⟨t, -, runs⟩ := CommandLine.run_named_eq_ok runs
    cases runs
    exact w.readBack_memory.symm
  | insert name fields =>
    obtain ⟨t, named, runs⟩ := CommandLine.run_named_eq_ok runs
    obtain ⟨record, w₁, creates, runs⟩ := run_bind_eq_ok runs
    cases runs
    simp only [Memory.perform, named]
    exact memory_of_succeeded
      (refines_create ⟨root, config⟩ t w (CommandLine.looseRecord_ordered fields))
      (CommandLine.run_ofAction_eq_ok creates)
  | update name id fields =>
    obtain ⟨t, named, runs⟩ := CommandLine.run_named_eq_ok runs
    obtain ⟨found, w₁, updates, runs⟩ := run_bind_eq_ok runs
    have memory := memory_of_succeeded
      (refines_update ⟨root, config⟩ t w id (CommandLine.looseRecord_ordered fields))
      (CommandLine.run_ofAction_eq_ok updates)
    simp only [Memory.perform, named]
    cases found <;> cases runs
    exact memory
  | delete name id dryRun =>
    obtain ⟨t, named, runs⟩ := CommandLine.run_named_eq_ok runs
    simp only [Memory.perform, named]
    cases dryRun with
    | true =>
      cases runs
      exact w.readBack_memory.symm
    | false =>
      obtain ⟨hit, w₁, deletes, runs⟩ := run_bind_eq_ok runs
      have memory := memory_of_succeeded (refines_delete ⟨root, config⟩ t w id)
        (CommandLine.run_ofAction_eq_ok deletes)
      cases hit <;> cases runs
      exact memory
  | sql statement params =>
    obtain ⟨outcome, w₁, executes, runs⟩ := run_bind_eq_ok runs
    cases runs
    refine memory_of_refines (refines_execute ⟨root, config⟩ w statement fun v mem => ?_)
      (CommandLine.run_ofAction_eq_ok executes)
    obtain ⟨argument, -, rfl⟩ := List.mem_map.mp mem
    exact CommandLine.looseValue_ordered argument
  | backup name =>
    obtain ⟨t, -, runs⟩ := CommandLine.run_named_eq_ok runs
    cases runs
    exact w.readBack_memory.symm
  | restore name file =>
    obtain ⟨t, named, runs⟩ := CommandLine.run_named_eq_ok runs
    cases snapshot : CommandLine.snapshotOf file (texts file) with
    | error failure =>
      rw [snapshot] at runs
      cases runs
    | ok entries =>
      rw [snapshot] at runs
      obtain ⟨_, w₁, restores, runs⟩ := run_bind_eq_ok runs
      cases runs
      simp only [Memory.perform, named, snapshot]
      exact memory_of_succeeded
        (refines_save ⟨root, config⟩ t w (CommandLine.snapshotOf_ordered snapshot))
        (CommandLine.run_ofAction_eq_ok restores)
  | truncate name =>
    obtain ⟨t, named, runs⟩ := CommandLine.run_named_eq_ok runs
    obtain ⟨_, w₁, truncates, runs⟩ := run_bind_eq_ok runs
    cases runs
    simp only [Memory.perform, named]
    exact memory_of_succeeded
      (refines_save ⟨root, config⟩ t w fun _ mem => absurd mem List.not_mem_nil)
      (CommandLine.run_ofAction_eq_ok truncates)
  | status =>
    cases runs
    exact w.readBack_memory.symm

/-- The end of the program leaves the tables, the clock and chance. -/
theorem memory_ended (result : Except CommandLine.Failure Json) (w : World) :
    (CommandLine.ended result w).memory = w.memory := by
  rcases CommandLine.ended_cases result w with ⟨same, -⟩ | ⟨bytes, entropy, -, leaves⟩
  · rw [same]
  · have tables : (fun t => (CommandLine.ended result w).directory.tableEntries t) =
        fun t => w.directory.tableEntries t :=
      funext (CommandLine.tableEntries_leavesNewFile leaves)
    have same := leaves.eq
    rw [same] at tables ⊢
    exact congrArg (fun entries => Memory.mk entries (fun _ => false) w.clock w.readings w.chance
      w.draws) tables

/-- A request that succeeds leaves the lists that its command leaves in memory. -/
theorem memory_of_reply {r : Request} {root : String} {texts : String → Option String}
    {w w' : World} {config : Config} {reply : Reply} (configured : w.directory.config = .ok config)
    (runs : (r.run root (.directory w.directory) texts).run w = (reply, w'))
    (succeeds : reply.code = 0) :
    w'.memory = (w.memory.perform config.idStrategy texts r.command).readBack := by
  rw [CommandLine.run_request r root texts configured] at runs
  rcases performed : w.run (CommandLine.perform ⟨root, config⟩ texts r.command) with
    ⟨failure | v, w₁⟩
  · rw [performed] at runs
    cases runs
    cases succeeds
  · rw [performed] at runs
    cases runs
    exact memory_of_perform performed

end World

end ContentStore
