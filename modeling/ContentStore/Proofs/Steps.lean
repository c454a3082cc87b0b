import ContentStore.Proofs.CommandLine.Lists
import ContentStore.Proofs.Sql.Effect
/-!
# Steps of a run

A run meets the files in three ways: by operations of a handle, by statements, and by commands of
the command line.  A step of any of them keeps the clock, and leaves the lists that it leaves in
memory, those that it has put being read again, or else changes no table (`Step.leaves_lists`).
-/

namespace ContentStore

open CommandLine (Command Request)
open Json (Ordered)

/-- A step of a run. -/
inductive Step where
  | operation (s : Store) (op : Operation)
  | statement (s : Store) (text : String) (params : List OrderedJson)
  /-- A statement whose refusal is folded into an empty selection. -/
  | lenientStatement (s : Store) (text : String) (params : List OrderedJson)
  | command (r : Request) (root : String) (texts : String → Option String)

namespace Step

/-- The world that a step leaves. -/
def run (w : World) : Step → World
  | operation s op => (w.run (op.act s)).2
  | statement s text params => (w.run (Sql.execute s text (params.map Subtype.val))).2
  | lenientStatement s text params =>
    (w.run (Sql.executeOrEmpty s text (params.map Subtype.val))).2
  | command r root texts => ((r.run root (.directory w.directory) texts).run w).2

/-- The lists that a step is to leave; a command takes its configuration from the directory. -/
def lists (w : World) : Step → Memory
  | operation s op => (w.memory.step s.config.idStrategy op).2
  | statement s text params | lenientStatement s text params =>
    (w.memory.executeText s.config.idStrategy text (params.map Subtype.val)).2
  | command r _ texts =>
    match w.directory.config with
    | .ok config => w.memory.perform config.idStrategy texts r.command
    | .error _ => w.memory

end Step

/-! ## The files that operations and commands write -/

/-- The answer of an operation tells of a write: always where entries are added, replaced or
removed as a whole, where a change or a deletion has found its entry, and never where the operation
only reads. -/
def Operation.Tells : Operation → Answer → Prop
  | create _ _, _ | createFrom _ _, _ | bulkCreate _ _, _ | truncate _, _ | restore _ _, _ => True
  | update _ _ _, answer => ∃ record, answer = .found (some record)
  | delete _ _, answer => answer = .deleted true
  | _, _ => False

/-- An operation of a handle writes one file at most, and none if it fails or tells of no write. -/
theorem writes_act (s : Store) (op : Operation) :
    ∃ file, Writes file op.Tells (op.act s) := by
  cases op with
  | create t fields => exact ⟨_, (s.writes_create t fields).map fun _ _ => trivial⟩
  | createFrom t value =>
    obtain ⟨v, ordered⟩ := value
    cases v with
    | object fields => exact ⟨_, (s.writes_create t fields).map fun _ _ => trivial⟩
    | _ => exact ⟨t.fileName, Quiet.writes fun _ => ⟨rfl, rfl⟩⟩
  | bulkCreate t list => exact ⟨_, (s.writes_bulkCreate t _).map fun _ _ => trivial⟩
  | update t id changes =>
    refine ⟨_, (s.writes_update t id changes).map fun found hit => ?_⟩
    obtain ⟨record, rfl⟩ := Option.isSome_iff_exists.mp hit
    exact ⟨record, rfl⟩
  | delete t id => exact ⟨_, (s.writes_delete t id).map fun _ hit => congrArg Answer.deleted hit⟩
  | truncate t => exact ⟨_, (s.writes_save t []).give trivial⟩
  | restore t snapshot => exact ⟨_, (s.writes_save t _).give trivial⟩
  | getAllAs t reader =>
    refine ⟨t.fileName, Quiet.writes fun w => ?_⟩
    rw [Operation.act, World.run_bind_ok _ (World.run_get w)]
    split <;> exact ⟨rfl, rfl⟩
  | getByIdAs t id reader =>
    refine ⟨t.fileName, Quiet.writes fun w => ?_⟩
    rw [Operation.act, World.run_bind_ok _ (World.run_get w)]
    split <;> exact ⟨rfl, rfl⟩
  | _ => exact ⟨"", Quiet.writes fun _ => ⟨rfl, rfl⟩⟩

namespace Sql

/-- A text writes one file at most, and none if it fails. -/
theorem writes_execute (s : Store) (text : String) (params : List Json) :
    ∃ file, Writes file Tells (execute s text params) := by
  unfold execute
  cases parse text params with
  | ok st => exact ⟨_, writes_run s st⟩
  | error e => exact ⟨"", Quiet.writes fun _ => ⟨rfl, rfl⟩⟩

/-- A text whose refusal is folded into an empty selection writes no more than it does without. -/
theorem writes_executeOrEmpty (s : Store) (text : String) (params : List Json) :
    ∃ file, Writes file Tells (executeOrEmpty s text params) := by
  obtain ⟨file, writes⟩ := writes_execute s text params
  refine ⟨file, writes.handled fun e => ?_⟩
  split
  · exact quiet_pure _
  · exact quiet_throw _

end Sql

namespace CommandLine

variable {α : Type} {file : String}

theorem writes_ofAction {tells : α → Prop} {action : Action α} (writes : Writes file tells action) :
    Writes file tells (ofAction action) := by
  intro w
  have framed := writes w
  rw [run_ofAction]
  generalize w.run action = ran at framed
  obtain ⟨e | a, w'⟩ := ran
  · exact ⟨framed.clock, .inl framed.directory_eq_of_error⟩
  · exact ⟨framed.clock, framed.files.imp_right fun ⟨b, bytes, given, tellsOf, put⟩ => by
      cases given
      exact ⟨_, bytes, rfl, tellsOf, put⟩⟩

/-- A command that begins with a table's name writes what it writes at that table. -/
theorem writes_named {name : String} {f : Table → Task α} {told : α → Prop}
    (writes : ∀ t, Writes t.fileName told (f t)) :
    ∃ file, Writes file told (ofResult (Store.tableNamed name) >>= f) := by
  cases Store.tableNamed name with
  | ok t => exact ⟨t.fileName, writes t⟩
  | error e => exact ⟨"", Quiet.writes fun _ => ⟨rfl, rfl⟩⟩

/-- A command only reads, or is tried out. -/
def Command.Reads : Command → Prop
  | .get _ _ | .list _ _ _ | .search _ _ _ | .backup _ | .status => True
  | .delete _ _ dryRun => dryRun = true
  | _ => False

/-- A command writes one file at most, and none if it fails or only reads. -/
theorem writes_perform (s : Store) (texts : String → Option String) (command : Command) :
    ∃ file, Writes file (fun _ => ¬Command.Reads command) (perform s texts command) := by
  cases command with
  | get name id =>
    refine writes_named fun t => Quiet.writes fun w => ?_
    rw [World.run_bind_ok _ (show w.run (get : Task World) = (.ok w, w) from rfl)]
    split <;> exact ⟨rfl, rfl⟩
  | insert name fields =>
    exact writes_named fun t => (writes_ofAction (s.writes_create t _)).map fun _ _ => id
  | update name key fields =>
    refine writes_named fun t => (writes_ofAction (s.writes_update t key _)).bind ?_ ?_
    · rintro (_ | record) hit
      · cases hit
      · exact ⟨.object record, rfl, id⟩
    · rintro (_ | record) miss
      · exact (quiet_throw _).writes
      · exact absurd rfl miss
  | delete name key dryRun =>
    refine writes_named fun t => ?_
    cases dryRun with
    | true => exact Quiet.writes fun _ => ⟨rfl, rfl⟩
    | false =>
      refine (writes_ofAction (s.writes_delete t key)).bind ?_ ?_
      · rintro (_ | _) hit
        · cases hit
        · exact ⟨_, rfl, Bool.false_ne_true⟩
      · rintro (_ | _) miss
        · exact (quiet_throw _).writes
        · exact absurd rfl miss
  | sql statement params =>
    obtain ⟨file, writes⟩ := Sql.writes_execute s statement (params.map looseValue)
    exact ⟨file, (writes_ofAction writes).map fun _ _ => id⟩
  | restore name file =>
    refine writes_named fun t => ?_
    split
    · exact (quiet_throw _).writes
    · exact (writes_ofAction (s.writes_save t _)).give id
  | truncate name =>
    exact writes_named fun t => (writes_ofAction (s.writes_save t [])).give id
  | list name page limit | search name term fields | backup name =>
    exact writes_named fun t => Quiet.writes fun _ => ⟨rfl, rfl⟩
  | status => exact ⟨"", Quiet.writes fun _ => ⟨rfl, rfl⟩⟩

end CommandLine

/-! ## What a step leaves -/

/-- A world has the same tables as before, or the lists of a memory as the files give them back; its
clock is the same. -/
structure Leaves (w : World) (m : Memory) (w' : World) : Prop where
  clock : w'.clock = w.clock
  tables : w'.memory.entries = w.memory.entries ∨ w'.memory = m.readBack

theorem Framed.leaves {ε α : Type} {file : String} {tells : α → Prop} {w w' : World} {m : Memory}
    {result : Except ε α} (framed : Framed file tells w (result, w'))
    (succeeds : ∀ a, result = .ok a → w'.memory = m.readBack) : Leaves w m w' := by
  cases result with
  | error e =>
    refine ⟨framed.clock, .inl ?_⟩
    have same : w'.directory = w.directory := framed.directory_eq_of_error
    rw [World.memory, World.memory, same]
  | ok a => exact ⟨framed.clock, .inr (succeeds a rfl)⟩

/-- The end of the program leaves what the command has left. -/
theorem Leaves.ended {w w' : World} {m : Memory} (leaves : Leaves w m w')
    (result : Except CommandLine.Failure Json) : Leaves w m (CommandLine.ended result w') := by
  have same := World.memory_ended result w'
  exact ⟨(congrArg Memory.clock same).trans leaves.clock, same ▸ leaves.tables⟩

theorem values_ordered (params : List OrderedJson) : ∀ v ∈ params.map Subtype.val, Ordered v := by
  intro v mem
  obtain ⟨given, -, rfl⟩ := List.mem_map.mp mem
  exact given.property

theorem leaves_execute (s : Store) (w : World) (text : String) (params : List OrderedJson) :
    Leaves w (w.memory.executeText s.config.idStrategy text (params.map Subtype.val)).2
      (w.run (Sql.execute s text (params.map Subtype.val))).2 := by
  obtain ⟨file, writes⟩ := Sql.writes_execute s text (params.map Subtype.val)
  exact (writes w).leaves fun o gives =>
    World.memory_of_refines (World.refines_execute s w text (values_ordered params))
      (Prod.ext gives rfl)

namespace Step

/-- Folding a refusal does not touch the world. -/
theorem run_lenientStatement (w : World) (s : Store) (text : String) (params : List OrderedJson) :
    run w (lenientStatement s text params) = run w (statement s text params) := by
  rw [run, run, Sql.executeOrEmpty, World.run_tryCatch]
  rcases w.run (Sql.execute s text (params.map Subtype.val)) with ⟨e | o, w'⟩
  · dsimp only
    split <;> rfl
  · rfl

/-- A step keeps the clock, and leaves the lists that it leaves in memory or changes no table. -/
theorem leaves_lists (w : World) (step : Step) : Leaves w (step.lists w) (step.run w) := by
  cases step with
  | operation s op =>
    obtain ⟨file, writes⟩ := writes_act s op
    exact (writes w).leaves fun answer gives =>
      World.memory_of_refines (World.refines_act s op w) (Prod.ext gives rfl)
  | statement s text params => exact leaves_execute s w text params
  | lenientStatement s text params =>
    rw [run_lenientStatement]
    exact leaves_execute s w text params
  | command r root texts =>
    cases configured : w.directory.config with
    | error e =>
      rw [run, CommandLine.run_request_unconfigured r root texts configured]
      exact ⟨rfl, .inl rfl⟩
    | ok config =>
      rw [run, CommandLine.run_request r root texts configured, lists, configured]
      obtain ⟨file, writes⟩ := CommandLine.writes_perform ⟨root, config⟩ texts r.command
      have leaves := (writes w).leaves fun v gives => World.memory_of_perform (Prod.ext gives rfl)
      exact leaves.ended _

/-- After a step a table holds what it held, or what it is to hold, as it is or read again. -/
theorem tableEntries_run (w : World) (step : Step) (t : Table) :
    (step.run w).directory.tableEntries t = w.directory.tableEntries t ∨
      (step.run w).directory.tableEntries t = (step.lists w).entries t ∨
      (step.run w).directory.tableEntries t = rereadEntries ((step.lists w).entries t) := by
  refine (leaves_lists w step).tables.imp (fun same => congrFun same t) fun same => ?_
  have read : (step.run w).directory.tableEntries t = (step.lists w).readBack.entries t :=
    congrArg (fun m => m.entries t) same
  rw [read, Memory.readBack]
  dsimp only
  split
  · exact .inr rfl
  · exact .inl rfl

end Step

end ContentStore
