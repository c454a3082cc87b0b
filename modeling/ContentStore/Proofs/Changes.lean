import ContentStore.Proofs.Steps
/-!
# How a step changes the list of a table

Apart from a restoration, whatever a step is called it changes the list of a table in one of five
ways: it keeps it, empties it, appends new records, renews one record in its place, or removes one
entry (`Step.change`).  A step that reports a change of a record has renewed one (`Step.renewed`).
-/

namespace ContentStore

open CommandLine (Command Request)
open Json (Members Ordered)
open Sql (Outcome Statement)

/-- A record of the list is changed in its place, with the stamp that follows its last one at a
reading of the clock. -/
inductive Renewal (clock : Nat → Instant) : List Json → List Json → Prop
  | intro (front back : List Json) (old changes : Record) (reading : Nat) :
    Renewal clock (front ++ .object old :: back)
      (front ++ .object (Record.amended ((clock reading).stampAfter (Store.lastStamp old)) old
        changes) :: back)

/-- A record is made of a caller's fields and stamped with a reading of the clock. -/
def IsNew (clock : Nat → Instant) (record : Record) : Prop :=
  ∃ id reading fields, record = Record.stamped id (clock reading).stamp fields

/-- What a step may do to the list of a table. -/
inductive Change (clock : Nat → Instant) : List Json → List Json → Prop
  | kept (items : List Json) : Change clock items items
  | emptied (items : List Json) : Change clock items []
  | added (items : List Json) {records : List Record} (new : ∀ r ∈ records, IsNew clock r) :
    Change clock items (items ++ records.map .object)
  | renewed {before after : List Json} (renewal : Renewal clock before after) :
    Change clock before after
  | removed (front back : List Json) (entry : Json) :
    Change clock (front ++ entry :: back) (front ++ back)

/-! ## Operations -/

namespace Memory

variable {strategy : IdStrategy} {m m' : Memory}

/-- Every table is changed in one of the five ways. -/
def Changes (m m' : Memory) (t : Table) : Prop := Change m.clock (m.entries t) (m'.entries t)

theorem changes_refl (m : Memory) (t : Table) : m.Changes m t := .kept _

/-- One table is changed, and the others are kept. -/
theorem changes_of_put {there : Table} {items : List Json}
    (put : m'.entries = (m.put there items).entries)
    (change : Change m.clock (m.entries there) items) (t : Table) : m.Changes m' t := by
  rw [Changes, put, entries_put]
  split
  · next same => exact same ▸ change
  · exact .kept _

theorem isNew_stampedAhead (strategy : IdStrategy) (m : Memory) (steps : Nat) (fields : Record) :
    IsNew m.clock (m.stampedAhead strategy steps fields) :=
  ⟨_, m.readings + steps, fields, rfl⟩

theorem changes_create (there : Table) (fields : Record) (t : Table) :
    m.Changes (m.create strategy there fields).2 t := by
  have new : ∀ r ∈ [(m.create strategy there fields).1], IsNew m.clock r := by
    rw [create_fst]
    exact List.forall_mem_singleton.mpr (isNew_stampedAhead strategy m 0 fields)
  exact changes_of_put (entries_create strategy m there fields) (.added _ new) t

theorem changes_bulkCreate (there : Table) (list : List Record) (t : Table) :
    m.Changes (m.bulkCreate strategy there list).2 t := by
  refine changes_of_put (entries_bulkCreate strategy m there list) (.added _ fun r mem => ?_) t
  rw [bulkCreate] at mem
  obtain ⟨i, h, rfl⟩ := List.mem_mapIdx.mp mem
  exact isNew_stampedAhead strategy m i list[i]

/-- A record of a table is renewed, and the list of the table is put anew. -/
structure Renews (m m' : Memory) (t : Table) : Prop where
  renewal : Renewal m.clock (m.entries t) (m'.entries t)
  put : m'.written t = true

/-- A change that finds a record renews it. -/
theorem renews_update {there : Table} {id : String} {changes record : Record}
    (found : (m.update there id changes).1 = some record) :
    m.Renews (m.update there id changes).2 there := by
  obtain ⟨front, old, back, first, rfl, after⟩ := update_eq_some found
  rw [after]
  refine ⟨?_, by simp [written_put]⟩
  rw [first.split]
  dsimp only
  rw [entries_put, if_pos rfl]
  exact .intro front back old changes m.readings

theorem changes_update (there : Table) (id : String) (changes : Record) (t : Table) :
    m.Changes (m.update there id changes).2 t := by
  cases found : (m.update there id changes).1 with
  | none =>
    rw [update_eq_none found]
    exact changes_refl m t
  | some record =>
    have renewal := (renews_update found).renewal
    obtain ⟨front, old, back, -, -, after⟩ := update_eq_some found
    have put : (m.update there id changes).2.entries =
        (m.put there ((m.update there id changes).2.entries there)).entries := by
      rw [after]
      funext other
      simp only [entries_put]
      split <;> simp
    exact changes_of_put put (.renewed renewal) t

theorem changes_delete (there : Table) (id : String) (t : Table) :
    m.Changes (m.delete there id).2 t := by
  cases hit : (m.delete there id).1 with
  | false =>
    rw [delete_eq_false hit]
    exact changes_refl m t
  | true =>
    obtain ⟨front, old, back, first, after⟩ := delete_eq_true hit
    refine changes_of_put (congrArg entries after) ?_ t
    rw [first.split]
    exact .removed front back (.object old)

theorem changes_truncate (there t : Table) : m.Changes (m.put there []) t :=
  changes_of_put rfl (.emptied _) t

/-- An operation of a handle, apart from a restoration of the table. -/
theorem changes_step {op : Operation} {t : Table}
    (noRestore : ∀ snapshot, op ≠ .restore t snapshot) : m.Changes (m.step strategy op).2 t := by
  cases op with
  | create there fields => exact changes_create there fields t
  | createFrom there value =>
    rw [step]
    split
    · exact changes_create there _ t
    · exact changes_refl m t
  | bulkCreate there list => exact changes_bulkCreate there _ t
  | update there id changes => exact changes_update there id changes t
  | delete there id => exact changes_delete there id t
  | truncate there => exact changes_truncate there t
  | restore there snapshot =>
    have other : t ≠ there := by
      rintro rfl
      exact noRestore snapshot rfl
    rw [Changes, step, entries_put, if_neg other]
    exact .kept _
  | getAllAs there reader =>
    rw [step]
    split <;> exact changes_refl m t
  | getByIdAs there id reader =>
    rw [step]
    split <;> exact changes_refl m t
  | _ => exact changes_refl m t

/-- A statement. -/
theorem changes_execute (st : Statement) (t : Table) :
    m.Changes (m.execute strategy st).2 t := by
  cases st with
  | select selection => exact changes_refl m t
  | insert there values =>
    obtain ⟨n, same⟩ := m.resolve_snd values
    simp only [execute, answered, same]
    exact changes_create (m := { m with readings := n }) there _ t
  | update there id changes =>
    rw [execute]
    split
    · exact changes_refl m t
    · obtain ⟨n, same⟩ := m.resolve_snd changes
      simp only [answered, same]
      exact changes_update (m := { m with readings := n }) there _ _ t
  | delete there id =>
    rw [execute]
    split
    · exact changes_refl m t
    · exact changes_delete there _ t

theorem changes_executeText (text : String) (params : List Json) (t : Table) :
    m.Changes (m.executeText strategy text params).2 t := by
  rw [executeText]
  split
  · exact changes_execute _ t
  · exact changes_refl m t

/-- A command, apart from a restoration of the table. -/
theorem changes_perform {texts : String → Option String} {command : Command} {t : Table}
    (noRestore : ∀ name file, command = .restore name file → Table.lookup? name ≠ some t) :
    m.Changes (m.perform strategy texts command) t := by
  cases command with
  | insert name fields =>
    rw [perform]
    split
    · exact changes_create _ _ t
    · exact changes_refl m t
  | update name id fields =>
    rw [perform]
    split
    · exact changes_update _ id _ t
    · exact changes_refl m t
  | delete name id dryRun =>
    rw [perform]
    split
    · split
      · exact changes_refl m t
      · exact changes_delete _ id t
    · exact changes_refl m t
  | sql statement params => exact changes_executeText statement _ t
  | restore name file =>
    rw [perform]
    split
    · next there entries named _ =>
      have other : t ≠ there := by
        rintro rfl
        exact noRestore name file rfl named
      rw [Changes, entries_put, if_neg other]
      exact .kept _
    · exact changes_refl m t
  | truncate name =>
    rw [perform]
    split
    · exact changes_truncate _ t
    · exact changes_refl m t
  | get _ _ | list _ _ _ | search _ _ _ | backup _ | status => exact changes_refl m t

end Memory

/-! ## Reports of a change -/

/-- A text is a change of a table's record, and its outcome tells that one was touched. -/
def ReportsUpdate (t : Table) (text : String) (params : List Json)
    (result : Except StoreError Outcome) : Prop :=
  ∃ id changes o, Sql.parse text params = .ok (.update t id changes) ∧ result = .ok o ∧
    o.affectedRows = 1

/-- A record of the table is to be renewed, and the table has the list that was to be left, as it is
read. -/
structure Renewed (w : World) (t : Table) (m : Memory) (w' : World) : Prop where
  renewal : Renewal w.clock (w.directory.tableEntries t) (m.entries t)
  left : w'.directory.tableEntries t = rereadEntries (m.entries t)

theorem Memory.Renews.renewed {w w' : World} {m : Memory} {t : Table} (renews : w.memory.Renews m t)
    (memory : w'.memory = m.readBack) : Renewed w t m w' :=
  ⟨renews.renewal, (congrArg (fun m => m.entries t) memory).trans (if_pos renews.put)⟩

theorem renewed_update {s : Store} {w w' : World} {t : Table} {id : String}
    {changes record : Record} (ordered : Ordered (.object changes))
    (updates : w.run (s.update t id changes) = (.ok (some record), w')) :
    Renewed w t (w.memory.update t id changes).2 w' := by
  have refines := World.refines_update s t w id ordered
  rw [updates] at refines
  obtain ⟨same, left⟩ := refines rfl
  exact (Memory.renews_update (Except.ok.inj same).symm).renewed left

theorem Memory.renews_execute {strategy : IdStrategy} {m : Memory} {t : Table} {id : Json}
    {changes : List Sql.Assignment} {o : Outcome}
    (gives : (m.execute strategy (.update t id changes)).1 = .ok o) (one : o.affectedRows = 1) :
    m.Renews (m.execute strategy (.update t id changes)).2 t := by
  rw [execute] at gives ⊢
  split at gives
  · cases gives
    cases one
  next key named =>
  obtain ⟨n, same⟩ := m.resolve_snd changes
  cases gives
  simp only [answered, same] at one ⊢
  cases found : (({ m with readings := n } : Memory).update t key
      (Members.ofPairs (m.resolve changes).1)).1 with
  | none =>
    rw [found] at one
    cases one
  | some record =>
    obtain ⟨renewal, put⟩ := renews_update found
    exact ⟨renewal, put⟩

theorem renewed_execute {s : Store} {w : World} {t : Table} {text : String} {params : List Json}
    (ordered : ∀ v ∈ params, Ordered v)
    (reports : ReportsUpdate t text params (w.run (Sql.execute s text params)).1) :
    Renewed w t (w.memory.executeText s.config.idStrategy text params).2
      (w.run (Sql.execute s text params)).2 := by
  obtain ⟨id, changes, o, reads, gives, one⟩ := reports
  have succeeds : writeFailed (w.run (Sql.execute s text params)).1 = false := by
    rw [gives]
    rfl
  obtain ⟨same, left⟩ := World.refines_execute s w text ordered succeeds
  refine Memory.Renews.renewed ?_ left
  rw [gives, Memory.executeText, reads] at same
  rw [Memory.executeText, reads]
  exact Memory.renews_execute same.symm one

/-! ## Steps -/

namespace Step

/-- A step puts a snapshot in the place of a table's list. -/
def Restores (t : Table) : Step → Prop
  | operation _ (.restore there _) => there = t
  | command r _ _ => ∃ name file, r.command = .restore name file ∧ Table.lookup? name = some t
  | _ => False

/-- Apart from a restoration of it, a step changes a table in one of the five ways. -/
theorem change {w : World} {step : Step} {t : Table} (noRestore : ¬step.Restores t) :
    Change w.clock (w.directory.tableEntries t) ((step.lists w).entries t) := by
  cases step with
  | operation s op =>
    refine Memory.changes_step (m := w.memory) fun snapshot restores => ?_
    subst restores
    exact noRestore rfl
  | statement s text params | lenientStatement s text params =>
    exact Memory.changes_executeText (m := w.memory) text _ t
  | command r root texts =>
    rw [lists]
    split
    · exact Memory.changes_perform (m := w.memory) fun name file restores named =>
        noRestore ⟨name, file, restores, named⟩
    · exact .kept _

/-- A step reports that it changed a record of a table. -/
def Updates (w : World) (t : Table) : Step → Prop
  | operation s op => ∃ id changes record, op = .update t id changes ∧
    (w.run (op.act s)).1 = .ok (.found (some record))
  | statement s text params =>
    ReportsUpdate t text (params.map Subtype.val)
      (w.run (Sql.execute s text (params.map Subtype.val))).1
  | lenientStatement s text params =>
    ReportsUpdate t text (params.map Subtype.val)
      (w.run (Sql.executeOrEmpty s text (params.map Subtype.val))).1
  | command r root texts => ∃ config, w.directory.config = .ok config ∧
    ((∃ name id fields, r.command = .update name id fields ∧ Table.lookup? name = some t ∧
        ((r.run root (.directory w.directory) texts).run w).1.code = 0) ∨
      ∃ text arguments, r.command = .sql text arguments ∧
        ReportsUpdate t text (arguments.map CommandLine.looseValue)
          (w.run (Sql.execute ⟨root, config⟩ text (arguments.map CommandLine.looseValue))).1)

/-- A refusal that is folded reports nothing. -/
theorem reportsUpdate_lenient {s : Store} {w : World} {t : Table} {text : String}
    {params : List Json}
    (reports : ReportsUpdate t text params (w.run (Sql.executeOrEmpty s text params)).1) :
    ReportsUpdate t text params (w.run (Sql.execute s text params)).1 := by
  obtain ⟨id, changes, o, reads, gives, one⟩ := reports
  refine ⟨id, changes, o, reads, ?_, one⟩
  rw [Sql.executeOrEmpty, World.run_tryCatch] at gives
  rcases executes : w.run (Sql.execute s text params) with ⟨e | o', w'⟩
  · rw [executes] at gives
    dsimp only at gives
    split at gives
    · cases gives
      cases one
    · cases gives
  · rw [executes] at gives
    exact gives

theorem renewed_command {r : Request} {root name id : String} {texts : String → Option String}
    {fields : List (String × String)} {w : World} {t : Table} {config : Config}
    (configured : w.directory.config = .ok config) (updates : r.command = .update name id fields)
    (named : Table.lookup? name = some t)
    (succeeds : ((r.run root (.directory w.directory) texts).run w).1.code = 0) :
    Renewed w t (w.memory.perform config.idStrategy texts r.command)
      ((r.run root (.directory w.directory) texts).run w).2 := by
  rw [CommandLine.run_request r root texts configured, updates] at succeeds ⊢
  rcases performs : w.run (CommandLine.perform ⟨root, config⟩ texts (.update name id fields)) with
    ⟨failure | v, w'⟩
  · rw [performs] at succeeds
    cases succeeds
  · obtain ⟨there, record, found, changes⟩ := CommandLine.run_performUpdate_eq_ok performs
    rw [named] at found
    cases found
    rw [Memory.perform, named]
    exact renewed_update (CommandLine.looseRecord_ordered fields) changes

/-- A step that reports a change of a record has renewed one. -/
theorem renewed {w : World} {step : Step} {t : Table} (updates : step.Updates w t) :
    Renewed w t (step.lists w) (step.run w) := by
  cases step with
  | operation s op =>
    obtain ⟨id, changes, record, rfl, gives⟩ := updates
    have runs : w.run ((Operation.update t id changes).act s) =
        (.ok (.found (some record)), run w (.operation s (.update t id changes))) :=
      Prod.ext gives rfl
    obtain ⟨found, w', runs, answers⟩ := World.run_bind_eq_ok runs
    obtain ⟨same, left⟩ := Prod.mk.inj answers
    cases same
    rw [← left]
    exact renewed_update changes.property runs
  | statement s text params => exact renewed_execute (values_ordered params) updates
  | lenientStatement s text params =>
    rw [run_lenientStatement]
    exact renewed_execute (values_ordered params) (reportsUpdate_lenient updates)
  | command r root texts =>
    obtain ⟨config, configured, command⟩ := updates
    rw [lists, configured]
    rcases command with ⟨name, id, fields, updates, named, succeeds⟩ |
      ⟨text, arguments, executes, reports⟩
    · exact renewed_command configured updates named succeeds
    · have ordered : ∀ v ∈ arguments.map CommandLine.looseValue, Ordered v := by
        intro v mem
        obtain ⟨argument, -, rfl⟩ := List.mem_map.mp mem
        exact CommandLine.looseValue_ordered argument
      have left : run w (command r root texts) =
          (w.run (Sql.execute ⟨root, config⟩ text (arguments.map CommandLine.looseValue))).2 := by
        obtain ⟨id, changes, o, -, gives, -⟩ := reports
        rw [run, CommandLine.run_request r root texts configured, executes,
          CommandLine.run_performSql (Prod.ext gives rfl)]
        rfl
      rw [left]
      dsimp only
      rw [executes, Memory.perform]
      exact renewed_execute (s := ⟨root, config⟩) ordered reports

end Step

end ContentStore
