import ContentStore.CommandLine.Run
import ContentStore.Proofs.Directory
import ContentStore.Proofs.Store.Run
/-!
# Running a command in a world

What a task gives in a world and the world that it leaves, said for each building block, and what a
request comes to: its store is opened with the configuration of the directory, its command is
performed there, and the program ends.  The end can leave a new file under a free name, which no
table has, and changes nothing else (`ended_cases`, `tableEntries_leavesNewFile`).
-/

namespace ContentStore.CommandLine

variable {α : Type}

@[simp] theorem run_ofResult_ok (w : World) (a : α) :
    w.run (ofResult (.ok a)) = (.ok a, w) := rfl

/-- An operation of the store as a task. -/
theorem run_ofAction (w : World) (action : Action α) :
    w.run (ofAction action) =
      ((w.run action).1.mapError Failure.store, (w.run action).2) := by
  rw [World.run, ofAction, ExceptT.run_adapt, StateT.run_map, World.run]
  rfl

theorem run_ofAction_ok {w w' : World} {action : Action α} {a : α}
    (runs : w.run action = (.ok a, w')) : w.run (ofAction action) = (.ok a, w') := by
  rw [run_ofAction, runs]
  rfl

/-- An operation that succeeds as a task has succeeded. -/
theorem run_ofAction_eq_ok {w w' : World} {action : Action α} {a : α}
    (runs : w.run (ofAction action) = (.ok a, w')) : w.run action = (.ok a, w') := by
  rw [run_ofAction] at runs
  rcases result : w.run action with ⟨_ | b, w₁⟩ <;> rw [result] at runs <;> cases runs
  rfl

theorem run_ofResult_eq_ok {w w' : World} {result : Except StoreError α} {a : α}
    (runs : w.run (ofResult result) = (.ok a, w')) : result = .ok a ∧ w' = w := by
  cases result <;> cases runs
  exact ⟨rfl, rfl⟩

/-- A command that begins with a table's name goes on where there is such a table. -/
theorem run_named_eq_ok {w w' : World} {name : String} {f : Table → Task α} {a : α}
    (runs : w.run (ofResult (Store.tableNamed name) >>= f) = (.ok a, w')) :
    ∃ t, Table.lookup? name = some t ∧ w.run (f t) = (.ok a, w') := by
  obtain ⟨t, w₁, named, later⟩ := World.run_bind_eq_ok runs
  obtain ⟨named, rfl⟩ := run_ofResult_eq_ok named
  refine ⟨t, ?_, later⟩
  unfold Store.tableNamed at named
  split at named
  · next found =>
    cases named
    exact found
  · cases named

theorem run_named {name : String} {t : Table} (named : Table.lookup? name = some t) (w : World)
    (f : Table → Task α) :
    w.run (ofResult (Store.tableNamed name) >>= f) = w.run (f t) := by
  rw [Store.tableNamed, named, World.run_bind_ok _ (run_ofResult_ok w t)]

/-- A change of a record that there is gives the changed record. -/
theorem run_performUpdate {s : Store} {texts : String → Option String} {name id : String}
    {t : Table} {fields : List (String × String)} {record : Record} {w w' : World}
    (named : Table.lookup? name = some t)
    (updates : w.run (s.update t id (looseRecord fields)) = (.ok (some record), w')) :
    w.run (perform s texts (.update name id fields)) = (.ok (.object record), w') := by
  rw [perform, run_named named, World.run_bind_ok _ (run_ofAction_ok updates)]
  rfl

/-- A command to change a record that succeeds has changed one. -/
theorem run_performUpdate_eq_ok {s : Store} {texts : String → Option String} {name id : String}
    {fields : List (String × String)} {v : Json} {w w' : World}
    (runs : w.run (perform s texts (.update name id fields)) = (.ok v, w')) :
    ∃ t record, Table.lookup? name = some t ∧
      w.run (s.update t id (looseRecord fields)) = (.ok (some record), w') := by
  obtain ⟨t, named, runs⟩ := run_named_eq_ok runs
  obtain ⟨found, w₁, updates, runs⟩ := World.run_bind_eq_ok runs
  cases found with
  | none => cases runs
  | some record =>
    cases runs
    exact ⟨t, record, named, run_ofAction_eq_ok updates⟩

/-- A statement that succeeds gives its outcome as that of the command. -/
theorem run_performSql {s : Store} {texts : String → Option String} {statement : String}
    {params : List String} {outcome : Sql.Outcome} {w w' : World}
    (executes : w.run (Sql.execute s statement (params.map looseValue)) = (.ok outcome, w')) :
    w.run (perform s texts (.sql statement params)) = (.ok outcome.toTuple, w') := by
  rw [perform, World.run_bind_ok _ (run_ofAction_ok executes)]
  rfl

theorem openAt_directory (root : String) {d : Directory} {config : Config}
    (configured : d.config = .ok config) :
    Store.openAt root (.directory d) none = .ok (⟨root, config⟩, d) := by
  have opened : Store.openAt root (.directory d) none =
      d.config >>= fun config => .ok (⟨root, config⟩, d) := rfl
  rw [opened, configured]
  rfl

/-- Where the configuration cannot be read, a request leaves the world alone. -/
theorem run_request_unconfigured (r : Request) (root : String) (texts : String → Option String)
    {w : World} {e : StoreError} (configured : w.directory.config = .error e) :
    (r.run root (.directory w.directory) texts).run w = (.ofFailure (.store e), w) := by
  have refused : Store.openAt root (.directory w.directory) none = .error e := by
    have opened : Store.openAt root (.directory w.directory) none =
        w.directory.config >>= fun config => .ok (⟨root, config⟩, w.directory) := rfl
    rw [opened, configured]
    rfl
  rw [Request.run, refused]
  rfl

/-- The reply to the result of a command. -/
def Reply.ofResult (format : OutputFormat) : Except Failure Json → Reply
  | .ok v => ⟨0, output format v, ""⟩
  | .error failure => .ofFailure failure

/-- The world when the program ends. -/
def ended (result : Except Failure Json) (w : World) : World :=
  match result with
  | .ok _ => w
  | .error failure => failure.ended w

/-- A request is its command, performed in a store with the configuration of the directory, and what
the end of the program makes of the world. -/
theorem run_request (r : Request) (root : String) (texts : String → Option String) {w : World}
    {config : Config} (configured : w.directory.config = .ok config) :
    (r.run root (.directory w.directory) texts).run w =
      (Reply.ofResult r.format (w.run (perform ⟨root, config⟩ texts r.command)).1,
        ended (w.run (perform ⟨root, config⟩ texts r.command)).1
          (w.run (perform ⟨root, config⟩ texts r.command)).2) := by
  rw [Request.run, openAt_directory root configured]
  dsimp only
  rw [StateT.run_bind, StateT.run_modify, pure_bind, StateT.run_bind]
  rcases ran : w.run (perform ⟨root, config⟩ texts r.command) with ⟨failure | v, w'⟩
  · rw [show StateT.run (perform ⟨root, config⟩ texts r.command) w = _ from ran]
    rfl
  · rw [show StateT.run (perform ⟨root, config⟩ texts r.command) w = _ from ran]
    rfl

/-! ## The end of the program -/

/-- A new file stands under the first free name that was found, and nothing else has changed. -/
structure LeavesNewFile (bytes : ByteArray) (entropy : Nat) (w w' : World) : Prop where
  found : freeName? w nameTries 0 = some (temporaryName entropy)
  free : w.directory.find? (temporaryName entropy) = none
  eq : w' = { w with directory := w.directory.set (temporaryName entropy) (.file bytes) }

theorem freeName?_eq_some {w : World} {tries ahead : Nat} {name : String}
    (found : freeName? w tries ahead = some name) :
    ∃ entropy, name = temporaryName entropy ∧ w.directory.find? name = none := by
  induction tries generalizing ahead with
  | zero => cases found
  | succ tries ih =>
    rw [freeName?] at found
    split at found
    · next free =>
      cases found
      exact ⟨_, rfl, Option.isNone_iff_eq_none.mp free⟩
    · exact ih found

/-- The program leaves a new file exactly if it ends with a failure that goes with one and finds a
free name, and it leaves nothing else. -/
theorem ended_cases (result : Except Failure Json) (w : World) :
    (ended result w = w ∧ ∀ bytes name, result = .error (.store (.persist bytes)) →
        freeName? w nameTries 0 ≠ some name) ∨
      ∃ bytes entropy, result = .error (.store (.persist bytes)) ∧
        LeavesNewFile bytes entropy w (ended result w) := by
  unfold ended
  split
  · next v => exact .inl ⟨rfl, fun bytes name failed => nomatch failed⟩
  · next failure =>
    unfold Failure.ended
    split
    · next bytes =>
      split
      · next name found =>
        obtain ⟨entropy, rfl, free⟩ := freeName?_eq_some found
        exact .inr ⟨bytes, entropy, rfl, found, free, rfl⟩
      · next none => exact .inl ⟨rfl, fun _ name _ found => nomatch none.symm.trans found⟩
    · next other =>
      refine .inl ⟨rfl, fun bytes name failed => ?_⟩
      cases failed
      exact absurd rfl (other bytes)

/-- No file of the store has the name of a new file. -/
theorem temporaryName_ne (entropy : Nat) {name : String} (plain : name.toList.head? ≠ some '.') :
    temporaryName entropy ≠ name := by
  rintro rfl
  exact plain (by rw [temporaryName, String.toList_ofList]; rfl)

theorem tableEntries_leavesNewFile {bytes : ByteArray} {entropy : Nat} {w w' : World}
    (leaves : LeavesNewFile bytes entropy w w') (t : Table) :
    w'.directory.tableEntries t = w.directory.tableEntries t := by
  obtain ⟨-, -, rfl⟩ := leaves
  have plain : t.fileName.toList.head? ≠ some '.' := by cases t <;> decide
  rw [Directory.tableEntries, Directory.find?_set, if_neg (temporaryName_ne entropy plain)]
  rfl

end ContentStore.CommandLine
