import ContentStore.Proofs.Sql.Lists
import ContentStore.Proofs.Store.Frame
/-!
# The effect of a text on the files

Whatever a text says, it writes at most one entry of the one table that its statement names anew: an
insertion appends an entry, a change puts one in the place of the first with the identifier, keeping
its identifier and the stamp of its creation, and a deletion removes that first one.  Every other
file stays as it is, and so do all files where the text fails, selects or touches no record
(`execute_contained`).  The other entries of the table are written as they have been read, so they
stay exactly if they are settled; a number that is not is changed by the write
(`change_alters_other`).
-/

namespace ContentStore

open Json (Members Ordered Settled depth)

namespace Sql

/-- What a statement that touches a record does to the entries of its table. -/
inductive ChangesOne : Statement → List Json → List Json → Prop
  | appended {t : Table} {values : List Assignment} {items : List Json} (record : Record) :
    ChangesOne (.insert t values) items (items ++ [.object record])
  | replaced {t : Table} {id : Json} {changes : List Assignment} {items front back : List Json}
    {key : String} {old record : Record} (named : id.scalarText? = some key)
    (first : FirstWith key items front old back)
    (sameId : Members.get? Record.idKey record = Members.get? Record.idKey old)
    (sameCreation : Members.get? Record.createdKey record = Members.get? Record.createdKey old) :
    ChangesOne (.update t id changes) items (front ++ .object record :: back)
  | removed {t : Table} {id : Json} {items front back : List Json} {key : String} {old : Record}
    (named : id.scalarText? = some key) (first : FirstWith key items front old back) :
    ChangesOne (.delete t id) items (front ++ back)

/-- What a text leaves: no file is changed where it fails or touches no record; and where it touches
one, one entry of the table that its statement names is changed, and no other file.  The table then
has its entries as they are read, which are the ones that were written exactly if these are
settled. -/
inductive Contained (text : String) (params : List Json) (before after : Directory) :
    Except StoreError Outcome → Prop
  | failed {e : StoreError} (same : after = before) : Contained text params before after (.error e)
  | idle {o : Outcome} (none : o.affectedRows = 0) (same : after = before) :
    Contained text params before after (.ok o)
  | touched {o : Outcome} {st : Statement} {items : List Json}
    (reads : parse text params = .ok st) (one : o.affectedRows = 1)
    (change : ChangesOne st (before.tableEntries st.table) items) (roomy : Roomy items)
    (written : after.tableEntries st.table = rereadEntries items)
    (exact : after.tableEntries st.table = items ↔ ∀ v ∈ items, Settled v)
    (others : ∀ name, name ≠ st.table.fileName → after.find? name = before.find? name) :
    Contained text params before after (.ok o)

/-! ## The files that a statement writes -/

/-- The result of a statement tells of a write. -/
def Tells (o : Outcome) : Prop := o.affectedRows ≠ 0

theorem quiet_resolveOne (assigned : Assigned) : Quiet (resolveOne assigned) := by
  cases assigned with
  | value v => exact quiet_pure v
  | now => exact fun _ => ⟨rfl, rfl⟩

theorem quiet_resolve (assignments : List Assignment) : Quiet (resolve assignments) := by
  have pairs : ∀ a : Assignment,
      Quiet (do return (a.field, ← resolveOne a.assigned) : Action (String × Json)) :=
    fun a => (quiet_resolveOne a.assigned).andThen fun v => quiet_pure (a.field, v)
  exact (quiet_mapM pairs assignments).andThen fun fields => quiet_pure (Members.ofPairs fields)

theorem writes_run (s : Store) (st : Statement) : Writes st.table.fileName Tells (run s st) := by
  cases st with
  | select selection => exact Quiet.writes fun _ => ⟨rfl, rfl⟩
  | insert t values =>
    exact (quiet_resolve values).bind fun record =>
      (s.writes_create t record).map fun _ _ => Nat.one_ne_zero
  | update t id changes =>
    rw [run]
    split
    · exact (quiet_pure _).writes
    · refine (quiet_resolve changes).bind fun record => ?_
      refine (s.writes_update t _ record).map fun found hit => ?_
      rw [hit]
      exact Nat.one_ne_zero
  | delete t id =>
    rw [run]
    split
    · exact (quiet_pure _).writes
    · refine (s.writes_delete t _).map fun found hit => ?_
      rw [hit]
      exact Nat.one_ne_zero

end Sql

/-! ## The entries that a statement changes -/

/-- What a statement or a caller gives nests so little that a record of it leaves room for the array
around the entries. -/
def Shallow (v : Json) : Prop := depth v ≤ 125

theorem depth_stamped_lt {id stamp : String} {fields : Record}
    (shallow : ∀ p ∈ fields, Shallow p.2) :
    depth (.object (Record.stamped id stamp fields)) < Json.nestingLimit := by
  refine Nat.lt_succ_of_le (Json.depth_object_le_iff.mpr fun m mem => ?_)
  rcases Record.mem_stamped mem with ⟨text, same⟩ | given
  · rw [same]
    exact Nat.zero_le _
  · exact shallow m given

theorem depth_amended_lt {stamp : String} {record changes : Record}
    (held : depth (.object record) < Json.nestingLimit) (shallow : ∀ p ∈ changes, Shallow p.2) :
    depth (.object (Record.amended stamp record changes)) < Json.nestingLimit := by
  have within := Json.depth_object_le_iff.mp (Nat.le_of_lt_succ held)
  refine Nat.lt_succ_of_le (Json.depth_object_le_iff.mpr fun m mem => ?_)
  rcases Record.mem_amended mem with same | given | old
  · rw [same]
    exact Nat.zero_le _
  · exact shallow m given
  · exact within m old

namespace Memory

open Sql (Assignment ChangesOne Outcome Statement)

theorem resolved_shallow {assignments : List Assignment}
    (shallow : ∀ a ∈ assignments, a.assigned.Has Shallow) (m : Memory) :
    ∀ p ∈ Members.ofPairs (m.resolve assignments).1, Shallow p.2 := by
  intro p mem
  have pair := (Members.mem_setAll mem).resolve_right List.not_mem_nil
  exact World.resolve_has (fun _ => Nat.zero_le 125) shallow m p pair

/-- A statement that touches a record puts the list of its table anew with one entry changed, and
shallow values that are assigned leave room around the entries. -/
theorem execute_changesOne {strategy : IdStrategy} {m : Memory} {st : Statement} {o : Outcome}
    (held : Roomy (m.entries st.table)) (shallow : st.Assigns Shallow)
    (gives : (m.execute strategy st).1 = .ok o) (touches : Sql.Tells o) :
    o.affectedRows = 1 ∧
      ChangesOne st (m.entries st.table) ((m.execute strategy st).2.entries st.table) ∧
      Roomy ((m.execute strategy st).2.entries st.table) ∧
      (m.execute strategy st).2.written st.table = true := by
  cases st with
  | select selection =>
    cases gives
    exact absurd rfl touches
  | insert t values =>
    cases gives
    have fields := resolved_shallow shallow m
    obtain ⟨n, same⟩ := m.resolve_snd values
    simp only [execute, answered, same, entries_create, entries_put, Statement.table, if_true]
    refine ⟨rfl, .appended _,
      List.forall_mem_append.mpr ⟨held, List.forall_mem_singleton.mpr ?_⟩, written_create _ _ _ _⟩
    rw [create_fst, stampedAhead]
    exact depth_stamped_lt fields
  | update t id changes =>
    rw [execute] at gives ⊢
    split at gives
    · cases gives
      exact absurd rfl touches
    next key named =>
    have fields := resolved_shallow shallow m
    obtain ⟨n, same⟩ := m.resolve_snd changes
    cases gives
    simp only [answered, same] at touches ⊢
    cases found : (({ m with readings := n } : Memory).update t key
        (Members.ofPairs (m.resolve changes).1)).1 with
    | none =>
      rw [found] at touches
      exact absurd rfl touches
    | some record =>
      obtain ⟨front, old, back, first, amends, after⟩ := update_eq_some found
      simp only [after, entries_put, written_put, Statement.table, if_true, decide_true,
        Bool.true_or, and_true]
      subst amends
      have split : Roomy (front ++ .object old :: back) := first.split ▸ held
      have deep := split (.object old) (List.mem_append_right _ List.mem_cons_self)
      exact ⟨rfl, .replaced named first (Record.get?_amended_kept rfl (by decide) _ _ _)
        (Record.get?_amended_kept rfl (by decide) _ _ _),
        forall_mem_replaced split (depth_amended_lt deep fields)⟩
  | delete t id =>
    rw [execute] at gives ⊢
    split at gives
    · cases gives
      exact absurd rfl touches
    next key named =>
    cases gives
    simp only [answered] at touches ⊢
    cases hit : (m.delete t key).1 with
    | false =>
      rw [hit] at touches
      exact absurd rfl touches
    | true =>
      obtain ⟨front, old, back, first, after⟩ := delete_eq_true hit
      simp only [after, entries_put, written_put, Statement.table, if_true, decide_true,
        Bool.true_or, and_true]
      have split : Roomy (front ++ .object old :: back) := first.split ▸ held
      exact ⟨rfl, .removed named first, forall_mem_removed split⟩

end Memory

namespace Sql

theorem contained_of_execute {s : Store} {w w' : World} {text : String} {params : List Json}
    {result : Except StoreError Outcome} (ordered : ∀ v ∈ params, Ordered v)
    (shallow : ∀ v ∈ params, Shallow v)
    (runs : w.run (execute s text params) = (result, w')) :
    Contained text params w.directory w'.directory result := by
  have refines := World.refines_execute s w text ordered
  rw [Memory.executeText, runs] at refines
  rw [execute] at runs
  cases reads : parse text params with
  | error e =>
    rw [reads] at runs
    cases runs
    exact .failed rfl
  | ok st =>
    rw [reads] at refines runs
    have framed : Framed st.table.fileName Tells w (result, w') := runs ▸ writes_run s st w
    cases result with
    | error e => exact .failed framed.directory_eq_of_error
    | ok o =>
      by_cases touches : Tells o
      · obtain ⟨gives, memory⟩ := refines rfl
        have covers : Covers Shallow params :=
          ⟨fun v scalar => (Nat.le_of_eq scalar).trans (Nat.zero_le 125), shallow⟩
        obtain ⟨one, change, roomy, put⟩ := Memory.execute_changesOne
          (w.directory.tableEntries_roomy st.table) (parse_assigns covers reads) gives.symm touches
        have written : w'.directory.tableEntries st.table =
            rereadEntries ((w.memory.execute s.config.idStrategy st).2.entries st.table) :=
          (congrArg (fun m => m.entries st.table) memory).trans (if_pos put)
        refine .touched reads one change roomy written ?_ fun name other => framed.find?_other other
        rw [written, rereadEntries_eq_iff, storable_iff]
        exact and_iff_right roomy
      · refine .idle (Decidable.not_not.mp touches) (framed.directory_eq fun a given => ?_)
        cases given
        exact touches

/-- Whatever a text says, it leaves all files as they are and fails or touches no record, or it
writes the table that its statement names with one entry changed. -/
theorem execute_contained (s : Store) (w w' : World) (text : String) (params : List Json)
    (result : Except StoreError Outcome) (values : ∀ v ∈ params, Ordered v ∧ depth v ≤ 125)
    (runs : w.run (execute s text params) = (result, w') ∨
      w.run (executeOrEmpty s text params) = (result, w')) :
    Contained text params w.directory w'.directory result := by
  have ordered : ∀ v ∈ params, Ordered v := fun v mem => (values v mem).1
  have shallow : ∀ v ∈ params, Shallow v := fun v mem => (values v mem).2
  rcases runs with runs | runs
  · exact contained_of_execute ordered shallow runs
  rw [executeOrEmpty, World.run_tryCatch] at runs
  rcases executes : w.run (execute s text params) with ⟨e | o, w₁⟩
  · have contained := contained_of_execute ordered shallow executes
    rw [executes] at runs
    obtain ⟨same⟩ := contained
    dsimp only at runs
    split at runs <;> cases runs
    · exact .idle rfl same
    · exact .failed same
  · rw [executes] at runs
    cases runs
    exact contained_of_execute ordered shallow executes

/-- A change of the second of two records, with junk behind the statement. -/
theorem execute_contained_change :
    let file := "[\x7b\"id\":\"a\"\x7d,\x7b\"id\":7\x7d,null]".toUTF8
    let w : World :=
      ⟨Directory.empty.set Table.pages.fileName (.file file), fun _ => ⟨0, 0⟩, 0, fun _ => 0, 0⟩
    let text := "UPDATE pages SET title = ? WHERE id = ? OR 1 = 1"
    let params : List Json := [.array [.text "New"], .text "7"]
    let ran := w.run (executeOrEmpty ⟨"data", .default⟩ text params)
    (∀ v ∈ params, Ordered v ∧ depth v ≤ 125) ∧
      (ran.1.toOption.map Outcome.affectedRows) = some 1 ∧
      Contained text params w.directory ran.2.directory ran.1 := by
  intro file w text params ran
  have values : ∀ v ∈ params, Ordered v ∧ depth v ≤ 125 :=
    List.forall_mem_cons.mpr ⟨⟨⟨trivial, trivial⟩, by decide⟩,
      List.forall_mem_singleton.mpr ⟨trivial, by decide⟩⟩
  exact ⟨values, by decide +kernel,
    execute_contained ⟨"data", .default⟩ w ran.2 text params ran.1 values (.inr rfl)⟩

/-- A change of one entry alters a number of another one. -/
theorem change_alters_other :
    let file := "[\x7b\"id\":\"a\"\x7d,\x7b\"id\":\"b\",\"x\":10e-25\x7d]".toUTF8
    let w : World :=
      ⟨Directory.empty.set Table.pages.fileName (.file file), fun _ => ⟨0, 0⟩, 0, fun _ => 0, 0⟩
    let text := "UPDATE pages SET title = ? WHERE id = ?"
    let ran := w.run (execute ⟨"data", .default⟩ text [.text "t", .text "a"])
    let other (d : Directory) : Option String := (d.tableEntries .pages)[1]?.map Json.toText
    (ran.1.toOption.map Outcome.affectedRows) = some 1 ∧
      other w.directory = some "\x7b\"id\":\"b\",\"x\":1e-24\x7d" ∧
      other ran.2.directory = some "\x7b\"id\":\"b\",\"x\":1.0000000000000001e-24\x7d" := by
  decide +kernel

end Sql

end ContentStore
