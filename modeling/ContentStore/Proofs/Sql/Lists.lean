import ContentStore.Proofs.Sql.Values
import ContentStore.Proofs.Store.Memory
import ContentStore.Sql.Run
/-!
# Statements on lists in memory

What a statement does to the lists of entries (`Memory.execute`), with the present time taken from
the clock for each assignment that asks for it.  A statement on the files does the same, and the
list that it has put is read again (`refines_run`); so does a text with its parameters
(`refines_execute`).
-/

namespace ContentStore

open Json (Ordered)
open Sql (Assignment Outcome Select Statement)

namespace Memory

/-- The fields and values of assignments; each present time takes a reading of the clock. -/
def resolve (m : Memory) : List Assignment → List (String × Json) × Memory
  | [] => ([], m)
  | ⟨field, .value v⟩ :: rest =>
    let (pairs, m') := m.resolve rest
    ((field, v) :: pairs, m')
  | ⟨field, .now⟩ :: rest =>
    let (pairs, m') := { m with readings := m.readings + 1 }.resolve rest
    ((field, .text (m.clock m.readings).stamp) :: pairs, m')

/-- Resolving assignments only takes readings of the clock. -/
theorem resolve_snd (m : Memory) (assignments : List Assignment) :
    ∃ n, (m.resolve assignments).2 = { m with readings := n } := by
  induction assignments generalizing m with
  | nil => exact ⟨m.readings, rfl⟩
  | cons a rest ih =>
    obtain ⟨field, value | _⟩ := a
    · exact ih m
    · exact ih { m with readings := m.readings + 1 }

/-- The rows of a selection. -/
def rows (m : Memory) (selection : Select) : List Record :=
  Sql.window selection.offset selection.limit
    (Sql.sortRows selection.order
      ((objects (m.entries selection.table)).filter fun r =>
        selection.filters.all fun f => f.passes r))

/-- A statement on the lists. -/
def execute (strategy : IdStrategy) (m : Memory) : Statement → Except StoreError Outcome × Memory
  | .select selection => (.ok (.rows (m.rows selection)), m)
  | .insert t values =>
    let (pairs, m) := m.resolve values
    answered (fun record => .effect (Record.id? record) 1)
      (m.create strategy t (Json.Members.ofPairs pairs))
  | .update t id changes =>
    match id.scalarText? with
    | none => (.ok (Sql.touched false), m)
    | some id =>
      let (pairs, m) := m.resolve changes
      answered (fun found => Sql.touched found.isSome) (m.update t id (Json.Members.ofPairs pairs))
  | .delete t id =>
    match id.scalarText? with
    | none => (.ok (Sql.touched false), m)
    | some id => answered Sql.touched (m.delete t id)

/-- A text with its parameters on the lists. -/
def executeText (strategy : IdStrategy) (m : Memory) (text : String) (params : List Json) :
    Except StoreError Outcome × Memory :=
  match Sql.parse text params with
  | .ok st => m.execute strategy st
  | .error e => (.error e, m)

end Memory

namespace World

/-- The pairs of assignments that are resolved on the files are those of the lists. -/
theorem run_assignments (assignments : List Assignment) (w : World) :
    ∃ w', w.run (assignments.mapM fun a => do return (a.field, ← Sql.resolveOne a.assigned)) =
        (.ok (w.memory.resolve assignments).1, w') ∧
      w'.memory = (w.memory.resolve assignments).2 := by
  induction assignments generalizing w with
  | nil => exact ⟨w, rfl, rfl⟩
  | cons a rest ih =>
    obtain ⟨field, assigned⟩ := a
    rw [List.mapM_cons]
    cases assigned with
    | value v =>
      obtain ⟨w', runs, memory⟩ := ih w
      have first : w.run (do return (field, ← Sql.resolveOne (.value v))) = (.ok (field, v), w) :=
        rfl
      rw [run_bind_ok _ first, run_bind_ok _ runs]
      exact ⟨w', rfl, memory⟩
    | now =>
      obtain ⟨w', runs, memory⟩ := ih { w with readings := w.readings + 1 }
      have first : w.run (do return (field, ← Sql.resolveOne .now)) =
          (.ok (field, .text (w.clock w.readings).stamp),
            { w with readings := w.readings + 1 }) := rfl
      rw [run_bind_ok _ first, run_bind_ok _ runs]
      exact ⟨w', rfl, memory⟩

theorem run_resolve (assignments : List Assignment) (w : World) :
    ∃ w', w.run (Sql.resolve assignments) =
        (.ok (Json.Members.ofPairs (w.memory.resolve assignments).1), w') ∧
      w'.memory = (w.memory.resolve assignments).2 := by
  obtain ⟨w', runs, memory⟩ := run_assignments assignments w
  exact ⟨w', by rw [Sql.resolve, run_bind_ok _ runs]; rfl, memory⟩

/-- What assignments are resolved to is an assigned value or the present time. -/
theorem resolve_has {P : Json → Prop} (text : ∀ s, P (.text s)) {assignments : List Assignment}
    (has : ∀ a ∈ assignments, a.assigned.Has P) (m : Memory) :
    ∀ p ∈ (m.resolve assignments).1, P p.2 := by
  induction assignments generalizing m with
  | nil => exact fun _ mem => absurd mem List.not_mem_nil
  | cons a rest ih =>
    obtain ⟨hasFirst, hasRest⟩ := List.forall_mem_cons.mp has
    obtain ⟨field, assigned⟩ := a
    cases assigned with
    | value v => exact List.forall_mem_cons.mpr ⟨hasFirst, ih hasRest m⟩
    | now => exact List.forall_mem_cons.mpr ⟨text _, ih hasRest _⟩

theorem resolve_ordered {assignments : List Assignment}
    (ordered : ∀ a ∈ assignments, a.assigned.Has Ordered) (m : Memory) :
    Ordered (.object (Json.Members.ofPairs (m.resolve assignments).1)) :=
  Json.Ordered.setAll ⟨Json.keysAscend_nil, trivial⟩ (resolve_has (fun _ => trivial) ordered m)

/-- A statement on the files does what it does on the lists. -/
theorem refines_run (s : Store) (w : World) {st : Statement} (ordered : st.Assigns Ordered) :
    Refines (w.run (Sql.run s st)) (w.memory.execute s.config.idStrategy st) := by
  cases st with
  | select selection => exact refines_same w _
  | insert t values =>
    obtain ⟨w', resolves, memory⟩ := run_resolve values w
    rw [Sql.run, run_bind_ok _ resolves]
    simp only [Memory.execute]
    rw [← memory]
    exact refines_answered _ (refines_create s t w' (resolve_ordered ordered _))
  | update t id changes =>
    rw [Sql.run, Memory.execute]
    cases id.scalarText? with
    | none => exact refines_same w _
    | some id =>
      obtain ⟨w', resolves, memory⟩ := run_resolve changes w
      dsimp only
      rw [run_bind_ok _ resolves, ← memory]
      exact refines_answered _ (refines_update s t w' id (resolve_ordered ordered _))
  | delete t id =>
    rw [Sql.run, Memory.execute]
    cases id.scalarText? with
    | none => exact refines_same w _
    | some id => exact refines_answered _ (refines_delete s t w id)

/-- A text with its parameters on the files does what it does on the lists. -/
theorem refines_execute (s : Store) (w : World) (text : String) {params : List Json}
    (ordered : ∀ v ∈ params, Ordered v) :
    Refines (w.run (Sql.execute s text params))
      (w.memory.executeText s.config.idStrategy text params) := by
  rw [Sql.execute, Memory.executeText]
  cases reads : Sql.parse text params with
  | ok st => exact refines_run s w (Sql.parse_assigns (Sql.covers_ordered ordered) reads)
  | error e => exact refines_same w _

end World

end ContentStore
