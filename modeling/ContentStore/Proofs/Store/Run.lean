import ContentStore.Store.Basic
/-!
# Running an operation in a world

What an operation gives and the world that it leaves, said for each building block: composition,
the clock, chance, reading and writing a table, and the making of new records.
-/

namespace ContentStore

/-- What an operation gives in a world, and the world that it leaves. -/
def World.run {ε α : Type} (w : World) (action : ExceptT ε (StateM World) α) :
    Except ε α × World :=
  StateT.run (ExceptT.run action) w

namespace World

variable {ε α β : Type}

/-! ## Composition -/

@[simp] theorem run_pure (w : World) (a : α) :
    w.run (pure a : ExceptT ε (StateM World) α) = (.ok a, w) := rfl

/-- A composition goes on where its first operation succeeds. -/
theorem run_bind (w : World) (action : ExceptT ε (StateM World) α)
    (f : α → ExceptT ε (StateM World) β) :
    w.run (action >>= f) =
      match w.run action with
      | (.ok a, w') => w'.run (f a)
      | (.error e, w') => (.error e, w') := by
  rw [run, ExceptT.run_bind, StateT.run_bind, run]
  rcases StateT.run action.run w with ⟨_ | _, w'⟩ <;> rfl

theorem run_bind_ok {w w' : World} {action : ExceptT ε (StateM World) α} {a : α}
    (f : α → ExceptT ε (StateM World) β) (runs : w.run action = (.ok a, w')) :
    w.run (action >>= f) = w'.run (f a) := by
  rw [run_bind, runs]

/-- A composition that succeeds is two operations that succeed. -/
theorem run_bind_eq_ok {w w' : World} {action : ExceptT ε (StateM World) α}
    {f : α → ExceptT ε (StateM World) β} {b : β} (runs : w.run (action >>= f) = (.ok b, w')) :
    ∃ a w₁, w.run action = (.ok a, w₁) ∧ w₁.run (f a) = (.ok b, w') := by
  rw [run_bind] at runs
  split at runs
  · next a w₁ first => exact ⟨a, w₁, first, runs⟩
  · cases runs

/-- A failure is handled in the world that it leaves. -/
theorem run_tryCatch (w : World) (action : ExceptT ε (StateM World) α)
    (handle : ε → ExceptT ε (StateM World) α) :
    w.run (tryCatch action handle) =
      match w.run action with
      | (.ok a, w') => (.ok a, w')
      | (.error e, w') => w'.run (handle e) := by
  have caught : ExceptT.run (tryCatch action handle) = (do
      match ← action.run with
      | .ok a => return .ok a
      | .error e => (handle e).run : StateM World (Except ε α)) := rfl
  rw [run, caught, StateT.run_bind, run]
  rcases StateT.run action.run w with ⟨_ | _, w'⟩ <;> rfl

/-! ## The parts of the world -/

@[simp] theorem run_get (w : World) : w.run (get : Action World) = (.ok w, w) := rfl

@[simp] theorem run_now (w : World) :
    w.run World.now = (.ok (w.clock w.readings), { w with readings := w.readings + 1 }) := rfl

@[simp] theorem run_load (t : Table) (w : World) :
    w.run (Store.load t) = (.ok (w.directory.tableEntries t), w) := rfl

theorem run_save (s : Store) (t : Table) (items : List Json) (w : World) :
    w.run (s.save t items) =
      match w.directory.writeTable s.config t items with
      | .ok d => (.ok (), { w with directory := d })
      | .error e => (.error e, w) := by
  rw [Store.save, run_bind_ok _ (run_get w)]
  cases w.directory.writeTable s.config t items <;> rfl

/-! ## New records -/

/-- The record that the store makes with the reading and the draw that lie some steps ahead. -/
def newRecordAhead (strategy : IdStrategy) (w : World) (steps : Nat) (fields : Record) : Record :=
  let now := w.clock (w.readings + steps)
  Store.newRecord (Identifier.make strategy now (w.chance (w.draws + steps))) now.stamp fields

theorem run_stampNew (s : Store) (fields : Record) (w : World) :
    w.run (s.stampNew fields) =
      (.ok (w.newRecordAhead s.config.idStrategy 0 fields),
        { w with readings := w.readings + 1, draws := w.draws + 1 }) := rfl

/-- Every new record takes one reading and one draw. -/
theorem run_stampAll (s : Store) (list : List Record) (w : World) :
    w.run (list.mapM s.stampNew) =
      (.ok (list.mapIdx (w.newRecordAhead s.config.idStrategy)),
        { w with readings := w.readings + list.length, draws := w.draws + list.length }) := by
  induction list generalizing w with
  | nil => rfl
  | cons fields rest ih =>
    rw [List.mapM_cons, run_bind_ok _ (run_stampNew s fields w), run_bind_ok _ (ih _)]
    rw [run_pure, List.mapIdx_cons]
    refine Prod.ext ?_ ?_
    · refine congrArg Except.ok (congrArg (List.cons _) ?_)
      refine congrArg (List.mapIdx · rest) ?_
      funext steps fields
      simp only [newRecordAhead, Nat.add_assoc, Nat.add_comm 1 steps]
    · rw [List.length_cons, Nat.add_comm rest.length 1, ← Nat.add_assoc, ← Nat.add_assoc]

end World

end ContentStore
