import ContentStore.Proofs.Directory
import ContentStore.Proofs.Store.Run
/-!
# What an action leaves alone

An action of the store puts at most one file in place, and only if it succeeds and its result tells
of a write (`Writes`); whatever it gives, it leaves the clock as it is.  So an action that fails,
and one that tells of no write, changes no file.  The rules follow the composition of actions, and
every operation that writes is an instance: an addition tells of a write in every result, a change
by the record it gives, and a deletion by its answer.
-/

namespace ContentStore

variable {ε α β : Type}

/-- The clock is the same after an action, and the files are the same, or one file has been put in
place by an action that succeeded and tells of it. -/
structure Framed (file : String) (tells : α → Prop) (w : World) (ran : Except ε α × World) :
    Prop where
  clock : ran.2.clock = w.clock
  files : ran.2.directory = w.directory ∨ ∃ a bytes, ran.1 = .ok a ∧ tells a ∧
    ran.2.directory = w.directory.set file (.file bytes)

/-- An action writes at most one file, and tells of it. -/
def Writes (file : String) (tells : α → Prop) (action : ExceptT ε (StateM World) α) : Prop :=
  ∀ w : World, Framed file tells w (w.run action)

/-- An action leaves the clock and the files as they are. -/
def Quiet (action : ExceptT ε (StateM World) α) : Prop :=
  ∀ w : World, (w.run action).2.clock = w.clock ∧ (w.run action).2.directory = w.directory

namespace Framed

variable {file : String} {tells : α → Prop} {w w' : World}

/-- An action that tells of no write has changed no file. -/
theorem directory_eq {result : Except ε α} (framed : Framed file tells w (result, w'))
    (silent : ∀ a, result = .ok a → ¬tells a) : w'.directory = w.directory := by
  rcases framed.files with same | ⟨a, -, given, told, -⟩
  · exact same
  · exact absurd told (silent a given)

/-- An action that fails has changed no file. -/
theorem directory_eq_of_error {e : ε} (framed : Framed file tells w (.error e, w')) :
    w'.directory = w.directory :=
  framed.directory_eq nofun

/-- Under every other name an action leaves what stands there. -/
theorem find?_other {result : Except ε α} (framed : Framed file tells w (result, w'))
    {name : String} (other : name ≠ file) :
    w'.directory.find? name = w.directory.find? name := by
  rcases framed.files with same | ⟨_, _, _, _, put⟩
  · exact congrArg (Directory.find? name) same
  · exact (congrArg (Directory.find? name) put).trans
      ((Directory.find?_set file name _ w.directory).trans (if_neg (Ne.symm other)))

end Framed

/-! ## Composition -/

theorem quiet_pure (a : α) : Quiet (pure a : ExceptT ε (StateM World) α) :=
  fun _ => ⟨rfl, rfl⟩

theorem quiet_throw (e : ε) : Quiet (throw e : ExceptT ε (StateM World) α) :=
  fun _ => ⟨rfl, rfl⟩

section Composition

variable {file : String} {tells : α → Prop} {told : β → Prop}
  {action : ExceptT ε (StateM World) α} {f : α → ExceptT ε (StateM World) β}

theorem Quiet.writes (quiet : Quiet action) : Writes file tells action :=
  fun w => ⟨(quiet w).1, .inl (quiet w).2⟩

/-- Quiet actions one after the other are quiet. -/
theorem Quiet.andThen (first : Quiet action) (next : ∀ a, Quiet (f a)) : Quiet (action >>= f) := by
  intro w
  obtain ⟨sameClock, same⟩ := first w
  rw [World.run_bind]
  generalize w.run action = ran at sameClock same
  obtain ⟨e | a, w₁⟩ := ran
  · exact ⟨sameClock, same⟩
  · obtain ⟨clock, directory⟩ := next a w₁
    exact ⟨clock.trans sameClock, directory.trans same⟩

theorem quiet_mapM {each : β → ExceptT ε (StateM World) α} (quiet : ∀ b, Quiet (each b))
    (list : List β) : Quiet (list.mapM each) := by
  induction list with
  | nil => exact quiet_pure []
  | cons b rest ih =>
    rw [List.mapM_cons]
    exact (quiet b).andThen fun a => ih.andThen fun more => quiet_pure (a :: more)

/-- What runs after a quiet action decides what is written. -/
theorem Quiet.bind (quiet : Quiet action) (next : ∀ a, Writes file told (f a)) :
    Writes file told (action >>= f) := by
  intro w
  obtain ⟨sameClock, same⟩ := quiet w
  rw [World.run_bind]
  generalize w.run action = ran at sameClock same
  obtain ⟨e | a, w₁⟩ := ran
  · exact ⟨sameClock, .inl same⟩
  · obtain ⟨clock, files⟩ := next a w₁
    exact ⟨clock.trans sameClock, same ▸ files⟩

/-- Behind a write a result is given; behind an action that tells of none the rest may write. -/
theorem Writes.bind (first : Writes file tells action)
    (give : ∀ a, tells a → ∃ b, f a = pure b ∧ told b)
    (next : ∀ a, ¬tells a → Writes file told (f a)) : Writes file told (action >>= f) := by
  intro w
  have framed := first w
  rw [World.run_bind]
  generalize w.run action = ran at framed
  obtain ⟨e | a, w₁⟩ := ran
  · exact ⟨framed.clock, .inl framed.directory_eq_of_error⟩
  by_cases tellsOf : tells a
  · obtain ⟨b, gives, toldOf⟩ := give a tellsOf
    simp only [gives, World.run_pure]
    refine ⟨framed.clock, framed.files.imp_right ?_⟩
    rintro ⟨_, bytes, _, _, put⟩
    exact ⟨b, bytes, rfl, toldOf, put⟩
  · have same : w₁.directory = w.directory := framed.directory_eq fun a' given => by
      cases given
      exact tellsOf
    obtain ⟨clock, files⟩ := next a tellsOf w₁
    exact ⟨clock.trans framed.clock, same ▸ files⟩

/-- A failure that is handled without a write has written nothing. -/
theorem Writes.handled {handle : ε → ExceptT ε (StateM World) α} (first : Writes file tells action)
    (next : ∀ e, Quiet (handle e)) : Writes file tells (tryCatch action handle) := by
  intro w
  have framed := first w
  rw [World.run_tryCatch]
  generalize w.run action = ran at framed
  obtain ⟨e | a, w₁⟩ := ran
  · obtain ⟨clock, same⟩ := next e w₁
    exact ⟨clock.trans framed.clock, .inl (same.trans framed.directory_eq_of_error)⟩
  · exact framed

/-- A result is looked at in another way, which tells of the same writes. -/
theorem Writes.map {g : α → β} (first : Writes file tells action)
    (same : ∀ a, tells a → told (g a)) : Writes file told (do return g (← action)) :=
  first.bind (fun a tellsOf => ⟨g a, rfl, same a tellsOf⟩) fun a _ => (quiet_pure (g a)).writes

/-- An action whose every success tells of a write is followed by a result. -/
theorem Writes.give {b : β} (first : Writes file (fun _ => True) action) (toldOf : told b) :
    Writes file told (do let _ ← action; return b) :=
  first.bind (fun _ _ => ⟨b, rfl, toldOf⟩) fun _ silent => absurd trivial silent

end Composition

/-! ## The operations of the store -/

namespace Store

theorem quiet_load (t : Table) : Quiet (load t) := fun _ => ⟨rfl, rfl⟩

theorem quiet_now : Quiet World.now := fun _ => ⟨rfl, rfl⟩

theorem writes_save (s : Store) (t : Table) (items : List Json) :
    Writes t.fileName (fun _ => True) (s.save t items) := by
  intro w
  rw [World.run_save]
  cases written : w.directory.writeTable s.config t items with
  | error e => exact ⟨rfl, .inl rfl⟩
  | ok d =>
    obtain ⟨-, put⟩ := Directory.writeTable_eq.mp written
    exact ⟨rfl, .inr ⟨(), _, rfl, trivial, put⟩⟩

theorem quiet_stampNew (s : Store) (fields : Record) : Quiet (s.stampNew fields) :=
  fun _ => ⟨rfl, rfl⟩

theorem writes_create (s : Store) (t : Table) (fields : Record) :
    Writes t.fileName (fun _ => True) (s.create t fields) :=
  (quiet_load t).bind fun _ => (quiet_stampNew s fields).bind fun _ =>
    (writes_save s t _).give trivial

theorem writes_bulkCreate (s : Store) (t : Table) (list : List Record) :
    Writes t.fileName (fun _ => True) (s.bulkCreate t list) :=
  (quiet_load t).bind fun _ => (quiet_mapM (quiet_stampNew s) list).bind fun _ =>
    (writes_save s t _).give trivial

theorem writes_update (s : Store) (t : Table) (id : String) (changes : Record) :
    Writes t.fileName (fun found => found.isSome = true) (s.update t id changes) := by
  refine (quiet_load t).bind fun items => ?_
  split
  · exact (quiet_pure _).writes
  split
  · exact quiet_now.bind fun now => (writes_save s t _).give rfl
  · exact (quiet_pure _).writes

theorem writes_delete (s : Store) (t : Table) (id : String) :
    Writes t.fileName (fun hit => hit = true) (s.delete t id) := by
  refine (quiet_load t).bind fun items => ?_
  split
  · exact (quiet_pure _).writes
  · exact (writes_save s t _).give rfl

end Store

end ContentStore
