import ContentStore.Proofs.Sql.Lists
import ContentStore.Store.Opening
/-!
# The layout of the files is invisible

Two stores that make identifiers in the same way may lay out their files differently, and put them
in place differently.  Run side by side, with the same clock and chance, from worlds whose tables
hold the same entries (`Alike`), every action gives the same result in both and leaves such worlds
again (`Agree`).  The rules follow the composition of actions; the one rule about files is that of a
write (`agree_save`), which fails in both at a folder and is read back as the same entries in either
layout.  A whole run of calls is then an induction over the calls (`layout_invisible`).
-/

namespace ContentStore

open Json (Ordered)
open Sql (Assigned Assignment Outcome Statement)

/-! ## Two runs side by side -/

/-- The tables of two worlds hold the same entries and can be written alike, and clock and chance
are the same. -/
structure Alike (w₁ w₂ : World) : Prop where
  memory : w₁.memory = w₂.memory
  writable : ∀ t, w₁.directory.Writable t ↔ w₂.directory.Writable t

/-- An error of a file that could not be written. -/
inductive Unwritten : StoreError → Prop
  | io : Unwritten .io
  | persist (bytes : ByteArray) : Unwritten (.persist bytes)

theorem Unwritten.not_unsupported {e : StoreError} (unwritten : Unwritten e) :
    e.isUnsupported = false := by
  cases unwritten <;> rfl

/-- Two results are the same: related values, one error, or two errors of unwritten files. -/
inductive SameResult {α β : Type} (R : α → β → Prop) :
    Except StoreError α → Except StoreError β → Prop
  | ok {a : α} {b : β} (related : R a b) : SameResult R (.ok a) (.ok b)
  | error (e : StoreError) : SameResult R (.error e) (.error e)
  | unwritten {e₁ e₂ : StoreError} (first : Unwritten e₁) (second : Unwritten e₂) :
    SameResult R (.error e₁) (.error e₂)

/-- In alike worlds two actions give the same result and leave alike worlds. -/
def Agree {α β : Type} (R : α → β → Prop) (p : Action α) (q : Action β) : Prop :=
  ∀ w₁ w₂, Alike w₁ w₂ →
    SameResult R (w₁.run p).1 (w₂.run q).1 ∧ Alike (w₁.run p).2 (w₂.run q).2

/-- The same value on both sides, with a property. -/
def Both {α : Type} (Good : α → Prop) (a b : α) : Prop := a = b ∧ Good a

namespace Alike

variable {w₁ w₂ : World}

theorem tableEntries (alike : Alike w₁ w₂) (t : Table) :
    w₁.directory.tableEntries t = w₂.directory.tableEntries t :=
  congrArg (fun m => m.entries t) alike.memory

theorem records (alike : Alike w₁ w₂) (t : Table) :
    w₁.directory.records t = w₂.directory.records t := by
  rw [Directory.records, Directory.records, alike.tableEntries t]

end Alike

/-! ## Composition -/

section Composition

variable {α β α' β' : Type} {R : α → β → Prop} {S : α' → β' → Prop} {p : Action α} {q : Action β}

theorem agree_pure {a : α} {b : β} (related : R a b) : Agree R (pure a) (pure b) :=
  fun _ _ alike => ⟨.ok related, alike⟩

theorem agree_throw (e : StoreError) : Agree R (throw e) (throw e) :=
  fun _ _ alike => ⟨.error e, alike⟩

theorem agree_unwritten {e₁ e₂ : StoreError} (first : Unwritten e₁) (second : Unwritten e₂) :
    Agree R (throw e₁) (throw e₂) :=
  fun _ _ alike => ⟨.unwritten first second, alike⟩

theorem agree_get : Agree Alike get get := fun _ _ alike => ⟨.ok alike, alike⟩

theorem Agree.bind {f : α → Action α'} {g : β → Action β'} (first : Agree R p q)
    (next : ∀ a b, R a b → Agree S (f a) (g b)) : Agree S (p >>= f) (q >>= g) := by
  intro w₁ w₂ alike
  obtain ⟨results, left⟩ := first w₁ w₂ alike
  rw [World.run_bind, World.run_bind]
  generalize w₁.run p = ran₁ at results left
  generalize w₂.run q = ran₂ at results left
  obtain ⟨r₁, w₁'⟩ := ran₁
  obtain ⟨r₂, w₂'⟩ := ran₂
  cases results with
  | ok related => exact next _ _ related w₁' w₂' left
  | error e => exact ⟨.error e, left⟩
  | unwritten first second => exact ⟨.unwritten first second, left⟩

/-- What is given is looked at in another way. -/
theorem Agree.map {f : α → α'} {g : β → β'} (first : Agree R p q)
    (related : ∀ a b, R a b → S (f a) (g b)) :
    Agree S (do return f (← p)) (do return g (← q)) :=
  first.bind fun a b holds => agree_pure (related a b holds)

/-- What is read from alike worlds. -/
theorem agree_read {f : World → α} {g : World → β} (same : ∀ w₁ w₂, Alike w₁ w₂ → R (f w₁) (g w₂)) :
    Agree R (do return f (← get)) (do return g (← get)) :=
  agree_get.map same

theorem Agree.handled {handle₁ : StoreError → Action α} {handle₂ : StoreError → Action β}
    (first : Agree R p q)
    (next : ∀ e₁ e₂, SameResult R (.error e₁) (.error e₂) → Agree R (handle₁ e₁) (handle₂ e₂)) :
    Agree R (tryCatch p handle₁) (tryCatch q handle₂) := by
  intro w₁ w₂ alike
  obtain ⟨results, left⟩ := first w₁ w₂ alike
  rw [World.run_tryCatch, World.run_tryCatch]
  generalize w₁.run p = ran₁ at results left
  generalize w₂.run q = ran₂ at results left
  obtain ⟨r₁, w₁'⟩ := ran₁
  obtain ⟨r₂, w₂'⟩ := ran₂
  cases results with
  | ok related => exact ⟨.ok related, left⟩
  | error e => exact next e e (.error e) w₁' w₂' left
  | unwritten first second => exact next _ _ (.unwritten first second) w₁' w₂' left

theorem agree_mapM {Good : β → Prop} {f g : α → Action β} {list : List α}
    (each : ∀ a ∈ list, Agree (Both Good) (f a) (g a)) :
    Agree (Both fun bs => ∀ b ∈ bs, Good b) (list.mapM f) (list.mapM g) := by
  induction list with
  | nil => exact agree_pure ⟨rfl, nofun⟩
  | cons a rest ih =>
    obtain ⟨here, later⟩ := List.forall_mem_cons.mp each
    rw [List.mapM_cons, List.mapM_cons]
    refine here.bind ?_
    rintro b _ ⟨rfl, good⟩
    refine (ih later).map ?_
    rintro bs _ ⟨rfl, all⟩
    exact ⟨rfl, List.forall_mem_cons.mpr ⟨good, all⟩⟩

end Composition

/-! ## The operations of the store -/

section Store

variable {s₁ s₂ : Store}

theorem agree_load (t : Table) : Agree (Both OrderedEntries) (Store.load t) (Store.load t) :=
  agree_read fun w₁ _ alike => ⟨alike.tableEntries t, w₁.directory.tableEntries_ordered t⟩

theorem agree_now : Agree Eq World.now World.now := by
  intro w₁ w₂ alike
  have clock : w₁.clock = w₂.clock := congrArg Memory.clock alike.memory
  have readings : w₁.readings = w₂.readings := congrArg Memory.readings alike.memory
  rw [World.run_now, World.run_now]
  refine ⟨.ok (by rw [clock, readings]), ?_, alike.writable⟩
  exact congrArg (fun m : Memory => { m with readings := m.readings + 1 }) alike.memory

theorem agree_draw : Agree Eq World.draw World.draw := by
  intro w₁ w₂ alike
  have chance : w₁.chance = w₂.chance := congrArg Memory.chance alike.memory
  have draws : w₁.draws = w₂.draws := congrArg Memory.draws alike.memory
  have run : ∀ w : World,
      w.run World.draw = (.ok (w.chance w.draws), { w with draws := w.draws + 1 }) := fun _ => rfl
  rw [run, run]
  refine ⟨.ok (by rw [chance, draws]), ?_, alike.writable⟩
  exact congrArg (fun m : Memory => { m with draws := m.draws + 1 }) alike.memory

theorem unwritten_of_folder (config : Config) (items : List Json) :
    Unwritten (Directory.writeFailure config items) := by
  unfold Directory.writeFailure
  split
  · exact .persist _
  · exact .io

/-- Both writes fail at a folder, or both put a file in place that is read as the same entries. -/
theorem agree_save (s₁ s₂ : Store) (t : Table) {items : List Json}
    (ordered : OrderedEntries items) :
    Agree Eq (s₁.save t items) (s₂.save t items) := by
  intro w₁ w₂ alike
  rw [World.run_save, World.run_save]
  by_cases writable : w₁.directory.Writable t
  · have written₁ := Directory.writeTable_of_writable s₁.config items writable
    have written₂ :=
      Directory.writeTable_of_writable s₂.config items ((alike.writable t).mp writable)
    have memory₁ := World.memory_of_written ordered written₁
    have memory₂ := World.memory_of_written ordered written₂
    rw [written₁, written₂]
    refine ⟨.ok rfl, ?_, fun other => ?_⟩
    · rw [memory₁, memory₂, alike.memory]
    · rw [Directory.Writable, Directory.Writable, Directory.find?_set, Directory.find?_set]
      split
      · exact ⟨fun _ => nofun, fun _ => nofun⟩
      · exact alike.writable other
  · rw [Directory.writeTable_of_folder _ _ writable,
      Directory.writeTable_of_folder _ _ (mt (alike.writable t).mpr writable)]
    exact ⟨.unwritten (unwritten_of_folder _ _) (unwritten_of_folder _ _), alike⟩

variable (same : s₁.config.idStrategy = s₂.config.idStrategy)
include same

theorem agree_stampNew {fields : Record} (ordered : Ordered (.object fields)) :
    Agree (Both fun r => Ordered (.object r)) (s₁.stampNew fields) (s₂.stampNew fields) := by
  refine agree_now.bind ?_
  rintro now _ rfl
  refine agree_draw.bind ?_
  rintro draw _ rfl
  rw [same]
  exact agree_pure ⟨rfl, Store.newRecord_ordered ordered _ _⟩

theorem agree_create (t : Table) {fields : Record} (ordered : Ordered (.object fields)) :
    Agree Eq (s₁.create t fields) (s₂.create t fields) := by
  refine (agree_load t).bind ?_
  rintro items _ ⟨rfl, orderedItems⟩
  refine (agree_stampNew same ordered).bind ?_
  rintro record _ ⟨rfl, orderedRecord⟩
  exact (agree_save s₁ s₂ t (List.forall_mem_append.mpr
    ⟨orderedItems, List.forall_mem_singleton.mpr orderedRecord⟩)).map fun _ _ _ => rfl

theorem agree_bulkCreate (t : Table) {list : List Record}
    (ordered : ∀ fields ∈ list, Ordered (.object fields)) :
    Agree Eq (s₁.bulkCreate t list) (s₂.bulkCreate t list) := by
  refine (agree_load t).bind ?_
  rintro items _ ⟨rfl, orderedItems⟩
  refine (agree_mapM fun fields mem => agree_stampNew same (ordered fields mem)).bind ?_
  rintro created _ ⟨rfl, orderedCreated⟩
  refine (agree_save s₁ s₂ t (List.forall_mem_append.mpr ⟨orderedItems, fun v mem => ?_⟩)).map
    fun _ _ _ => rfl
  obtain ⟨record, made, rfl⟩ := List.mem_map.mp mem
  exact orderedCreated record made

omit same

theorem agree_update (t : Table) (id : String) {changes : Record}
    (ordered : Ordered (.object changes)) :
    Agree Eq (s₁.update t id changes) (s₂.update t id changes) := by
  refine (agree_load t).bind ?_
  rintro items _ ⟨rfl, orderedItems⟩
  cases items.findIdx? (hasId id) with
  | none => exact agree_pure rfl
  | some i =>
    dsimp only
    cases here : items[i]? with
    | none => exact agree_pure rfl
    | some entry =>
      cases entry with
      | object record =>
        refine agree_now.bind ?_
        rintro now _ rfl
        have orderedRecord := orderedItems _ (List.mem_of_getElem? here)
        refine (agree_save s₁ s₂ t fun v mem => ?_).map fun _ _ _ => rfl
        rcases List.mem_or_eq_of_mem_set mem with old | rfl
        · exact orderedItems v old
        · exact Store.changed_ordered orderedRecord ordered _
      | _ => exact agree_pure rfl

theorem agree_delete (t : Table) (id : String) :
    Agree Eq (s₁.delete t id) (s₂.delete t id) := by
  refine (agree_load t).bind ?_
  rintro items _ ⟨rfl, ordered⟩
  cases items.findIdx? (hasId id) with
  | none => exact agree_pure rfl
  | some i =>
    exact (agree_save s₁ s₂ t fun v mem => ordered v (List.mem_of_mem_eraseIdx mem)).map
      fun _ _ _ => rfl

/-- An operation of a handle gives the same answer in both. -/
theorem agree_act (same : s₁.config.idStrategy = s₂.config.idStrategy) (op : Operation) :
    Agree Eq (op.act s₁) (op.act s₂) := by
  have reads : ∀ (t : Table) (answer : List Record → Answer),
      Agree Eq (do return answer ((← get).directory.records t))
        (do return answer ((← get).directory.records t)) :=
    fun t answer => agree_read fun _ _ alike => congrArg answer (alike.records t)
  cases op with
  | create t fields => exact (agree_create same t fields.property).map fun _ _ => congrArg _
  | createFrom t value =>
    obtain ⟨v, ordered⟩ := value
    cases v with
    | object fields => exact (agree_create same t ordered).map fun _ _ => congrArg _
    | _ => exact (agree_throw (R := Eq) _).map fun _ _ => congrArg _
  | bulkCreate t list =>
    refine (agree_bulkCreate same t fun fields mem => ?_).map fun _ _ => congrArg _
    obtain ⟨f, -, rfl⟩ := List.mem_map.mp mem
    exact f.property
  | update t id changes => exact (agree_update t id changes.property).map fun _ _ => congrArg _
  | delete t id => exact (agree_delete t id).map fun _ _ => congrArg _
  | truncate t =>
    exact (agree_save s₁ s₂ t fun _ mem => absurd mem List.not_mem_nil).map fun _ _ _ => rfl
  | restore t snapshot =>
    refine (agree_save s₁ s₂ t fun v mem => ?_).map fun _ _ _ => rfl
    obtain ⟨entry, -, rfl⟩ := List.mem_map.mp mem
    exact entry.property
  | backup t => exact (agree_load t).map fun _ _ both => congrArg Answer.entries both.1
  | getAll t => exact reads t Answer.records
  | count t => exact reads t fun records => .number records.length
  | getById t id =>
    exact reads t fun records =>
      .found (records.find? fun r => Record.matchesField Record.idKey (.text id) r)
  | getWhere t test => exact reads t fun records => .records (records.filter test)
  | page t number limit => exact reads t fun records => .page (paginate records number limit)
  | pageWhere t test number limit =>
    exact reads t fun records => .page (paginate (records.filter test) number limit)
  | search t term fields =>
    exact reads t fun records =>
      .records (records.filter (Directory.shows (Text.lower term.toList) fields))
  | getAllAs t reader =>
    refine agree_get.bind fun w₁ w₂ alike => ?_
    rw [Directory.recordsAs, Directory.recordsAs, alike.records t]
    split
    · exact agree_pure rfl
    · exact agree_throw _
  | getByIdAs t id reader =>
    refine agree_get.bind fun w₁ w₂ alike => ?_
    rw [Directory.recordByIdAs, Directory.recordByIdAs, Directory.recordById?,
      Directory.recordById?, alike.records t]
    split
    · exact agree_pure rfl
    · exact agree_throw _

end Store

/-! ## Statements -/

section Sql

variable {s₁ s₂ : Store}

theorem agree_resolveOne {assigned : Assigned} (ordered : assigned.Has Ordered) :
    Agree (Both Ordered) (Sql.resolveOne assigned) (Sql.resolveOne assigned) := by
  cases assigned with
  | value v => exact agree_pure ⟨rfl, ordered⟩
  | now =>
    refine agree_now.map ?_
    rintro now _ rfl
    exact ⟨rfl, trivial⟩

theorem agree_resolve {assignments : List Assignment}
    (ordered : ∀ a ∈ assignments, a.assigned.Has Ordered) :
    Agree (Both fun r => Ordered (.object r)) (Sql.resolve assignments)
      (Sql.resolve assignments) := by
  have pairs : ∀ a ∈ assignments, Agree (Both fun pair : String × Json => Ordered pair.2)
      (do return (a.field, ← Sql.resolveOne a.assigned))
      (do return (a.field, ← Sql.resolveOne a.assigned)) := by
    intro a mem
    refine (agree_resolveOne (ordered a mem)).map ?_
    rintro v _ ⟨rfl, orderedValue⟩
    exact ⟨rfl, orderedValue⟩
  refine (agree_mapM pairs).map ?_
  rintro fields _ ⟨rfl, all⟩
  exact ⟨rfl, Json.Ordered.setAll ⟨Json.keysAscend_nil, trivial⟩ all⟩

variable (same : s₁.config.idStrategy = s₂.config.idStrategy)
include same

/-- A statement gives the same outcome in both. -/
theorem agree_run {st : Statement} (ordered : st.Assigns Ordered) :
    Agree Eq (Sql.run s₁ st) (Sql.run s₂ st) := by
  cases st with
  | select selection =>
    refine agree_read fun w₁ w₂ alike => ?_
    rw [Sql.Select.rows, Sql.Select.rows, Directory.recordsWhere, Directory.recordsWhere,
      alike.records]
  | insert t values =>
    refine (agree_resolve ordered).bind ?_
    rintro fields _ ⟨rfl, orderedFields⟩
    refine (agree_create same t orderedFields).map ?_
    rintro record _ rfl
    rfl
  | update t id changes =>
    rw [Sql.run, Sql.run]
    cases id.scalarText? with
    | none => exact agree_pure rfl
    | some key =>
      refine (agree_resolve ordered).bind ?_
      rintro fields _ ⟨rfl, orderedFields⟩
      exact (agree_update t key orderedFields).map fun _ _ found =>
        congrArg (fun f => Sql.touched f.isSome) found
  | delete t id =>
    rw [Sql.run, Sql.run]
    cases id.scalarText? with
    | none => exact agree_pure rfl
    | some key => exact (agree_delete t key).map fun _ _ => congrArg Sql.touched

theorem agree_execute (text : String) {params : List Json} (ordered : ∀ v ∈ params, Ordered v) :
    Agree Eq (Sql.execute s₁ text params) (Sql.execute s₂ text params) := by
  rw [Sql.execute, Sql.execute]
  cases reads : Sql.parse text params with
  | ok st => exact agree_run same (Sql.parse_assigns (Sql.covers_ordered ordered) reads)
  | error e => exact agree_throw e

theorem agree_executeOrEmpty (text : String) {params : List Json}
    (ordered : ∀ v ∈ params, Ordered v) :
    Agree Eq (Sql.executeOrEmpty s₁ text params) (Sql.executeOrEmpty s₂ text params) := by
  refine (agree_execute same text ordered).handled fun e₁ e₂ results => ?_
  cases results with
  | error _ =>
    split
    · exact agree_pure rfl
    · exact agree_throw _
  | unwritten first second =>
    rw [first.not_unsupported, second.not_unsupported]
    exact agree_unwritten first second

end Sql

/-! ## Runs of calls -/

/-- Opens a store again where it stands, with its own configuration. -/
def Store.reopen (s : Store) : Action Store := do
  match Store.openAt s.root (.directory (← get).directory) (some s.config) with
  | .ok (s, d) =>
    modify fun w => { w with directory := d }
    return s
  | .error e => throw e

/-- A call of a program that holds a store. -/
inductive Call where
  | operation (op : Operation)
  | built (st : Statement) (ordered : st.Assigns Ordered)
  | statement (text : String) (params : List OrderedJson)
  /-- A statement whose refusal is folded into an empty selection. -/
  | lenientStatement (text : String) (params : List OrderedJson)
  | reopen

/-- What a call gives. -/
inductive Response where
  | answer (a : Answer)
  | outcome (o : Outcome)
  | opened

namespace Call

/-- Does a call, and gives the store that the next call goes to. -/
def act (s : Store) : Call → Action (Response × Store)
  | operation op => do return (.answer (← op.act s), s)
  | built st _ => do return (.outcome (← Sql.run s st), s)
  | statement text params => do
    return (.outcome (← Sql.execute s text (params.map Subtype.val)), s)
  | lenientStatement text params => do
    return (.outcome (← Sql.executeOrEmpty s text (params.map Subtype.val)), s)
  | reopen => do return (.opened, ← s.reopen)

/-- Calls one after the other; one that fails does not stop the next. -/
def runAll : Store → List Call → World → List (Except StoreError Response) × World
  | _, [], w => ([], w)
  | s, call :: rest, w =>
    match w.run (call.act s) with
    | (.ok (reply, s), w) =>
      let (replies, w) := runAll s rest w
      (.ok reply :: replies, w)
    | (.error e, w) =>
      let (replies, w) := runAll s rest w
      (.error e :: replies, w)

variable {s₁ s₂ : Store}

/-- A call gives the same reply in both, and stores that make identifiers in the same way. -/
theorem agree (same : s₁.config.idStrategy = s₂.config.idStrategy) (call : Call) :
    Agree (fun a b : Response × Store => a.1 = b.1 ∧ a.2.config.idStrategy = b.2.config.idStrategy)
      (call.act s₁) (call.act s₂) := by
  cases call with
  | operation op => exact (agree_act same op).map fun _ _ h => ⟨congrArg Response.answer h, same⟩
  | built st ordered =>
    exact (agree_run same ordered).map fun _ _ h => ⟨congrArg Response.outcome h, same⟩
  | statement text params =>
    refine (agree_execute same text fun v mem => ?_).map fun _ _ h =>
      ⟨congrArg Response.outcome h, same⟩
    obtain ⟨param, -, rfl⟩ := List.mem_map.mp mem
    exact param.property
  | lenientStatement text params =>
    refine (agree_executeOrEmpty same text fun v mem => ?_).map fun _ _ h =>
      ⟨congrArg Response.outcome h, same⟩
    obtain ⟨param, -, rfl⟩ := List.mem_map.mp mem
    exact param.property
  | reopen =>
    have reopened : Agree (fun a b : Store => a.config.idStrategy = b.config.idStrategy)
        s₁.reopen s₂.reopen := fun _ _ alike => ⟨.ok same, alike⟩
    exact reopened.map fun _ _ h => ⟨rfl, h⟩

/-- Runs of the same calls from alike worlds give the same results and leave alike worlds. -/
theorem runAll_alike (calls : List Call) {w₁ w₂ : World} (alike : Alike w₁ w₂)
    (same : s₁.config.idStrategy = s₂.config.idStrategy) :
    List.Forall₂ (SameResult Eq) (runAll s₁ calls w₁).1 (runAll s₂ calls w₂).1 ∧
      Alike (runAll s₁ calls w₁).2 (runAll s₂ calls w₂).2 := by
  induction calls generalizing s₁ s₂ w₁ w₂ with
  | nil => exact ⟨.nil, alike⟩
  | cons call rest ih =>
    obtain ⟨results, left⟩ := agree same call w₁ w₂ alike
    rw [runAll, runAll]
    generalize w₁.run (call.act s₁) = ran₁ at results left
    generalize w₂.run (call.act s₂) = ran₂ at results left
    obtain ⟨r₁, w₁'⟩ := ran₁
    obtain ⟨r₂, w₂'⟩ := ran₂
    cases results with
    | ok related =>
      obtain ⟨sameReply, sameStrategy⟩ := related
      obtain ⟨later, after⟩ := ih left sameStrategy
      exact ⟨.cons (.ok sameReply) later, after⟩
    | error e =>
      obtain ⟨later, after⟩ := ih left same
      exact ⟨.cons (.error e) later, after⟩
    | unwritten first second =>
      obtain ⟨later, after⟩ := ih left same
      exact ⟨.cons (.unwritten first second) later, after⟩

end Call

/-- Whatever a directory holds at first, a run of calls gives the same results under every setting
of how files are laid out and put in place, and at the end every table has the same backup. -/
theorem layout_invisible (strategy : IdStrategy) (root₁ root₂ : String)
    (pretty₁ atomic₁ pretty₂ atomic₂ : Bool) (calls : List Call) (w : World) :
    let s₁ : Store := ⟨root₁, strategy, pretty₁, atomic₁⟩
    let s₂ : Store := ⟨root₂, strategy, pretty₂, atomic₂⟩
    let ran₁ := Call.runAll s₁ calls w
    let ran₂ := Call.runAll s₂ calls w
    List.Forall₂ (SameResult Eq) ran₁.1 ran₂.1 ∧
      ∀ t, (ran₁.2.run ((Operation.backup t).act s₁)).1 =
        (ran₂.2.run ((Operation.backup t).act s₂)).1 := by
  intro s₁ s₂ ran₁ ran₂
  have start : Alike w w := ⟨rfl, fun _ => Iff.rfl⟩
  have same : s₁.config.idStrategy = s₂.config.idStrategy := rfl
  obtain ⟨results, left⟩ := Call.runAll_alike calls start same
  refine ⟨results, fun t => ?_⟩
  exact congrArg (fun items => Except.ok (Answer.entries items)) (left.tableEntries t)

end ContentStore
