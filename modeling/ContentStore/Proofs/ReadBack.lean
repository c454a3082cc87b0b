import ContentStore.Proofs.CommandLine.Lists
/-!
# What a successful write leaves to be read

A write takes every value, but a reader refuses a text that nests too deep, and takes a decimal for
another double than the nearest one, or for none.  A file that cannot be read holds nothing.  So
after an operation, a statement or a command that succeeds, the next read of a table that it has
written gives the entries that were to be written exactly if each of them leaves room for the array
around it and has only numbers that are read from their texts as they are
(`written_given_back_iff`).  The command line lets other entries in: a value that is read at the
limit stands one level deeper in its record (`update_loses_table`).
-/

namespace ContentStore

open CommandLine (Reply Request)
open Json (Ordered depth)

/-- What the next reads of the tables give: the lists that were to be written as they are read from
their texts, and so these lists themselves exactly if they are storable; nothing if a list nests too
deep; and what was there in a table that was not to be written. -/
structure GivesBack (d : Directory) (m : Memory) (t : Table) : Prop where
  written : m.written t = true → d.tableEntries t = rereadEntries (m.entries t)
  other : m.written t = false → d.tableEntries t = m.entries t
  unchanged : d.tableEntries t = m.entries t ↔ (m.written t = true → Storable (m.entries t))
  deep : m.written t = true → ¬Roomy (m.entries t) → d.tableEntries t = []

theorem givesBack_of_memory {w : World} {m : Memory} (memory : w.memory = m.readBack) (t : Table) :
    GivesBack w.directory m t := by
  have read : w.directory.tableEntries t =
      if m.written t then rereadEntries (m.entries t) else m.entries t :=
    congrArg (fun m => m.entries t) memory
  cases written : m.written t with
  | false =>
    rw [written] at read
    exact ⟨fun h => absurd (written.symm.trans h) Bool.false_ne_true, fun _ => read,
      iff_of_true read fun h => absurd (written.symm.trans h) Bool.false_ne_true,
      fun h => absurd (written.symm.trans h) Bool.false_ne_true⟩
  | true =>
    rw [written, if_pos rfl] at read
    refine ⟨fun _ => read, fun h => absurd (h.symm.trans written) Bool.false_ne_true, ?_,
      fun _ deep => read.trans (if_neg deep)⟩
    rw [read, rereadEntries_eq_iff]
    exact ⟨fun storable _ => storable, fun storable => storable written⟩

/-- After a handle operation, a statement or a command that succeeds, a table reads back as it was
to be written exactly if every entry leaves room for the array around it and every number in it is
read from its text as it is. -/
theorem written_given_back_iff (s : Store) (w w' : World) (t : Table) :
    (∀ (op : Operation) (answer : Answer), w.run (op.act s) = (.ok answer, w') →
      GivesBack w'.directory (w.memory.step s.config.idStrategy op).2 t) ∧
    (∀ (text : String) (params : List Json) (outcome : Sql.Outcome), (∀ v ∈ params, Ordered v) →
      w.run (Sql.execute s text params) = (.ok outcome, w') →
      GivesBack w'.directory (w.memory.executeText s.config.idStrategy text params).2 t) ∧
    (∀ (r : Request) (root : String) (texts : String → Option String) (config : Config)
      (reply : Reply), w.directory.config = .ok config →
      (r.run root (.directory w.directory) texts).run w = (reply, w') → reply.code = 0 →
      GivesBack w'.directory (w.memory.perform config.idStrategy texts r.command) t) := by
  refine ⟨fun op answer runs => ?_, fun text params outcome ordered runs => ?_,
    fun r root texts config reply configured runs succeeds => ?_⟩
  · exact givesBack_of_memory (World.memory_of_refines (World.refines_act s op w) runs) t
  · exact givesBack_of_memory
      (World.memory_of_refines (World.refines_execute s w text ordered) runs) t
  · exact givesBack_of_memory (World.memory_of_reply configured runs succeeds) t

/-- A record that is changed by its number, one that is inserted and one that a command adds, all in
a table of two records. -/
theorem written_given_back_iff_filled :
    let file := "[\x7b\"id\":\"a\"\x7d,\x7b\"id\":7,\"x\":0.5\x7d]".toUTF8
    let s : Store := ⟨"data", .default⟩
    let w : World :=
      ⟨Directory.empty.set Table.pages.fileName (.file file), fun _ => ⟨0, 0⟩, 0, fun _ => 0, 0⟩
    let change : Operation := .update .pages "7"
      ⟨[("title", .text "Home")], List.pairwise_singleton _ _, trivial, trivial⟩
    let text := "INSERT INTO pages (title) VALUES (?)"
    let request : Request := ⟨none, .json, .insert "pages" [("title", "Home")]⟩
    (∃ answer w', w.run (change.act s) = (.ok answer, w') ∧
        GivesBack w'.directory (w.memory.step .ulid change).2 .pages) ∧
      (∃ outcome w', w.run (Sql.execute s text [.text "Home"]) = (.ok outcome, w') ∧
        GivesBack w'.directory (w.memory.executeText .ulid text [.text "Home"]).2 .pages) ∧
      ∃ reply w', (request.run "data" (.directory w.directory) fun _ => none).run w = (reply, w') ∧
        reply.code = 0 ∧
        GivesBack w'.directory (w.memory.perform .ulid (fun _ => none) request.command) .pages := by
  intro file s w change text request
  refine ⟨?_, ?_, _, _, rfl, ?_⟩
  · have changes : (w.run (change.act s)).1.toOption.isSome = true := by decide +kernel
    rcases runs : w.run (change.act s) with ⟨e | answer, w'⟩
    · rw [runs] at changes
      cases changes
    · exact ⟨answer, w', rfl, (written_given_back_iff s w w' .pages).1 change answer runs⟩
  · have inserts : (w.run (Sql.execute s text [.text "Home"])).1.toOption.isSome = true := by
      decide +kernel
    rcases runs : w.run (Sql.execute s text [.text "Home"]) with ⟨e | outcome, w'⟩
    · rw [runs] at inserts
      cases inserts
    · exact ⟨outcome, w', rfl, (written_given_back_iff s w w' .pages).2.1 text _ outcome
        (List.forall_mem_singleton.mpr trivial) runs⟩
  · have succeeds : ((request.run "data" (.directory w.directory) fun _ => none).run w).1.code =
        0 := by
      decide +kernel
    exact ⟨succeeds, (written_given_back_iff s w _ .pages).2.2 request "data" (fun _ => none)
      .default _ rfl rfl succeeds⟩

/-! ## A value at the limit -/

/-- An empty array with `n` arrays around it. -/
def nestedArray : Nat → Json
  | 0 => .array []
  | n + 1 => .array [nestedArray n]

theorem depth_nestedArray (n : Nat) : depth (nestedArray n) = n + 1 := by
  induction n with
  | zero => rfl
  | succ n ih =>
    have deeper : depth (nestedArray (n + 1)) = max (depth (nestedArray n)) 0 + 1 := rfl
    rw [deeper, ih, Nat.max_zero]

theorem ordered_nestedArray (n : Nat) : Ordered (nestedArray n) := by
  induction n with
  | zero => trivial
  | succ n ih => exact ⟨ih, trivial⟩

theorem settled_nestedArray (n : Nat) : Json.Settled (nestedArray n) := by
  induction n with
  | zero => rfl
  | succ n ih => exact Bool.and_eq_true_iff.mpr ⟨ih, rfl⟩

/-- An argument that writes a nested array within the limit stands for it. -/
theorem looseValue_nestedArray {n : Nat} (within : n < Json.nestingLimit) :
    CommandLine.looseValue (Json.write .oneLine (nestedArray n)) = nestedArray n := by
  rw [CommandLine.looseValue, Json.read?, Json.readWithin_write _ _ (ordered_nestedArray n),
    depth_nestedArray, if_pos (Nat.succ_le_of_lt within),
    Json.settled_iff.mp (settled_nestedArray n)]
  rfl

/-- The command to set a field to a value of 126 levels succeeds on a table of one record, and the
table then reads as empty. -/
theorem update_loses_table :
    let file := "[\x7b\"id\":\"a\"\x7d]".toUTF8
    let w : World :=
      ⟨Directory.empty.set Table.pages.fileName (.file file), fun _ => ⟨0, 0⟩, 0, fun _ => 0, 0⟩
    let r : Request :=
      ⟨none, .json, .update "pages" "a" [("x", Json.write .oneLine (nestedArray 125))]⟩
    let ran := (r.run "data" (.directory w.directory) fun _ => none).run w
    ran.1.code = 0 ∧ w.directory.count .pages = 1 ∧ ran.2.directory.count .pages = 0 := by
  intro file w r ran
  let s : Store := ⟨"data", .default⟩
  let changes : Record := [("x", nestedArray 125)]
  have given : CommandLine.looseRecord [("x", Json.write .oneLine (nestedArray 125))] =
      changes := by
    rw [CommandLine.looseRecord, List.map_cons, looseValue_nestedArray (by decide)]
    rfl
  have ordered : Ordered (.object changes) := given ▸ CommandLine.looseRecord_ordered _
  have found : (w.run (s.update .pages "a" changes)).1.toOption.join.isSome = true := by
    decide +kernel
  have deep : ¬Roomy ((w.memory.update .pages "a" changes).2.entries .pages) := by
    decide +kernel
  have written : (w.memory.update .pages "a" changes).2.written .pages = true := by
    decide +kernel
  rcases updates : w.run (s.update .pages "a" changes) with ⟨_ | _ | record, w'⟩
  · rw [updates] at found
    cases found
  · rw [updates] at found
    cases found
  have performed : ran = (⟨0, CommandLine.output .json (.object record), ""⟩, w') := by
    have configured : w.directory.config = .ok .default := rfl
    have replies := CommandLine.run_request r "data" (fun _ => none) configured
    rw [CommandLine.run_performUpdate rfl (given ▸ updates)] at replies
    exact replies
  have lost : w'.directory.tableEntries .pages = [] :=
    (givesBack_of_memory (World.memory_of_succeeded
      (World.refines_update s .pages w "a" ordered) updates) .pages).deep written deep
  rw [performed]
  refine ⟨rfl, by decide +kernel, ?_⟩
  rw [Directory.count, Directory.records, lost]
  rfl

end ContentStore
