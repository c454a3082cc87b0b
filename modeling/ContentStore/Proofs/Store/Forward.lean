import ContentStore.Proofs.CommandLine.Lists
import ContentStore.Proofs.Timestamp.Later
import Mathlib.Data.String.Basic
/-!
# When a change moves the stamp of a record forward

A change makes its stamp from the greater of the record's two stamps *as texts*.  Where that is the
stamp of the last change, the new one is a later instant.  Where the stamp of creation is the
greater text, only that one counts, and it may be no timestamp at all, or an earlier instant that is
written with an offset.  So the new stamp is later exactly if what follows the stamp of creation is
later (`update_moves_forward_iff`), and a record whose creation is written with an offset can be
moved backward (`update_moves_backward`).
-/

namespace ContentStore

open Json (Ordered Settled depth)

namespace Record

/-- The instant that a stamp of a record denotes. -/
def instant? (key : String) (record : Record) : Option Instant :=
  (text? key record).bind Instant.ofText?

theorem instant?_eq {key text : String} {record : Record} (stamped : text? key record = some text) :
    instant? key record = Instant.ofText? text := by
  rw [instant?, stamped, Option.bind_some]

end Record

/-- What follows a stamp is later than an instant, and it can be written. -/
def LeadsPast (now : Instant) (stamp : String) (t : Instant) : Prop :=
  (now.following stamp).year ≤ 9999 ∧ t.before (now.following stamp).toMillisecond = true

/-- The last stamp is that of the last change, unless that of the creation is a greater text. -/
theorem lastStamp_cases {record : Record} {updated : String}
    (stamped : Record.text? Record.updatedKey record = some updated) :
    (∀ created, Record.text? Record.createdKey record = some created → ¬updated < created) ∧
        Store.lastStamp record = updated ∨
      ∃ created, Record.text? Record.createdKey record = some created ∧ updated < created ∧
        Store.lastStamp record = created := by
  unfold Store.lastStamp
  rw [stamped]
  dsimp only [Option.getD_some]
  cases creation : Record.text? Record.createdKey record with
  | none =>
    refine .inl ⟨nofun, ?_⟩
    dsimp only [Option.getD_none]
    rcases lt_trichotomy "" updated with less | same | greater
    · exact if_pos less
    · rw [← same, ite_self]
    · exact absurd (String.lt_iff.mp greater) (List.not_lt_nil _)
  | some created =>
    dsimp only [Option.getD_some]
    rcases lt_trichotomy created updated with less | rfl | greater
    · refine .inl ⟨fun other same => ?_, if_pos less⟩
      cases same
      exact lt_asymm less
    · refine .inl ⟨fun other same => ?_, ite_self _⟩
      cases same
      exact lt_irrefl _
    · exact .inr ⟨created, rfl, greater, if_neg (lt_asymm greater)⟩

theorem Instant.year_nextMillisecond_le {t : Instant} (last : t.year < 9999) :
    t.nextMillisecond.year ≤ 9999 := by
  have start : Date.daysBeforeYear 9999 = 3652060 := by decide
  have stop : Date.daysBeforeYear 10000 = 3652425 := by decide
  have second : t.nextMillisecond.second ≤ t.second + 1 := by
    unfold nextMillisecond
    dsimp only
    split <;> split <;> dsimp only <;> omega
  rw [year_lt_iff, start] at last
  rw [← Int.lt_add_one_iff, year_lt_iff, show (9999 + 1 : Int) = 10000 from rfl, stop]
  omega

/-- What follows the stamp of the last change is later. -/
theorem leadsPast_own {now u : Instant} {updated : String} (reading : now.IsReading)
    (lastNow : now.year < 9999) (reads : Instant.ofText? updated = some u) (last : u.year < 9999) :
    LeadsPast now updated u := by
  refine ⟨?_, Instant.before_following reading reads⟩
  rcases Instant.following_cases now updated with same | ⟨t, readsT, -, next⟩
  · rw [same]
    exact Int.le_of_lt lastNow
  · rw [reads] at readsT
    cases readsT
    rw [next]
    exact Instant.year_nextMillisecond_le last

/-- The stamp that follows denotes a later instant exactly if it leads past. -/
theorem stampAfter_later_iff {now : Instant} (reading : now.IsReading) (stamp : String)
    (u : Instant) :
    (∃ n, Instant.ofText? (now.stampAfter stamp) = some n ∧ u.before n = true) ↔
      LeadsPast now stamp u := by
  by_cases last : (now.following stamp).year ≤ 9999
  · rw [Instant.ofText?_stampAfter reading last]
    constructor
    · rintro ⟨n, same, later⟩
      cases same
      exact ⟨last, later⟩
    · intro leads
      exact ⟨_, rfl, leads.2⟩
  · rw [Instant.stampAfter_eq, Instant.ofText?_stamp_late (Int.not_le.mp last)]
    constructor
    · rintro ⟨n, same, -⟩
      cases same
    · intro leads
      exact absurd leads.1 last

/-- What a change that succeeds on the files has found and made. -/
theorem World.run_update_some {s : Store} {w w' : World} {t : Table} {id : String}
    {changes record : Record} (ordered : Ordered (.object changes))
    (updates : w.run (s.update t id changes) = (.ok (some record), w')) :
    ∃ front old back, FirstWith id (w.directory.tableEntries t) front old back ∧
      record = w.memory.amended changes old ∧
      w'.directory.tableEntries t = rereadEntries (front ++ .object record :: back) := by
  have refines := refines_update s t w id ordered
  rw [updates] at refines
  obtain ⟨same, memory⟩ := refines rfl
  have found : (w.memory.update t id changes).1 = some record := (Except.ok.inj same).symm
  obtain ⟨front, old, back, first, amends, lists⟩ := Memory.update_eq_some found
  refine ⟨front, old, back, first, amends, ?_⟩
  have read : w'.directory.tableEntries t = (w.memory.update t id changes).2.readBack.entries t :=
    congrArg (fun m => m.entries t) memory
  rw [read, lists]
  simp [Memory.readBack, Memory.entries_put, Memory.written_put]

/-- A change that succeeds puts one record in its place, which is read as it is among settled
entries; and it leaves a later stamp of the change exactly if the stamp of creation is no greater
text or leads past the old one itself. -/
theorem update_moves_forward_iff (s : Store) (w w' : World) (t : Table) (id : String)
    (changes : Fields) (record : Record) (reading : (w.clock w.readings).IsReading)
    (lastReading : (w.clock w.readings).year < 9999)
    (updates : w.run (s.update t id changes) = (.ok (some record), w')) :
    ∃ front old back, FirstWith id (w.directory.tableEntries t) front old back ∧
      w.directory.recordById? t id = some old ∧
      w'.directory.tableEntries t = rereadEntries (front ++ .object record :: back) ∧
      (depth (.object record) < Json.nestingLimit →
        (∀ v ∈ .object record :: w.directory.tableEntries t, Settled v) →
        w'.directory.recordById? t id = some record) ∧
      ∀ updated u, Record.text? Record.updatedKey old = some updated →
        Instant.ofText? updated = some u → u.year < 9999 →
        ((∃ n, Record.instant? Record.updatedKey record = some n ∧ u.before n = true) ↔
          ∀ created, Record.text? Record.createdKey old = some created → updated < created →
            LeadsPast (w.clock w.readings) created u) := by
  obtain ⟨front, old, back, first, amends, read⟩ := World.run_update_some changes.property updates
  refine ⟨front, old, back, first, ?_, read, fun shallow settled => ?_, ?_⟩
  · rw [World.recordById?_eq, Memory.recordById?, World.memory_entries, first.find?]
    rfl
  · obtain ⟨settledRecord, settledTable⟩ := List.forall_mem_cons.mp settled
    have storable : Storable (front ++ .object record :: back) := by
      have whole := Directory.tableEntries_storable settledTable
      rw [first.split] at whole
      exact forall_mem_replaced whole ⟨shallow, settledRecord⟩
    rw [rereadEntries_of_storable storable] at read
    have still : FirstWith id (w'.directory.tableEntries t) front record back :=
      ⟨read, by rw [amends, Memory.amended, identifierText?_amended]; exact first.has,
        first.first⟩
    rw [World.recordById?_eq, Memory.recordById?, World.memory_entries, still.find?]
    rfl
  · intro updated u stamped reads last
    have renewed : Record.instant? Record.updatedKey record =
        Instant.ofText? ((w.clock w.readings).stampAfter (Store.lastStamp old)) := by
      rw [amends]
      exact Record.instant?_eq (Record.text?_amended_updated _ _ _)
    rw [renewed, stampAfter_later_iff reading]
    rcases lastStamp_cases stamped with ⟨noGreater, same⟩ | ⟨created, creation, greater, same⟩
    · rw [same]
      constructor
      · intro _ created creation greater
        exact absurd greater (noGreater created creation)
      · intro _
        exact leadsPast_own reading lastReading reads last
    · rw [same]
      constructor
      · intro leads other sameText _
        rw [creation] at sameText
        cases sameText
        exact leads
      · intro leads
        exact leads created creation greater

/-- A table of one record with given stamps, at a clock that shows the start of 1970. -/
def importedWorld (created updated : String) : World :=
  let file := "[\x7b\"created_at\":\"" ++ created ++ "\",\"id\":\"a\",\"updated_at\":\"" ++
    updated ++ "\"\x7d]"
  ⟨Directory.empty.set Table.pages.fileName (.file file.toUTF8), fun _ => ⟨0, 0⟩, 0, fun _ => 0, 0⟩

/-- A record that was created, as it says, after its last change. -/
theorem update_moves_forward_iff_imported :
    let w := importedWorld "2026-03-01T00:00:00+14:00" "2026-02-28T23:00:00Z"
    let s : Store := ⟨"data", .default⟩
    (w.clock w.readings).IsReading ∧ (w.clock w.readings).year < 9999 ∧
      ∃ record w', w.run (s.update .pages "a" []) = (.ok (some record), w') ∧
        ∃ front old back, FirstWith "a" (w.directory.tableEntries .pages) front old back ∧
          w.directory.recordById? .pages "a" = some old ∧
          w'.directory.tableEntries .pages = rereadEntries (front ++ .object record :: back) ∧
          (depth (.object record) < Json.nestingLimit →
            (∀ v ∈ .object record :: w.directory.tableEntries .pages, Settled v) →
            w'.directory.recordById? .pages "a" = some record) ∧
          ∀ updated u, Record.text? Record.updatedKey old = some updated →
            Instant.ofText? updated = some u → u.year < 9999 →
            ((∃ n, Record.instant? Record.updatedKey record = some n ∧ u.before n = true) ↔
              ∀ created, Record.text? Record.createdKey old = some created → updated < created →
                LeadsPast (w.clock w.readings) created u) := by
  intro w s
  have reading : (w.clock w.readings).IsReading := ⟨by decide, by decide⟩
  have last : (w.clock w.readings).year < 9999 := by decide
  have found : (w.run (s.update .pages "a" [])).1.toOption.join.isSome = true := by
    decide +kernel
  rcases updates : w.run (s.update .pages "a" []) with ⟨_ | _ | record, w'⟩
  · rw [updates] at found
    cases found
  · rw [updates] at found
    cases found
  exact ⟨reading, last, record, w', rfl, update_moves_forward_iff s w w' .pages "a"
    ⟨[], List.Pairwise.nil, trivial⟩ record reading last updates⟩

/-- A creation that is written with an offset hides a later change, and the new stamp of the change
is earlier than the old one. -/
theorem update_moves_backward :
    let updated := "2999-01-01T23:00:00.000Z"
    let w := importedWorld "2999-01-02T00:00:00+14:00" updated
    let ran := w.run ((⟨"data", .default⟩ : Store).update .pages "a" [])
    ∃ u n, Instant.ofText? updated = some u ∧ u.year < 9999 ∧
      (ran.1.toOption.join.bind fun record => Record.instant? Record.updatedKey record) = some n ∧
      n.before u = true := by
  intro updated w ran
  refine ⟨⟨32472226800, 0⟩, ⟨32472180000, 1000000⟩, ?_, ?_, ?_, ?_⟩
  · decide +kernel
  · decide +kernel
  · decide +kernel
  · decide

end ContentStore
