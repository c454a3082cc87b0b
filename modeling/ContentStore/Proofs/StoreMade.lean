import ContentStore.Proofs.Changes
import ContentStore.Proofs.Store.Forward
/-!
# Tables that only the store has written

A table that began empty and was never restored holds records that the store made: each has a text
for its identifier, which no other entry has, and canonical stamps of its creation and its last
change, in this order.  A step keeps what it does not remove in its order, and changes a record only
by moving its last change forward, as a text and as an instant (`reachable_storeMade`).  The numbers
of a record may be read as others when its table has been written, but its identifier and its stamps
are texts, and these are read as they are (`IsStoreMade.sameOwn`).  All of this holds under any
clock, also one that stands still or runs backwards, as long as no stamp reaches the year 10000 and
no identifier is given out twice.
-/

namespace ContentStore

open Json (Members Rereads RereadsMember)
open Record (createdKey idKey text? updatedKey)

/-! ## Entries that the store made -/

/-- A record has a text for its identifier, and canonical stamps in their order. -/
structure IsStoreMade (record : Record) (created updated : String) : Prop where
  identified : ∃ id, Members.get? idKey record = some (.text id)
  creation : text? createdKey record = some created
  change : text? updatedKey record = some updated
  canonicalCreation : Instant.IsCanonical created
  canonicalChange : Instant.IsCanonical updated
  inOrder : created ≤ updated

/-- An entry is a record that the store made. -/
def StoreMade (entry : Json) : Prop :=
  ∃ record created updated, entry = .object record ∧ IsStoreMade record created updated

/-- The identifiers of entries. -/
def identifiers (items : List Json) : List String := items.filterMap identifierText?

/-- Every entry is a record that the store made, and no two have the same identifier. -/
structure StoreMadeTable (items : List Json) : Prop where
  made : ∀ entry ∈ items, StoreMade entry
  distinct : (identifiers items).Nodup

/-- A record has the identifier and the creation of an older one, and a later last change, as a text
and as an instant. -/
structure Later (old new : Record) : Prop where
  sameId : Members.get? idKey new = Members.get? idKey old
  sameCreation : Members.get? createdKey new = Members.get? createdKey old
  laterText : ∃ before after, text? updatedKey old = some before ∧
    text? updatedKey new = some after ∧ before < after
  laterInstant : ∃ s u, Record.instant? updatedKey old = some s ∧
    Record.instant? updatedKey new = some u ∧ s.before u = true

/-- Two records have the same identifier and the same stamps. -/
def SameOwn (old new : Record) : Prop :=
  ∀ key, Record.isReserved key = true → Members.get? key new = Members.get? key old

/-- An entry is still there as it was, or is a record that has been changed. -/
inductive Kept : Json → Json → Prop
  | same (entry : Json) : Kept entry entry
  | later {old new : Record} (later : Later old new) : Kept (.object old) (.object new)

/-- An entry is still there as it was, or is a record whose other members have been read again, or
is a record that has been changed. -/
inductive Continues : Json → Json → Prop
  | same (entry : Json) : Continues entry entry
  | reread {old new : Record} (own : SameOwn old new)
    (reads : Rereads (.object old) (.object new)) : Continues (.object old) (.object new)
  | later {old new : Record} (later : Later old new) : Continues (.object old) (.object new)

/-- Of the entries before some are still there in their order, and behind them stand new ones with
identifiers that had not been given out. -/
def Evolves (still : Json → Json → Prop) (issued : List String) (before after : List Json) : Prop :=
  ∃ kept survivors added, List.Sublist kept before ∧ List.Forall₂ still kept survivors ∧
    after = survivors ++ added ∧ ∀ id ∈ identifiers added, id ∉ issued

/-! ## Runs -/

namespace Step

/-- The identifiers of the entries that a step appends to a table. -/
def issues (w : World) (t : Table) (step : Step) : List String :=
  identifiers (((step.lists w).entries t).drop (w.directory.tableEntries t).length)

/-- Every stamp of an entry is of a year up to 9999. -/
def StampedBefore10000 (entry : Json) : Prop :=
  ∀ key ∈ [createdKey, updatedKey], ∀ i : Instant,
    entry.member? key = some (.text i.stamp) → i.year ≤ 9999

/-- The stamps of an entry are timestamps or no stamps at all. -/
def stampsRead (entry : Json) : Bool :=
  [createdKey, updatedKey].all fun key =>
    match entry.member? key with
    | some (.text stamp) => (Instant.ofText? stamp).isSome
    | _ => true

theorem stampedBefore10000_of_read {entry : Json} (reads : stampsRead entry = true) :
    StampedBefore10000 entry := by
  intro key mem i stamped
  have read := List.all_eq_true.mp reads key mem
  rw [stamped] at read
  dsimp only at read
  by_contra late
  rw [Instant.ofText?_stamp_late (Int.not_le.mp late)] at read
  cases read

/-- A step does not restore the table, gives out no identifier a second time, and writes no stamp of
the year 10000 or later. -/
structure Admissible (w : World) (t : Table) (issued : List String) (step : Step) : Prop where
  noRestore : ¬step.Restores t
  fresh : (step.issues w t ++ issued).Nodup
  stamps : ∀ entry ∈ (step.lists w).entries t, StampedBefore10000 entry

end Step

/-- A run from a world where the table is empty has come to a world, and these identifiers have been
given out. -/
inductive Reachable (t : Table) : World → List String → Prop
  | start {w : World} (empty : w.directory.tableEntries t = [])
    (clock : ∀ n, (w.clock n).IsReading) : Reachable t w []
  | step {w : World} {issued : List String} (reached : Reachable t w issued) (step : Step)
    (admissible : step.Admissible w t issued) :
    Reachable t (step.run w) (step.issues w t ++ issued)

/-! ## The records that a step writes -/

theorem text?_eq_some {key text : String} {record : Record} :
    text? key record = some text ↔ Members.get? key record = some (.text text) := by
  unfold text?
  split
  · next s found => rw [found, Option.some.injEq, Option.some.injEq, Json.text.injEq]
  · next other =>
    refine ⟨nofun, fun found => ?_⟩
    exact absurd found (other text)

/-- A new record is one that the store made, if its stamp is of a year up to 9999. -/
theorem IsNew.storeMade {clock : Nat → Instant} (readings : ∀ n, (clock n).IsReading)
    {record : Record} (new : IsNew clock record)
    (stamps : Step.StampedBefore10000 (.object record)) : StoreMade (.object record) := by
  obtain ⟨id, n, fields, rfl⟩ := new
  have creation : Members.get? createdKey (Record.stamped id (clock n).stamp fields) =
      some (.text (clock n).stamp) := by
    rw [Record.get?_stamped]
    rfl
  have change : Members.get? updatedKey (Record.stamped id (clock n).stamp fields) =
      some (.text (clock n).stamp) := by
    rw [Record.get?_stamped]
    rfl
  have last := stamps createdKey List.mem_cons_self (clock n) creation
  have canonical := Instant.stamp_isCanonical (readings n).plain
    (Instant.year_nonneg (by have := (readings n).since; omega)) last
  exact ⟨_, _, _, rfl, ⟨id, by rw [Record.get?_stamped]; rfl⟩, text?_eq_some.mpr creation,
    text?_eq_some.mpr change, canonical, canonical, le_refl _⟩

/-- The last stamp of a record that the store made is that of its last change. -/
theorem IsStoreMade.lastStamp {record : Record} {created updated : String}
    (made : IsStoreMade record created updated) : Store.lastStamp record = updated := by
  rcases lastStamp_cases made.change with ⟨-, same⟩ | ⟨other, creation, greater, -⟩
  · exact same
  · rw [made.creation] at creation
    cases creation
    exact absurd greater (not_lt_of_ge made.inOrder)

/-- A record that the store made is changed into one that is later. -/
theorem IsStoreMade.amended {clock : Nat → Instant} (readings : ∀ n, (clock n).IsReading)
    {old : Record} {created updated : String} (made : IsStoreMade old created updated)
    (changes : Record) (n : Nat)
    (stamps : Step.StampedBefore10000 (.object (Record.amended
      ((clock n).stampAfter (Store.lastStamp old)) old changes))) :
    Later old (Record.amended ((clock n).stampAfter (Store.lastStamp old)) old changes) ∧
      StoreMade (.object (Record.amended ((clock n).stampAfter (Store.lastStamp old)) old
        changes)) := by
  rw [made.lastStamp] at stamps ⊢
  have sameId : Members.get? idKey (Record.amended ((clock n).stampAfter updated) old changes) =
      Members.get? idKey old := Record.get?_amended_kept rfl (by decide) _ old changes
  have sameCreation :
      Members.get? createdKey (Record.amended ((clock n).stampAfter updated) old changes) =
        Members.get? createdKey old := Record.get?_amended_kept rfl (by decide) _ old changes
  have change := Record.text?_amended_updated ((clock n).stampAfter updated) old changes
  have last : ((clock n).following updated).year ≤ 9999 := by
    refine stamps updatedKey (List.mem_cons_of_mem _ List.mem_cons_self) _ ?_
    rw [← Instant.stampAfter_eq]
    exact text?_eq_some.mp change
  obtain ⟨canonical, less, s, u, readsOld, readsNew, before⟩ :=
    made.canonicalChange.stampAfter (readings n) last
  refine ⟨⟨sameId, sameCreation, ⟨updated, _, made.change, change, less⟩, s, u, ?_, ?_, before⟩,
    _, created, (clock n).stampAfter updated, rfl, ?_⟩
  · rwa [Record.instant?_eq made.change]
  · rwa [Record.instant?_eq change]
  · obtain ⟨id, identified⟩ := made.identified
    exact ⟨⟨id, sameId.trans identified⟩,
      text?_eq_some.mpr (sameCreation.trans (text?_eq_some.mp made.creation)), change,
      made.canonicalCreation, canonical, le_of_lt (lt_of_le_of_lt made.inOrder less)⟩

/-! ## Records that are read again -/

/-- The identifier and the stamps of a record that the store made are read as they are. -/
theorem IsStoreMade.sameOwn {old new : Record} {created updated : String}
    (made : IsStoreMade old created updated) (reads : List.Forall₂ RereadsMember old new) :
    SameOwn old new := by
  have text : ∀ {key s}, Members.get? key old = some (.text s) →
      Members.get? key new = Members.get? key old :=
    fun has => ((Json.get?_reread_text_iff reads _ _).mpr has).trans has.symm
  intro key reserved
  rcases Store.isReserved_iff.mp reserved with rfl | rfl | rfl
  · obtain ⟨id, identified⟩ := made.identified
    exact text identified
  · exact text (text?_eq_some.mp made.creation)
  · exact text (text?_eq_some.mp made.change)

theorem SameOwn.text? {old new : Record} (same : SameOwn old new) {key : String}
    (reserved : Record.isReserved key = true) : text? key new = text? key old := by
  rw [Record.text?, same key reserved, Record.text?]

theorem SameOwn.identifierText? {old new : Record} (same : SameOwn old new) :
    identifierText? (.object new) = identifierText? (.object old) :=
  congrArg (·.bind Json.scalarText?) (same idKey rfl)

theorem IsStoreMade.ofSameOwn {old new : Record} {created updated : String}
    (made : IsStoreMade old created updated) (same : SameOwn old new) :
    IsStoreMade new created updated where
  identified := same idKey rfl ▸ made.identified
  creation := (same.text? rfl).trans made.creation
  change := (same.text? rfl).trans made.change
  canonicalCreation := made.canonicalCreation
  canonicalChange := made.canonicalChange
  inOrder := made.inOrder

theorem Later.ofSameOwn {old new new' : Record} (later : Later old new)
    (same : SameOwn new new') : Later old new' := by
  obtain ⟨sameId, sameCreation, ⟨before, after, stamp, stamp', less⟩, s, u, reads, reads', past⟩ :=
    later
  refine ⟨(same idKey rfl).trans sameId, (same createdKey rfl).trans sameCreation,
    ⟨before, after, stamp, (same.text? rfl).trans stamp', less⟩, s, u, reads, ?_, past⟩
  rw [Record.instant?, same.text? rfl]
  exact reads'

/-- An entry that the store made is read as a record with the same identifier and stamps. -/
theorem StoreMade.rereads {entry entry' : Json} (made : StoreMade entry)
    (reads : Rereads entry entry') :
    ∃ old new, entry = .object old ∧ entry' = .object new ∧ SameOwn old new ∧ StoreMade entry' := by
  obtain ⟨old, created, updated, rfl, made⟩ := made
  obtain ⟨new, rfl, members⟩ := Json.rereads_of_object reads
  have same := made.sameOwn members
  exact ⟨old, new, rfl, rfl, same, new, created, updated, rfl, made.ofSameOwn same⟩

theorem Kept.continues {entry entry' : Json} (kept : Kept entry entry') :
    Continues entry entry' := by
  cases kept with
  | same => exact .same _
  | later later => exact .later later

/-- What is still there is still there when it is read again. -/
theorem Kept.reread {entry left entry' : Json} (kept : Kept entry left) (made : StoreMade left)
    (reads : Rereads left entry') : Continues entry entry' := by
  obtain ⟨old, new, rfl, rfl, same, -⟩ := made.rereads reads
  cases kept with
  | same => exact .reread same reads
  | later later => exact .later (later.ofSameOwn same)

/-! ## One step -/

theorem identifiers_append (front back : List Json) :
    identifiers (front ++ back) = identifiers front ++ identifiers back :=
  List.filterMap_append

theorem identifiers_cons (entry : Json) (rest : List Json) :
    identifiers (entry :: rest) = (identifierText? entry).toList ++ identifiers rest := by
  rw [identifiers, List.filterMap_cons]
  cases identifierText? entry <;> rfl

theorem evolves_append (issued : List String) (before : List Json) {added : List Json}
    (fresh : ∀ id ∈ identifiers added, id ∉ issued) :
    Evolves Kept issued before (before ++ added) :=
  ⟨before, before, added, List.Sublist.refl before,
    List.forall₂_same.mpr fun entry _ => .same entry, rfl, fresh⟩

theorem evolves_sublist (issued : List String) {before after : List Json}
    (kept : List.Sublist after before) : Evolves Kept issued before after :=
  ⟨after, after, [], kept, List.forall₂_same.mpr fun entry _ => .same entry,
    (List.append_nil after).symm, fun _ mem => absurd mem List.not_mem_nil⟩

theorem StoreMadeTable.sublist {before after : List Json} (table : StoreMadeTable before)
    (kept : List.Sublist after before) : StoreMadeTable after :=
  ⟨fun entry mem => table.made entry (kept.subset mem),
    table.distinct.sublist (kept.filterMap identifierText?)⟩

/-- What is known of a table after a change of its list. -/
structure StillStoreMade (issued : List String) (before after : List Json) : Prop where
  table : StoreMadeTable after
  known : ∀ id ∈ identifiers after, id ∈ identifiers (after.drop before.length) ++ issued
  evolves : Evolves Kept issued before after

section Change

variable {issued : List String} {before after : List Json} (table : StoreMadeTable before)
  (known : ∀ id ∈ identifiers before, id ∈ issued)
include table known

theorem stillStoreMade_sublist (kept : List.Sublist after before) :
    StillStoreMade issued before after := by
  refine ⟨table.sublist kept, fun id mem => ?_, evolves_sublist issued kept⟩
  exact List.mem_append_right _ (known id ((kept.filterMap identifierText?).subset mem))

theorem stillStoreMade_added {added : List Json} (made : ∀ entry ∈ added, StoreMade entry)
    (fresh : (identifiers added ++ issued).Nodup) :
    StillStoreMade issued before (before ++ added) := by
  obtain ⟨distinctAdded, -, apart⟩ := List.nodup_append.mp fresh
  have new : ∀ id ∈ identifiers added, id ∉ issued := fun id mem old => apart id mem id old rfl
  refine ⟨⟨List.forall_mem_append.mpr ⟨table.made, made⟩, ?_⟩, fun id mem => ?_,
    evolves_append issued before new⟩
  · rw [identifiers_append, List.nodup_append]
    refine ⟨table.distinct, distinctAdded, fun id mem other memAdded same => ?_⟩
    exact new other memAdded (same ▸ known id mem)
  · rw [List.drop_left]
    rw [identifiers_append] at mem
    rcases List.mem_append.mp mem with old | given
    · exact List.mem_append_right _ (known id old)
    · exact List.mem_append_left _ given

/-- A later record stands in the place of an older one. -/
theorem stillStoreMade_later {front back : List Json} {old new : Record}
    (split : before = front ++ .object old :: back) (later : Later old new)
    (made : StoreMade (.object new)) :
    StillStoreMade issued before (front ++ .object new :: back) := by
  have sameText : identifierText? (.object new) = identifierText? (.object old) := by
    rw [identifierText?, identifierText?, Json.member?, Json.member?, later.sameId]
  have same : identifiers (front ++ .object new :: back) = identifiers before := by
    rw [split, identifiers_append, identifiers_append, identifiers_cons, identifiers_cons, sameText]
  have others := table.made
  rw [split] at others
  refine ⟨⟨?_, same ▸ table.distinct⟩, fun id mem => ?_, before, front ++ .object new :: back, [],
    List.Sublist.refl before, ?_, (List.append_nil _).symm,
    fun _ mem => absurd mem List.not_mem_nil⟩
  · exact forall_mem_replaced others made
  · exact List.mem_append_right _ (known id (same ▸ mem))
  · rw [split]
    exact List.rel_append (List.forall₂_same.mpr fun entry _ => .same entry)
      (.cons (.later later) (List.forall₂_same.mpr fun entry _ => .same entry))

end Change

/-- A record that is renewed is later than it was. -/
theorem Renewal.later {clock : Nat → Instant} (readings : ∀ n, (clock n).IsReading)
    {before after : List Json} (renewal : Renewal clock before after)
    (table : StoreMadeTable before)
    (stamps : ∀ entry ∈ after, Step.StampedBefore10000 entry) :
    ∃ front old new back, before = front ++ .object old :: back ∧
      after = front ++ .object new :: back ∧ Later old new ∧ StoreMade (.object new) := by
  obtain ⟨front, back, old, changes, n⟩ := renewal
  obtain ⟨record, created, updated, same, made⟩ := table.made (.object old)
    (List.mem_append_right _ List.mem_cons_self)
  cases same
  obtain ⟨later, madeNew⟩ := made.amended readings changes n
    (stamps _ (List.mem_append_right _ List.mem_cons_self))
  exact ⟨front, old, _, back, rfl, rfl, later, madeNew⟩

/-- Whatever a step does to the list of a table, the table holds records that the store made. -/
theorem Change.stillStoreMade {clock : Nat → Instant} (readings : ∀ n, (clock n).IsReading)
    {issued : List String} {before after : List Json} (change : Change clock before after)
    (table : StoreMadeTable before) (known : ∀ id ∈ identifiers before, id ∈ issued)
    (fresh : (identifiers (after.drop before.length) ++ issued).Nodup)
    (stamps : ∀ entry ∈ after, Step.StampedBefore10000 entry) :
    StillStoreMade issued before after := by
  cases change with
  | kept => exact stillStoreMade_sublist table known (List.Sublist.refl before)
  | emptied => exact stillStoreMade_sublist table known (List.nil_sublist before)
  | added _ new =>
    rw [List.drop_left] at fresh
    refine stillStoreMade_added table known (fun entry mem => ?_) fresh
    obtain ⟨record, isRecord, rfl⟩ := List.mem_map.mp mem
    exact (new record isRecord).storeMade readings (stamps _ (List.mem_append_right _ mem))
  | renewed renewal =>
    obtain ⟨front, old, new, back, split, rfl, later, made⟩ := renewal.later readings table stamps
    exact stillStoreMade_later table known split later made
  | removed front back entry =>
    exact stillStoreMade_sublist table known
      ((List.Sublist.refl front).append (List.sublist_cons_self entry back))

/-! ## The table as it is read again -/

/-- A table of records that the store made is read as such a table, with the same identifiers. -/
theorem StoreMadeTable.reread {items items' : List Json} (table : StoreMadeTable items)
    (reads : List.Forall₂ Rereads items items') :
    StoreMadeTable items' ∧ identifiers items' = identifiers items := by
  obtain ⟨made, distinct⟩ := table
  have both : (∀ entry ∈ items', StoreMade entry) ∧ identifiers items' = identifiers items := by
    clear distinct
    induction reads with
    | nil => exact ⟨made, rfl⟩
    | cons first _ ih =>
      obtain ⟨madeFirst, madeRest⟩ := List.forall_mem_cons.mp made
      obtain ⟨old, new, rfl, rfl, same, madeAgain⟩ := madeFirst.rereads first
      obtain ⟨madeLater, others⟩ := ih madeRest
      refine ⟨List.forall_mem_cons.mpr ⟨madeAgain, madeLater⟩, ?_⟩
      rw [identifiers_cons, identifiers_cons, others, same.identifierText?]
  exact ⟨⟨both.1, both.2 ▸ distinct⟩, both.2⟩

/-- What is still there in a table of such records is still there when the table is read again. -/
theorem Evolves.reread {issued : List String} {before after after' : List Json}
    (evolves : Evolves Kept issued before after) (made : StoreMadeTable after)
    (reads : List.Forall₂ Rereads after after') : Evolves Continues issued before after' := by
  obtain ⟨kept, survivors, added, part, still, rfl, fresh⟩ := evolves
  obtain ⟨survivors', added', rfl, readsFront, readsBack⟩ := forall₂_append_left reads
  have madeAdded := made.sublist (List.sublist_append_right survivors added)
  have madeSurvivors := (List.forall_mem_append.mp made.made).1
  refine ⟨kept, survivors', added', part, ?_, rfl, (madeAdded.reread readsBack).2 ▸ fresh⟩
  clear reads part made
  induction still generalizing survivors' with
  | nil =>
    cases readsFront
    exact .nil
  | cons first _ ih =>
    cases readsFront with
    | cons read readsFront =>
      obtain ⟨madeFirst, madeRest⟩ := List.forall_mem_cons.mp madeSurvivors
      exact .cons (first.reread madeFirst read) (ih _ readsFront madeRest)

theorem Evolves.continues {issued : List String} {before after : List Json}
    (evolves : Evolves Kept issued before after) : Evolves Continues issued before after := by
  obtain ⟨kept, survivors, added, part, still, split, fresh⟩ := evolves
  exact ⟨kept, survivors, added, part, still.imp fun _ _ => Kept.continues, split, fresh⟩

/-! ## Every run -/

/-- An admissible step keeps a table of records that the store made. -/
theorem Step.stillStoreMade {w : World} {t : Table} {issued : List String} {step : Step}
    (readings : ∀ n, (w.clock n).IsReading) (table : StoreMadeTable (w.directory.tableEntries t))
    (known : ∀ id ∈ identifiers (w.directory.tableEntries t), id ∈ issued)
    (admissible : step.Admissible w t issued) :
    StoreMadeTable ((step.run w).directory.tableEntries t) ∧
      (∀ id ∈ identifiers ((step.run w).directory.tableEntries t),
        id ∈ step.issues w t ++ issued) ∧
      Evolves Continues issued (w.directory.tableEntries t)
        ((step.run w).directory.tableEntries t) := by
  have still := (Step.change admissible.noRestore).stillStoreMade readings table known
    admissible.fresh admissible.stamps
  have nothing : StillStoreMade issued (w.directory.tableEntries t) [] :=
    stillStoreMade_sublist table known (List.nil_sublist _)
  rcases Step.tableEntries_run w step t with same | same | read
  · rw [same]
    exact ⟨table, fun id mem => List.mem_append_right _ (known id mem),
      (evolves_sublist issued (List.Sublist.refl _)).continues⟩
  · rw [same]
    exact ⟨still.table, still.known, still.evolves.continues⟩
  rw [read]
  rcases rereadEntries_cases ((step.lists w).entries t) with none | reads
  · rw [none]
    exact ⟨nothing.table, fun _ mem => absurd mem List.not_mem_nil, nothing.evolves.continues⟩
  · obtain ⟨tableAfter, sameIds⟩ := still.table.reread reads
    exact ⟨tableAfter, sameIds ▸ still.known, still.evolves.reread still.table reads⟩

/-- What carries the induction along a run. -/
theorem Reachable.invariant {t : Table} {w : World} {issued : List String}
    (reached : Reachable t w issued) :
    (∀ n, (w.clock n).IsReading) ∧ StoreMadeTable (w.directory.tableEntries t) ∧
      ∀ id ∈ identifiers (w.directory.tableEntries t), id ∈ issued := by
  induction reached with
  | start empty clock =>
    rw [empty]
    exact ⟨clock, ⟨fun _ mem => absurd mem List.not_mem_nil, List.nodup_nil⟩, fun _ mem => mem⟩
  | @step w issued reached step admissible ih =>
    obtain ⟨readings, table, known⟩ := ih
    obtain ⟨tableAfter, knownAfter, -⟩ := Step.stillStoreMade readings table known admissible
    refine ⟨fun n => ?_, tableAfter, knownAfter⟩
    rw [(Step.leaves_lists w step).clock]
    exact readings n

/-- In every world that a run from an empty table reaches, the table holds records that the store
made, with identifiers that it has given out; a further step keeps them or moves their last change
forward, and one that reports a change has done so for a record in its place, and also as this
record is read again. -/
theorem reachable_storeMade {t : Table} {w : World} {issued : List String}
    (reached : Reachable t w issued) :
    StoreMadeTable (w.directory.tableEntries t) ∧
      (∀ id ∈ identifiers (w.directory.tableEntries t), id ∈ issued) ∧
      ∀ step : Step, step.Admissible w t issued →
        Evolves Continues issued (w.directory.tableEntries t)
          ((step.run w).directory.tableEntries t) ∧
        (step.Updates w t → ∃ front old new back,
          w.directory.tableEntries t = front ++ .object old :: back ∧ Later old new ∧
          (step.run w).directory.tableEntries t = rereadEntries (front ++ .object new :: back) ∧
          ((step.run w).directory.tableEntries t = [] ∨ ∃ front' new' back',
            (step.run w).directory.tableEntries t = front' ++ .object new' :: back' ∧
            front'.length = front.length ∧ Later old new')) := by
  obtain ⟨readings, table, known⟩ := reached.invariant
  refine ⟨table, known, fun step admissible => ?_⟩
  obtain ⟨-, -, evolves⟩ := Step.stillStoreMade readings table known admissible
  refine ⟨evolves, fun updates => ?_⟩
  obtain ⟨renewal, left⟩ := Step.renewed updates
  obtain ⟨front, old, new, back, split, written, later, made⟩ :=
    renewal.later readings table admissible.stamps
  rw [written] at left
  refine ⟨front, old, new, back, split, later, left, ?_⟩
  rw [left]
  rcases rereadEntries_cases (front ++ .object new :: back) with none | reads
  · exact .inl none
  · obtain ⟨front', rest', after, readsFront, readsBack⟩ := forall₂_append_left reads
    cases readsBack with
    | @cons _ entry' _ back' readsNew _ =>
      obtain ⟨_, new', same, rfl, own, -⟩ := made.rereads readsNew
      cases same
      exact .inr ⟨front', new', back', after, readsFront.length_eq.symm, later.ofSameOwn own⟩

/-- A record is made of fields that belong to the store, and changed while the clock stands
still. -/
theorem reachable_storeMade_still :
    let s : Store := ⟨"data", .default⟩
    let w : World := ⟨.empty, fun _ => ⟨0, 0⟩, 0, fun n => n, 0⟩
    let given : Fields :=
      ⟨[("created_at", .text "later"), ("id", .text "mine")], List.pairwise_pair.mpr (by decide),
        trivial, trivial, trivial⟩
    let create : Step := .operation s (.create .pages given)
    let w₁ := create.run w
    let issued := create.issues w .pages ++ []
    let update : Step := .operation s (.update .pages "00000000000000000000000000" given)
    Reachable .pages w₁ issued ∧ update.Admissible w₁ .pages issued ∧ update.Updates w₁ .pages ∧
      StoreMadeTable (w₁.directory.tableEntries .pages) ∧
      ∃ front old new back,
        w₁.directory.tableEntries .pages = front ++ .object old :: back ∧ Later old new ∧
        (update.run w₁).directory.tableEntries .pages =
          rereadEntries (front ++ .object new :: back) := by
  intro s w given create w₁ issued update
  have readings : ∀ n, (w.clock n).IsReading := fun _ =>
    ⟨le_refl (0 : Int), Nat.succ_pos 999999999⟩
  have creates : create.Admissible w .pages [] := by
    refine ⟨nofun, by decide +kernel, fun entry mem => Step.stampedBefore10000_of_read ?_⟩
    have all : ((create.lists w).entries .pages).all Step.stampsRead = true := by decide +kernel
    exact List.all_eq_true.mp all entry mem
  have reached : Reachable .pages w₁ issued := .step (.start rfl readings) create creates
  have computed : (update.issues w₁ .pages ++ issued).Nodup ∧
      ((update.lists w₁).entries .pages).all Step.stampsRead = true ∧
      (w₁.run (s.update .pages "00000000000000000000000000" given)).1.toOption.join.isSome =
        true := by
    decide +kernel
  obtain ⟨fresh, all, found⟩ := computed
  have changes : update.Admissible w₁ .pages issued :=
    ⟨nofun, fresh, fun entry mem =>
      Step.stampedBefore10000_of_read (List.all_eq_true.mp all entry mem)⟩
  have updates : update.Updates w₁ .pages := by
    rcases runs : w₁.run (s.update .pages "00000000000000000000000000" given) with
      ⟨_ | _ | record, w'⟩
    · rw [runs] at found
      cases found
    · rw [runs] at found
      cases found
    · refine ⟨_, given, record, rfl, ?_⟩
      rw [Operation.act, World.run_bind_ok _ runs]
      rfl
  obtain ⟨table, -, steps⟩ := reachable_storeMade reached
  obtain ⟨front, old, new, back, split, later, read, -⟩ := (steps update changes).2 updates
  exact ⟨reached, changes, updates, table, front, old, new, back, split, later, read⟩

end ContentStore
