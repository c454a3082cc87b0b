import ContentStore.Proofs.Json.LooseEquality
import ContentStore.Proofs.Store.Memory
/-!
# The entry that an identifier names

An entry is named by the scalar text of its identifier.  Of the entries with one identifier the
first counts (`FirstWith`): it is the record that is found, changed and removed, and where no entry
has the identifier nothing is found, changed or removed (`named_by_text`).
-/

namespace ContentStore

/-! ## The first entry with an identifier -/

/-- Where an entry has an identifier, one entry is the first that has it. -/
theorem exists_firstWith {key : String} {items : List Json} {entry : Json} (mem : entry ∈ items)
    (has : identifierText? entry = some key) :
    ∃ front old back, FirstWith key items front old back := by
  induction items with
  | nil => cases mem
  | cons head rest ih =>
    by_cases here : identifierText? head = some key
    · obtain ⟨old, rfl⟩ := exists_object here
      exact ⟨[], old, rest, rfl, here, nofun⟩
    · have later : entry ∈ rest := (List.mem_cons.mp mem).resolve_left fun same =>
        here (same ▸ has)
      obtain ⟨front, old, back, found⟩ := ih later
      exact ⟨head :: front, old, back, found.cons here⟩

namespace FirstWith

variable {key : String} {items front back : List Json} {old : Record}

theorem findIdx? (found : FirstWith key items front old back) :
    items.findIdx? (hasId key) = some front.length := by
  have before : front.findIdx? (hasId key) = none :=
    List.findIdx?_eq_none_iff.mpr fun entry mem =>
      Bool.eq_false_iff.mpr (mt (hasId_iff key entry).mp (found.first entry mem))
  rw [found.split, List.findIdx?_append, before, List.findIdx?_cons,
    if_pos ((hasId_iff _ _).mpr found.has)]
  simp

/-- There is one first entry with an identifier. -/
theorem unique {front' back' : List Json} {old' : Record}
    (found : FirstWith key items front old back) (found' : FirstWith key items front' old' back') :
    front = front' ∧ old = old' ∧ back = back' := by
  have length : front.length = front'.length :=
    Option.some.inj (found.findIdx?.symm.trans found'.findIdx?)
  obtain ⟨sameFront, rest⟩ := List.append_inj (found.split.symm.trans found'.split) length
  obtain ⟨sameEntry, sameBack⟩ := List.cons.inj rest
  exact ⟨sameFront, Json.object.inj sameEntry, sameBack⟩

end FirstWith

/-- Where no entry has an identifier, there is no place of one. -/
theorem findIdx?_absent {key : String} {items : List Json}
    (absent : ∀ entry ∈ items, identifierText? entry ≠ some key) :
    items.findIdx? (hasId key) = none :=
  List.findIdx?_eq_none_iff.mpr fun entry mem =>
    Bool.eq_false_iff.mpr (mt (hasId_iff key entry).mp (absent entry mem))

/-- A table that holds an entry can be written. -/
theorem Directory.exists_writeTable {d : Directory} {t : Table} {entry : Json}
    (mem : entry ∈ d.tableEntries t) (config : Config) (items : List Json) :
    ∃ d', d.writeTable config t items = .ok d' := by
  have writable : d.Writable t := by
    intro folder
    rw [tableEntries, folder] at mem
    cases mem
  exact ⟨_, writeTable_of_writable config items writable⟩

namespace World

variable {w : World} {t : Table} {key : String} {front back : List Json} {old : Record}

theorem run_update_absent (s : Store)
    (absent : ∀ entry ∈ w.directory.tableEntries t, identifierText? entry ≠ some key)
    (changes : Record) : w.run (s.update t key changes) = (.ok none, w) := by
  rw [Store.update, run_bind_ok _ (run_load t w), findIdx?_absent absent]
  rfl

theorem run_delete_absent (s : Store)
    (absent : ∀ entry ∈ w.directory.tableEntries t, identifierText? entry ≠ some key) :
    w.run (s.delete t key) = (.ok false, w) := by
  rw [Store.delete, run_bind_ok _ (run_load t w), findIdx?_absent absent]
  rfl

/-- A change of the first entry with an identifier puts the changed record in its place. -/
theorem run_update_first (s : Store)
    (found : FirstWith key (w.directory.tableEntries t) front old back) (changes : Record) :
    let new := Store.changed (w.clock w.readings) old changes
    ∃ d, w.directory.writeTable s.config t (front ++ .object new :: back) = .ok d ∧
      w.run (s.update t key changes) =
        (.ok (some new), { w with readings := w.readings + 1, directory := d }) := by
  intro new
  have mem : .object old ∈ w.directory.tableEntries t :=
    found.split ▸ List.mem_append_right _ List.mem_cons_self
  obtain ⟨d, written⟩ :=
    Directory.exists_writeTable mem s.config (front ++ .object new :: back)
  refine ⟨d, written, ?_⟩
  have there : (w.directory.tableEntries t)[front.length]? = some (.object old) := by
    rw [found.split, List.getElem?_append_right (Nat.le_refl _), Nat.sub_self]
    rfl
  have replaced : (w.directory.tableEntries t).set front.length (.object new) =
      front ++ .object new :: back := by
    rw [found.split, List.set_append_right _ _ (Nat.le_refl _), Nat.sub_self]
    rfl
  rw [Store.update, run_bind_ok _ (run_load t w), found.findIdx?]
  dsimp only
  rw [there]
  dsimp only
  rw [run_bind_ok _ (run_now w), replaced, run_bind, run_save, written]
  rfl

/-- A deletion removes the first entry with an identifier. -/
theorem run_delete_first (s : Store)
    (found : FirstWith key (w.directory.tableEntries t) front old back) :
    ∃ d, w.directory.writeTable s.config t (front ++ back) = .ok d ∧
      w.run (s.delete t key) = (.ok true, { w with directory := d }) := by
  have mem : .object old ∈ w.directory.tableEntries t :=
    found.split ▸ List.mem_append_right _ List.mem_cons_self
  obtain ⟨d, written⟩ := Directory.exists_writeTable mem s.config (front ++ back)
  refine ⟨d, written, ?_⟩
  have removed : (w.directory.tableEntries t).eraseIdx front.length = front ++ back := by
    rw [found.split, List.eraseIdx_append_of_length_le (Nat.le_refl _), Nat.sub_self]
    rfl
  rw [Store.delete, run_bind_ok _ (run_load t w), found.findIdx?]
  dsimp only
  rw [removed, run_bind, run_save, written]
  rfl

end World

/-! ## What is found, changed and removed -/

theorem recordById?_absent {t : Table} {key : String} {d : Directory}
    (absent : ∀ entry ∈ d.tableEntries t, identifierText? entry ≠ some key) :
    d.recordById? t key = none := by
  have none : ((d.tableEntries t).find? fun v => identifierText? v = some key) = none :=
    List.find?_eq_none.mpr fun entry mem => by simp [absent entry mem]
  rw [Directory.recordById?, Directory.records, find?_records, none, Option.bind_none]

theorem recordById?_first {t : Table} {key : String} {d : Directory} {front back : List Json}
    {old : Record} (found : FirstWith key (d.tableEntries t) front old back) :
    d.recordById? t key = some old := by
  rw [Directory.recordById?, Directory.records, find?_records, found.find?]
  rfl

/-- Loose equality holds of a value and itself and in both directions; it matches a text with the
values that have it for their scalar text, and of two scalars of one kind only equal ones and zeros.
So an identifier names the entries whose own one has it for its scalar text: where there are none,
no record is found, changed or removed, and otherwise the first of them is. -/
theorem named_by_text :
    (∀ a : Json, a.looseEq a = true) ∧
    (∀ a b : Json, a.looseEq b = b.looseEq a) ∧
    (∀ (v : Json) (text : String), v.looseEq (.text text) = true ↔ v.scalarText? = some text) ∧
    (∀ a b : Json, a.SameScalarKind b → (a.looseEq b = true ↔ a = b ∨ a.AreZeros b)) ∧
    ∀ (s : Store) (w : World) (t : Table) (key : String) (changes : Record),
      (∀ entry ∈ w.directory.tableEntries t, identifierText? entry ≠ some key) ∧
        w.directory.recordById? t key = none ∧
        w.run (s.update t key changes) = (.ok none, w) ∧
        w.run (s.delete t key) = (.ok false, w) ∨
      ∃ front old back updated deleted,
        FirstWith key (w.directory.tableEntries t) front old back ∧
        w.directory.recordById? t key = some old ∧
        w.run (s.update t key changes) =
          (.ok (some (Store.changed (w.clock w.readings) old changes)), updated) ∧
        w.directory.writeTable s.config t
          (front ++ .object (Store.changed (w.clock w.readings) old changes) :: back) =
            .ok updated.directory ∧
        w.run (s.delete t key) = (.ok true, deleted) ∧
        w.directory.writeTable s.config t (front ++ back) = .ok deleted.directory := by
  refine ⟨Json.looseEq_refl, Json.looseEq_comm, fun v text => looseEq_text_iff,
    fun a b kind => Json.looseEq_iff_of_sameKind kind, fun s w t key changes => ?_⟩
  by_cases absent : ∀ entry ∈ w.directory.tableEntries t, identifierText? entry ≠ some key
  · exact .inl ⟨absent, recordById?_absent absent, w.run_update_absent s absent changes,
      w.run_delete_absent s absent⟩
  · simp only [not_forall, not_not, exists_prop] at absent
    obtain ⟨entry, mem, has⟩ := absent
    obtain ⟨front, old, back, found⟩ := exists_firstWith mem has
    obtain ⟨d, written, updates⟩ := w.run_update_first s found changes
    obtain ⟨d', erased, deletes⟩ := w.run_delete_first s found
    exact .inr ⟨front, old, back, _, _, found, recordById?_first found, updates, written, deletes,
      erased⟩

/-- The integer 1 and the double 1.0 are two numbers, and have two texts. -/
theorem named_by_text_one :
    let integer : Json := .number (.integer 1 (by decide))
    let double : Json := .number (.double Binary64.one (by decide))
    integer.SameScalarKind double ∧ integer.looseEq double = false ∧
      integer.looseEq (.text "1") = true ∧ double.looseEq (.text "1.0") = true := by
  intro integer double
  obtain ⟨-, -, texts, kinds, -⟩ := named_by_text
  have kind : integer.SameScalarKind double := .number _ _
  refine ⟨kind, ?_, (texts _ _).mpr (by decide +kernel), (texts _ _).mpr (by decide +kernel)⟩
  have noZeros : ¬Json.AreZeros (.number (.integer 1 (by decide))) double := by
    rintro ⟨⟩
  have differ : ¬(integer = double ∨ integer.AreZeros double) := by
    rintro (equal | zeros)
    · exact absurd (Json.number.inj equal) (by decide)
    · exact noZeros zeros
  exact Bool.eq_false_iff.mpr (mt (kinds _ _ kind).mp differ)

end ContentStore
