import ContentStore.Proofs.Binary64.Order
import ContentStore.Proofs.Sql.Identity
import ContentStore.Proofs.StableSort
import ContentStore.Proofs.Store.Run
import ContentStore.Proofs.Timestamp.Stamp
/-!
# The rows of a selection

A selection gives a window of a list that holds the records of its table that pass all filters
(`matching`).  This list is a stable sort of them (`Arranged`): by the instant that the text of
`created_at` denotes (`creation?`), the newest first and a record without an instant behind all that
have one (`NotOlder`), or by the number of `sort_order` in the total order of doubles; without an
order it is the list of these records itself (`selection_gives_window`).
-/

namespace ContentStore.Sql

/-- The instant that the text of a record's `created_at` denotes; none without a text there that
denotes one. -/
def creation? (r : Record) : Option Instant :=
  match Json.Members.get? "created_at" r with
  | some (.text stamp) => Instant.ofText? stamp
  | _ => none

theorem createdAt?_eq_creation? (r : Record) : createdAt? r = creation? r := by
  rw [createdAt?, Record.text?, creation?, Record.createdKey]
  cases Json.Members.get? "created_at" r with
  | none => rfl
  | some v => cases v <;> rfl

/-- One record may stand before another when the newest come first: its instant is not before the
other's, and without an instant it stands only before one without. -/
inductive NotOlder : Option Instant → Option Instant → Prop
  | dated {s t : Instant} (notBefore : s.before t = false) : NotOlder (some s) (some t)
  | undated (created : Option Instant) : NotOlder created none

theorem before_eq_false {s t : Instant} : s.before t = false ↔
    t.second < s.second ∨ t.second = s.second ∧ t.nano ≤ s.nano := by
  rw [Bool.eq_false_iff, Ne, Instant.before_iff]
  omega

instance : Std.Total NotOlder where
  total
    | _, none => .inl (.undated _)
    | none, _ => .inr (.undated _)
    | some s, some t => by
      by_cases notBefore : s.before t = false
      · exact .inl (.dated notBefore)
      · refine .inr (.dated ?_)
        rw [before_eq_false] at notBefore ⊢
        omega

instance : IsTrans (Option Instant) NotOlder where
  trans _ _ _ first second := by
    cases second with
    | undated => exact .undated _
    | dated second =>
      cases first with
      | dated first =>
        refine .dated ?_
        rw [before_eq_false] at first second ⊢
        omega

theorem newestFirstLe_iff (a b : Record) :
    newestFirstLe a b = true ↔ NotOlder (creation? a) (creation? b) := by
  rw [newestFirstLe, createdAt?_eq_creation?, createdAt?_eq_creation?]
  cases creation? a with
  | none =>
    cases creation? b with
    | none => exact iff_of_true rfl (.undated none)
    | some t => exact iff_of_false Bool.false_ne_true (by rintro ⟨⟩)
  | some s =>
    cases creation? b with
    | none => exact iff_of_true rfl (.undated _)
    | some t =>
      refine ⟨fun le => .dated (Bool.not_eq_true' _ ▸ le), fun le => ?_⟩
      cases le with
      | dated notBefore => exact congrArg not notBefore

/-- The double by which a record is placed when the rows are sorted by `sort_order`. -/
def sortNumber (r : Record) : Binary64 := Json.numeric (Json.Members.get? "sort_order" r)

/-- The records of a selection's table that pass all its filters, as they stand in the table. -/
def Select.matching (selection : Select) (d : Directory) : List Record :=
  (d.records selection.table).filter fun r => ∀ f ∈ selection.filters, f.passes r = true

/-- Records are arranged as an order asks. -/
inductive Arranged : Option RowOrder → List Record → List Record → Prop
  | asStored (rows : List Record) : Arranged none rows rows
  | newestFirst {rows sorted : List Record} (sorts : StableSort creation? NotOlder rows sorted) :
    Arranged (some .newestFirst) rows sorted
  | sortOrder {rows sorted : List Record}
    (sorts : StableSort sortNumber Binary64.TotalLe rows sorted) :
    Arranged (some .sortOrder) rows sorted

theorem stableSort_sortOrder (rows : List Record) :
    StableSort sortNumber Binary64.TotalLe rows (sortRows (some .sortOrder) rows) := by
  refine stableSort_mergeSort (fun a b => ?_) rows
  rw [decide_eq_true_iff]
  exact Binary64.rank_le_iff

theorem arranged_sortRows (order : Option RowOrder) (rows : List Record) :
    Arranged order rows (sortRows order rows) := by
  match order with
  | none => exact .asStored rows
  | some .newestFirst => exact .newestFirst (stableSort_mergeSort newestFirstLe_iff rows)
  | some .sortOrder => exact .sortOrder (stableSort_sortOrder rows)

theorem getElem?_window (offset limit : Option Nat) (rows : List Record) (i : Nat) :
    (window offset limit rows)[i]? =
      if limit.all (i < ·) then rows[offset.getD 0 + i]? else none := by
  cases limit with
  | none => exact List.getElem?_drop
  | some n =>
    rw [window, List.getElem?_take, List.getElem?_drop]
    simp only [Option.all_some, decide_eq_true_eq]

theorem rows_eq (selection : Select) (d : Directory) :
    selection.rows d =
      window selection.offset selection.limit
        (sortRows selection.order (selection.matching d)) := by
  have tests : (fun r => selection.filters.all fun f => f.passes r) =
      fun r => decide (∀ f ∈ selection.filters, f.passes r = true) := by
    funext r
    rw [Bool.eq_iff_iff, List.all_eq_true, decide_eq_true_iff]
  rw [Select.rows, Directory.recordsWhere, tests, Select.matching]

/-- A selection gives a window of the records that pass its filters, arranged by its order. -/
theorem selection_gives_window (s : Store) (w : World) (selection : Select) :
    ∃ rows sorted, w.run (run s (.select selection)) = (.ok (.rows rows), w) ∧
      Arranged selection.order (selection.matching w.directory) sorted ∧
      ∀ i, rows[i]? =
        if selection.limit.all (i < ·) then sorted[selection.offset.getD 0 + i]? else none := by
  refine ⟨selection.rows w.directory, _, rfl, arranged_sortRows _ _, fun i => ?_⟩
  rw [rows_eq, getElem?_window]

/-- Two rows of three: the last one of the table is the newest, though its text is not the greatest,
and the one in the middle has no instant. -/
theorem selection_gives_window_newest :
    let a : Record := [("created_at", .text "2026-01-01T10:30:00Z"), ("id", .text "a")]
    let b : Record := [("id", .text "b")]
    let c : Record := [("created_at", .text "2026-01-01T09:45:00-02:00"), ("id", .text "c")]
    let file := bytesOfEntries .oneLine [.object a, .object b, .object c]
    let s : Store := ⟨"data", .default⟩
    let w : World :=
      ⟨Directory.empty.set Table.pages.fileName (.file file), fun _ => ⟨0, 0⟩, 0, fun _ => 0, 0⟩
    let selection : Select := ⟨.pages, [], some .newestFirst, some 2, none⟩
    ∃ rows sorted, w.run (run s (.select selection)) = (.ok (.rows rows), w) ∧
      Arranged (some .newestFirst) (selection.matching w.directory) sorted ∧
      (∀ i, rows[i]? = if i < 2 then sorted[i]? else none) ∧ rows = [c, a] := by
  intro a b c file s w selection
  have records : w.directory.records .pages = [a, b, c] := by
    rw [Directory.records, Directory.tableEntries_set .oneLine,
      rereadEntries_of_storable (by decide)]
    · rfl
    · refine List.forall_mem_cons.mpr ⟨?_, List.forall_mem_cons.mpr ⟨?_,
        List.forall_mem_singleton.mpr ?_⟩⟩
      · exact ⟨List.pairwise_pair.mpr (by decide), trivial, trivial, trivial⟩
      · exact ⟨List.pairwise_singleton _ _, trivial, trivial⟩
      · exact ⟨List.pairwise_pair.mpr (by decide), trivial, trivial, trivial⟩
  have first : newestFirstLe a b = true := by decide +kernel
  have later : newestFirstLe a c = false := by decide +kernel
  have sorted : [a, b, c].mergeSort newestFirstLe = [c, a, b] := by
    simp [List.mergeSort, List.MergeSort.Internal.splitInTwo, first, later]
  obtain ⟨rows, arranged, runs, sorts, window⟩ := selection_gives_window s w selection
  refine ⟨rows, arranged, runs, sorts, fun i => ?_, ?_⟩
  · simpa [selection] using window i
  · have same : selection.rows w.directory = rows :=
      Outcome.rows.inj (Except.ok.inj (congrArg Prod.fst runs))
    rw [← same, rows_eq, Select.matching, records]
    exact congrArg (List.take 2) sorted

/-! ## Selections of a whole table -/

/-- The tokens of a selection of all records of a table, in an order. -/
def wholeTokens (t : Table) (order : Option RowOrder) : List Token :=
  [keyword "SELECT", .operator "*", keyword "FROM", keyword t.name] ++ orderTokens order

theorem parse_wholeTokens {text : String} {t : Table} {order : Option RowOrder}
    (scans : scan text = .ok (wholeTokens t order)) (params : List Json) :
    parse text params = .ok (.select ⟨t, [], order, none, none⟩) := by
  rw [parse_scanned _ scans]
  cases t <;> rcases order with _ | _ | _ <;> rfl

theorem rows_whole (t : Table) (order : Option RowOrder) (d : Directory) :
    (Select.mk t [] order none none).rows d = sortRows order (d.records t) :=
  congrArg (sortRows order) (List.filter_true _)

/-- A selection of a whole table gives its records, arranged by the order. -/
theorem run_whole {s : Store} {w : World} {text : String} {t : Table} {order : Option RowOrder}
    (scans : scan text = .ok (wholeTokens t order)) (params : List Json) :
    w.run (execute s text params) = (.ok (.rows (sortRows order (w.directory.records t))), w) := by
  rw [run_execute (parse_wholeTokens scans params), ← rows_whole]
  rfl

end ContentStore.Sql
