import ContentStore.Proofs.Sql.Effect
import ContentStore.Proofs.Sql.Rendered
import ContentStore.Proofs.Sql.Window
/-!
# An inserted row is selected

An insertion of values under columns stores a record of the last value of each column, apart from
the keys that the store owns, with a new identifier and twice the same stamp (`NewField`).  The
table then has its entries and this record as they are read.  Where all of them are settled and the
identifier is new to the table, the selection by it gives this record alone, and the selection of
the whole table gives it behind the records from before (`inserted_row_selected`).  A number that is
not settled is selected as another one (`inserted_number_differs`).
-/

namespace ContentStore

open Json (KeysAscend Members Ordered Settled depth)

namespace Record

/-- The last value that pairs give a key. -/
def LastGiven (pairs : List (String × Json)) (key : String) (v : Json) : Prop :=
  ∃ front back, pairs = front ++ (key, v) :: back ∧ ∀ p ∈ back, p.1 ≠ key

/-- What a new record has: what the store gives it, and the last value that is given for any other
key. -/
inductive NewField (id stamp : String) (given : List (String × Json)) : String → Json → Prop
  | id : NewField id stamp given idKey (.text id)
  | created : NewField id stamp given createdKey (.text stamp)
  | updated : NewField id stamp given updatedKey (.text stamp)
  | given {key : String} {v : Json} (own : isReserved key = false)
    (last : LastGiven given key v) : NewField id stamp given key v

theorem get?_ofPairs_iff {pairs : List (String × Json)} {key : String} {v : Json} :
    Members.get? key (Members.ofPairs pairs) = some v ↔ LastGiven pairs key v := by
  rw [Members.ofPairs, Members.get?_setAll, Members.get?, Option.or_none,
    Members.get?_eq_some_iff]
  constructor
  · rintro ⟨front, back, split, before⟩
    refine ⟨back.reverse, front.reverse, ?_, fun p mem => before p (List.mem_reverse.mp mem)⟩
    rw [← List.reverse_reverse pairs, split]
    simp
  · rintro ⟨front, back, rfl, behind⟩
    exact ⟨back.reverse, front.reverse, by simp, fun p mem => behind p (List.mem_reverse.mp mem)⟩

/-- A new record of pairs has what is said, and nothing else. -/
theorem get?_newRecord_iff {id stamp : String} {pairs : List (String × Json)} {key : String}
    {v : Json} :
    Members.get? key (Store.newRecord id stamp (Members.ofPairs pairs)) = some v ↔
      NewField id stamp pairs key v := by
  have ascend : KeysAscend (Members.ofPairs pairs) := Json.keysAscend_nil.setAll pairs
  rw [Store.newRecord_eq_stamped ascend, get?_stamped]
  constructor
  · intro has
    unfold stampedValue at has
    split at has
    · next isId =>
      cases has
      exact isId ▸ .id
    split at has
    · next isStamp =>
      cases has
      rcases isStamp with rfl | rfl
      · exact .created
      · exact .updated
    · next notId notStamp =>
      refine .given (Bool.eq_false_iff.mpr fun reserved => ?_) (get?_ofPairs_iff.mp has)
      exact (Store.isReserved_iff.mp reserved).elim notId notStamp
  · intro field
    cases field with
    | id => rfl
    | created => rfl
    | updated => rfl
    | given own last =>
      have notReserved := mt Store.isReserved_iff.mpr (Bool.eq_false_iff.mp own)
      rw [not_or] at notReserved
      rw [stampedValue, if_neg notReserved.1, if_neg notReserved.2, get?_ofPairs_iff]
      exact last

end Record

/-- A record of what the store gives and of settled values is settled. -/
theorem settled_of_newField {id stamp : String} {given : List (String × Json)} {record : Record}
    (ascend : KeysAscend record)
    (fields : ∀ key v, Members.get? key record = some v → Record.NewField id stamp given key v)
    (settled : ∀ p ∈ given, Settled p.2) : Settled (.object record) := by
  refine Json.settled_object_iff.mpr fun (key, v) mem => ?_
  cases fields key v (ascend.get?_of_mem mem) with
  | id | created | updated => rfl
  | given own last =>
    obtain ⟨front, back, rfl, -⟩ := last
    exact settled (key, v) (List.mem_append_right front List.mem_cons_self)

/-! ## The record that an insertion stores -/

namespace World

theorem run_create (s : Store) {w : World} {t : Table} (writable : w.directory.Writable t)
    (fields : Record) :
    let record := w.newRecordAhead s.config.idStrategy 0 fields
    let items := w.directory.tableEntries t ++ [.object record]
    let bytes := bytesOfEntries s.config.layout items
    w.run (s.create t fields) = (.ok record, { w with
      readings := w.readings + 1
      draws := w.draws + 1
      directory := w.directory.set t.fileName (.file bytes) }) := by
  intro record items bytes
  rw [Store.create, run_bind_ok _ (run_load t w), run_bind_ok _ (run_stampNew s fields w)]
  rw [run_bind, run_save, Directory.writeTable_of_writable _ _ writable]
  rfl

end World

namespace Directory

/-- A new record of shallow fields leaves room around the entries, and is read behind those from
before. -/
theorem tableEntries_added {fields : Record} (ordered : Ordered (.object fields))
    (shallow : ∀ p ∈ fields, Shallow p.2) (id stamp : String) (layout : Json.Layout) (t : Table)
    (d : Directory) :
    let items := d.tableEntries t ++ [.object (Store.newRecord id stamp fields)]
    Roomy items ∧
      (d.set t.fileName (.file (bytesOfEntries layout items))).tableEntries t =
        rereadEntries items := by
  intro items
  have orderedItems : OrderedEntries items := List.forall_mem_append.mpr
    ⟨d.tableEntries_ordered t,
      List.forall_mem_singleton.mpr (Store.newRecord_ordered ordered id stamp)⟩
  have room : Json.depth (.object (Store.newRecord id stamp fields)) < Json.nestingLimit := by
    rw [Store.newRecord_eq_stamped ordered.1]
    exact depth_stamped_lt shallow
  exact ⟨List.forall_mem_append.mpr
    ⟨d.tableEntries_roomy t, List.forall_mem_singleton.mpr room⟩,
    tableEntries_set layout orderedItems d⟩

theorem records_added {t : Table} {d d' : Directory} {record : Record}
    (added : d'.tableEntries t = d.tableEntries t ++ [.object record]) :
    d'.records t = d.records t ++ [record] := by
  rw [records, added, List.filterMap_append]
  rfl

end Directory

namespace Sql

/-! ## Insertions of values under columns -/

/-- The tokens of an insertion of values under columns. -/
def insertTokens (t : Table) (columns : List Column) : List Token :=
  keyword "INSERT" :: keyword "INTO" :: keyword t.name :: .leftParen ::
    (separated .comma (columns.map Column.tokens) ++
      .rightParen :: keyword "VALUES" :: .leftParen ::
        (separated .comma (columns.map fun _ => [slot]) ++ [.rightParen]))

/-- The values under the columns of an insertion, in turn. -/
def assignedTo (columns : List Column) (values : List Json) : List Assignment :=
  (columns.map Column.name).zipWith Assignment.mk (values.map .value)

theorem parse_insertTokens {text : String} {t : Table} {columns : List Column}
    {values : List Json} (scans : scan text = .ok (insertTokens t columns))
    (nonempty : columns ≠ []) (count : columns.length = values.length) :
    parse text values = .ok (.insert t (assignedTo columns values)) := by
  have slots : columns.map (fun _ => [slot]) = (values.map Assigned.value).map Assigned.tokens := by
    rw [List.map_map, List.map_const', count, ← List.map_const']
    rfl
  have supplied : Supplied values 0 ((values.map Assigned.value).flatMap Assigned.values) := by
    have same : (values.map Assigned.value).flatMap Assigned.values = values := by
      rw [List.flatMap_map]
      exact List.flatMap_singleton' values
    rw [same]
    exact List.prefix_rfl
  have last : dropSemicolons (insertTokens t columns) = insertTokens t columns := by
    have split : insertTokens t columns = (keyword "INSERT" :: keyword "INTO" :: keyword t.name ::
        .leftParen :: (separated .comma (columns.map Column.tokens) ++ .rightParen ::
          keyword "VALUES" :: .leftParen ::
            separated .comma (columns.map fun _ => [slot]))) ++ [.rightParen] := by
      simp [insertTokens]
    rw [split]
    exact dropSemicolons_append _ (List.cons_ne_nil _ _) (by decide)
  rw [parse_scanned _ scans, last, insertTokens, run'_verb _ (by decide), if_neg (by decide),
    if_pos rfl, slots]
  exact Parser.run'_insertion t nonempty (by rw [count, List.length_map]) supplied

/-- Values are assigned as they are given, without a reading of the clock. -/
theorem run_resolve_values (w : World) (names : List String) (values : List Json) :
    w.run (resolve (names.zipWith Assignment.mk (values.map .value))) =
      (.ok (Members.ofPairs (names.zip values)), w) := by
  have pairs : w.run ((names.zipWith Assignment.mk (values.map .value)).mapM fun a => do
      return (a.field, ← resolveOne a.assigned)) = (.ok (names.zip values), w) := by
    induction names generalizing values with
    | nil => rfl
    | cons name names ih =>
      cases values with
      | nil => rfl
      | cons v values =>
        have first : w.run (do return (name, ← resolveOne (.value v))) = (.ok (name, v), w) := rfl
        rw [List.map_cons, List.zipWith_cons_cons, List.mapM_cons, World.run_bind_ok _ first,
          World.run_bind_ok _ (ih values)]
        rfl
  rw [resolve, World.run_bind_ok _ pairs]
  rfl

/-- The selection by a new identifier gives the record with it alone. -/
theorem rows_byId_added {t : Table} {d d' : Directory} {id : String} {record : Record}
    (fresh : ∀ entry ∈ d.tableEntries t, identifierText? entry ≠ some id)
    (has : Members.get? Record.idKey record = some (.text id))
    (added : d'.tableEntries t = d.tableEntries t ++ [.object record]) :
    (byId t (.text id)).rows d' = [record] := by
  have others : (d.records t).filter (Record.matchesField Record.idKey (.text id)) = [] := by
    refine List.filter_eq_nil_iff.mpr fun r mem found => ?_
    obtain ⟨entry, inTable, isRecord⟩ := List.mem_filterMap.mp mem
    obtain rfl := recordOf?_eq_some isRecord
    exact fresh _ inTable ((hasId_iff id (.object r)).mp found)
  have this : Record.matchesField Record.idKey (.text id) record = true := by
    refine (hasId_iff id (.object record)).mpr ?_
    rw [identifierText?, Json.member?, has]
    rfl
  rw [rows_byId, Directory.records_added added, List.filter_append, others]
  exact List.filter_cons_of_pos this

/-- The identifier that the store gives next. -/
def nextId (s : Store) (w : World) : String :=
  Identifier.make s.config.idStrategy (w.clock w.readings) (w.chance w.draws)

/-- The record that an insertion of values under columns makes. -/
def insertedRow (s : Store) (w : World) (columns : List Column) (values : List Json) : Record :=
  Store.newRecord (nextId s w) (w.clock w.readings).stamp
    (Members.ofPairs ((columns.map Column.name).zip values))

section Insertion

variable (s : Store) (w : World) (t : Table) {columns : List Column} {values : List Json}

/-- An insertion of values tells the identifier of the record that it adds to the table. -/
theorem run_insertion {text : String} (inserts : scan text = .ok (insertTokens t columns))
    (nonempty : columns ≠ []) (count : columns.length = values.length)
    (fits : ∀ v ∈ values, Ordered v ∧ Shallow v) (writable : w.directory.Writable t) :
    let items := w.directory.tableEntries t ++ [.object (insertedRow s w columns values)]
    ∃ w', w.run (execute s text values) = (.ok (.effect (some (nextId s w)) 1), w') ∧
      Roomy items ∧ w'.directory.tableEntries t = rereadEntries items := by
  let pairs := (columns.map Column.name).zip values
  let fields := Members.ofPairs pairs
  have within : ∀ p ∈ pairs, Ordered p.2 ∧ Shallow p.2 :=
    fun p mem => fits p.2 (List.of_mem_zip mem).2
  have ordered : Ordered (.object fields) :=
    Json.Ordered.setAll ⟨Json.keysAscend_nil, trivial⟩ fun p mem => (within p mem).1
  have shallow : ∀ p ∈ fields, Shallow p.2 := fun p mem =>
    (within p ((Members.mem_setAll mem).resolve_right List.not_mem_nil)).2
  have added := Directory.tableEntries_added ordered shallow (nextId s w) (w.clock w.readings).stamp
    s.config.layout t w.directory
  have tells : (insertedRow s w columns values).id? = some (nextId s w) := by
    rw [Record.id?, Record.text?, insertedRow, Record.get?_newRecord_iff.mpr .id]
  have runs := run_execute (s := s) (w := w) (parse_insertTokens inserts nonempty count)
  rw [run, assignedTo, World.run_bind_ok _ (run_resolve_values w _ values),
    World.run_bind_ok _ (World.run_create s writable fields)] at runs
  rw [← tells]
  exact ⟨_, runs, added⟩

/-- An inserted row stands behind the entries of its table, all of them as they are read.  Where all
are settled, the row is selected by the identifier that the insertion tells, alone, and it stands
behind the rows of the table from before. -/
theorem inserted_row_selected {insert select whole : String}
    (inserts : scan insert = .ok (insertTokens t columns))
    (selects : scan select = .ok (selectTokens t))
    (selectsAll : scan whole = .ok (wholeTokens t none))
    (nonempty : columns ≠ []) (count : columns.length = values.length)
    (fits : ∀ v ∈ values, Ordered v ∧ depth v ≤ 125) (writable : w.directory.Writable t)
    (fresh : ∀ entry ∈ w.directory.tableEntries t, identifierText? entry ≠ some (nextId s w)) :
    ∃ row w', w.run (execute s insert values) = (.ok (.effect (some (nextId s w)) 1), w') ∧
      KeysAscend row ∧
      (∀ key v, Members.get? key row = some v ↔ Record.NewField (nextId s w)
        (w.clock w.readings).stamp ((columns.map Column.name).zip values) key v) ∧
      w'.directory.tableEntries t =
        rereadEntries (w.directory.tableEntries t ++ [.object row]) ∧
      (w'.directory.tableEntries t = w.directory.tableEntries t ++ [.object row] ↔
        ∀ v ∈ w.directory.tableEntries t ++ [.object row], Settled v) ∧
      ((∀ v ∈ w.directory.tableEntries t ++ [.object row], Settled v) →
        ∃ rows, w'.run (execute s select [.text (nextId s w)]) = (.ok (.rows [row]), w') ∧
          w.run (execute s whole []) = (.ok (.rows rows), w) ∧
          w'.run (execute s whole []) = (.ok (.rows (rows ++ [row])), w')) := by
  have fields : ∀ key v, Members.get? key (insertedRow s w columns values) = some v ↔
      Record.NewField (nextId s w) (w.clock w.readings).stamp
        ((columns.map Column.name).zip values) key v := fun _ _ => Record.get?_newRecord_iff
  have has := (fields _ _).mpr .id
  have ascend : KeysAscend (insertedRow s w columns values) := by
    have single : KeysAscend [(Record.idKey, Json.text (nextId s w))] :=
      List.pairwise_singleton _ _
    exact single.setAll _
  obtain ⟨w', inserted, roomy, read⟩ := run_insertion s w t inserts nonempty count fits writable
  have kept : w'.directory.tableEntries t =
      w.directory.tableEntries t ++ [.object (insertedRow s w columns values)] ↔
        ∀ v ∈ w.directory.tableEntries t ++ [.object (insertedRow s w columns values)],
          Settled v := by
    rw [read, rereadEntries_eq_iff, storable_iff]
    exact and_iff_right roomy
  refine ⟨_, w', inserted, ascend, fields, read, kept, fun settled => ?_⟩
  have added := kept.mpr settled
  refine ⟨w.directory.records t, ?_, run_whole selectsAll [], ?_⟩
  · rw [run_execute (parse_selectTokens selects _), ← rows_byId_added fresh has added]
    rfl
  · rw [run_whole selectsAll [], sortRows, Directory.records_added added]

end Insertion

/-- A column named twice and two that the store owns, behind entries with odd identifiers. -/
theorem inserted_row_selected_repeated :
    let columns : List Column :=
      [⟨'"', "title"⟩, ⟨'"', "id"⟩, ⟨'\x60', "title"⟩, ⟨'\x60', "created_at"⟩]
    let values : List Json := [.text "a", .text "7", .array [.text "b"], .null]
    let insert := "INSERT INTO pages (\"title\", \"id\", `title`, `created_at`) VALUES (?, ?, ?, ?)"
    let select := "SELECT * FROM pages WHERE id = ?"
    let whole := "SELECT * FROM pages"
    let file := "[\x7b\"id\":7\x7d,null,\x7b\"id\":null\x7d]".toUTF8
    let s : Store := ⟨"data", .default⟩
    let w : World :=
      ⟨Directory.empty.set Table.pages.fileName (.file file), fun _ => ⟨0, 0⟩, 0, fun _ => 0, 0⟩
    scan insert = .ok (insertTokens .pages columns) ∧ scan select = .ok (selectTokens .pages) ∧
      scan whole = .ok (wholeTokens .pages none) ∧ (∀ v ∈ values, Ordered v ∧ depth v ≤ 125) ∧
      w.directory.Writable .pages ∧
      (∀ entry ∈ w.directory.tableEntries .pages, identifierText? entry ≠ some (nextId s w)) ∧
      ∃ row w', w.run (execute s insert values) = (.ok (.effect (some (nextId s w)) 1), w') ∧
        w'.run (execute s select [.text (nextId s w)]) = (.ok (.rows [row]), w') ∧
        Members.get? "title" row = some (.array [.text "b"]) := by
  intro columns values insert select whole file s w
  have inserts : scan insert = .ok (insertTokens .pages columns) := by decide +kernel
  have selects : scan select = .ok (selectTokens .pages) := by decide +kernel
  have selectsAll : scan whole = .ok (wholeTokens .pages none) := by decide +kernel
  have fits : ∀ v ∈ values, Ordered v ∧ depth v ≤ 125 := by
    simp only [values, List.forall_mem_cons]
    exact ⟨⟨trivial, by decide⟩, ⟨trivial, by decide⟩, ⟨⟨trivial, trivial⟩, by decide⟩,
      ⟨trivial, by decide⟩, nofun⟩
  have writable : w.directory.Writable .pages := by
    rw [Directory.Writable, Directory.find?_set, if_pos rfl]
    exact nofun
  have fresh : ∀ entry ∈ w.directory.tableEntries .pages,
      identifierText? entry ≠ some (nextId s w) := by decide +kernel
  have title : Record.LastGiven ((columns.map Column.name).zip values) "title"
      (.array [.text "b"]) := ⟨[("title", .text "a"), ("id", .text "7")],
        [("created_at", .null)], rfl, by decide⟩
  obtain ⟨row, w', inserted, ascend, fields, -, -, selected⟩ := inserted_row_selected s w .pages
    inserts selects selectsAll (List.cons_ne_nil _ _) rfl fits writable fresh
  have settled : ∀ v ∈ w.directory.tableEntries .pages ++ [.object row], Settled v := by
    refine List.forall_mem_append.mpr ⟨by decide +kernel, List.forall_mem_singleton.mpr ?_⟩
    exact settled_of_newField ascend (fun key v => (fields key v).mp) (by decide)
  obtain ⟨-, selected, -⟩ := selected settled
  exact ⟨inserts, selects, selectsAll, fits, writable, fresh, row, w', inserted, selected,
    (fields _ _).mpr (.given (by decide) title)⟩

/-- A number is inserted and another one is selected. -/
theorem inserted_number_differs :
    let given : Json := .number (.double ⟨false, 4247835366853742247⟩ (by decide))
    let select := "SELECT * FROM pages WHERE id = ?"
    let s : Store := ⟨"data", .default⟩
    let w : World := ⟨Directory.empty, fun _ => ⟨0, 0⟩, 0, fun _ => 0, 0⟩
    let inserted := w.run (execute s "INSERT INTO pages (\"x\") VALUES (?)" [given])
    given.toText = "1e-24" ∧ inserted.1.toOption.map Outcome.affectedRows = some 1 ∧
      ∃ rows, inserted.2.run (execute s select [.text (nextId s w)]) =
          (.ok (.rows rows), inserted.2) ∧
        rows.map (fun row => (Members.get? "x" row).map Json.toText) =
          [some "1.0000000000000001e-24"] := by
  intro given select s w inserted
  have selects : scan select = .ok (selectTokens .pages) := by decide +kernel
  refine ⟨by decide +kernel, by decide +kernel,
    (byId .pages (.text (nextId s w))).rows inserted.2.directory, ?_, by decide +kernel⟩
  rw [run_execute (parse_selectTokens selects _)]
  rfl

end Sql

end ContentStore
