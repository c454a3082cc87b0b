import ContentStore.Proofs.Json.LooseEquality
import ContentStore.Proofs.Sql.Effect
import ContentStore.Proofs.Sql.Rendered
import ContentStore.Proofs.Store.FirstEntry
/-!
# What an identifier names

A selection compares an identifier with a value loosely, a change and a deletion compare its scalar
text with the scalar text of the value.  The two come to the same except where values match loosely
without having the same text (`looseEq_cases`): a truth value and its number, the two zeros of the
doubles, and null, arrays and objects, which have no text and name no record.  So a change and a
deletion touch the first row of the selection that has the text of the value, which is its first row
wherever this one does not match in spite of another text (`named_rows_agree`).
-/

namespace ContentStore

namespace Sql

/-! ## The rows of a selection by identifier -/

/-- The selection of the records whose identifier matches a value. -/
def byId (t : Table) (p : Json) : Select := ⟨t, [.id p], none, none, none⟩

/-- A selection with one filter and nothing else gives the records that pass it. -/
theorem rows_filter (t : Table) (f : Filter) (d : Directory) :
    (Select.mk t [f] none none none).rows d = (d.records t).filter f.passes := by
  have test : (fun r => [f].all fun f => f.passes r) = f.passes := by
    funext r
    exact Bool.and_true _
  have whole : (Select.mk t [f] none none none).rows d =
      ((d.records t).filter fun r => [f].all fun f => f.passes r) := rfl
  rw [whole, test]

theorem rows_byId (t : Table) (p : Json) (d : Directory) :
    (byId t p).rows d = (d.records t).filter (Record.matchesField Record.idKey p) :=
  rows_filter t (.id p) d

/-- The first record that passes a test stands behind entries that do not pass it. -/
theorem exists_split_of_filter {test : Record → Bool} {items : List Json} {first : Record}
    {others : List Record} (passes : (items.filterMap recordOf?).filter test = first :: others) :
    test first = true ∧ ∃ front back, items = front ++ .object first :: back ∧
      ∀ r, Json.object r ∈ front → test r = false := by
  rw [List.filter_filterMap, List.filterMap_eq_cons_iff] at passes
  obtain ⟨front, entry, back, rfl, before, here, -⟩ := passes
  obtain ⟨isRecord, passes⟩ := Option.filter_eq_some_iff.mp here
  obtain rfl := recordOf?_eq_some isRecord
  refine ⟨passes, front, back, rfl, fun r mem => ?_⟩
  have fails : (some r).filter test = none := before _ mem
  exact Bool.eq_false_iff.mpr (Option.filter_eq_none_iff.mp fails r rfl)

/-! ## The three statements by identifier -/

/-- The tokens of a selection by identifier. -/
def selectTokens (t : Table) : List Token :=
  [keyword "SELECT", .operator "*", keyword "FROM", keyword t.name, keyword "WHERE", keyword "id",
    .equal, slot]

/-- The tokens of a change of one field by identifier. -/
def changeTokens (t : Table) (quote : Option Char) (field : String) : List Token :=
  [keyword "UPDATE", keyword t.name, keyword "SET", .word quote field, .equal, slot,
    keyword "WHERE", keyword "id", .equal, slot]

/-- The tokens of a deletion by identifier. -/
def deleteTokens (t : Table) : List Token :=
  [keyword "DELETE", keyword "FROM", keyword t.name, keyword "WHERE", keyword "id", .equal, slot]

section Parse

variable {text : String} {t : Table}

theorem parse_selectTokens (scans : scan text = .ok (selectTokens t)) (p : Json) :
    parse text [p] = .ok (.select (byId t p)) := by
  rw [parse_scanned _ scans]
  cases t <;> rfl

theorem parse_changeTokens {quote : Option Char} {field : String}
    (scans : scan text = .ok (changeTokens t quote field)) (v p : Json) :
    parse text [v, p] = .ok (.update t p [⟨field, .value v⟩]) := by
  rw [parse_scanned _ scans]
  cases t <;> rfl

theorem parse_deleteTokens (scans : scan text = .ok (deleteTokens t)) (p : Json) :
    parse text [p] = .ok (.delete t p) := by
  rw [parse_scanned _ scans]
  cases t <;> rfl

end Parse

section Run

variable {w w' : World} {t : Table} {p : Json} {key : String}

theorem run_execute {s : Store} {text : String} {params : List Json} {st : Statement}
    (reads : parse text params = .ok st) : w.run (execute s text params) = w.run (run s st) := by
  rw [execute, reads]
  exact World.run_bind_ok _ rfl

/-- A change by a value with a scalar text changes the first entry with this identifier. -/
theorem run_change {s : Store} {found : Option Record} (field : String) (v : Json)
    (named : p.scalarText? = some key)
    (updates : w.run (s.update t key [(field, v)]) = (.ok found, w')) :
    w.run (run s (.update t p [⟨field, .value v⟩])) = (.ok (touched found.isSome), w') := by
  have fields : w.run (resolve [⟨field, .value v⟩]) = (.ok [(field, v)], w) := rfl
  rw [run, named]
  dsimp only
  rw [World.run_bind_ok _ fields, World.run_bind_ok _ updates]
  rfl

/-- A deletion by a value with a scalar text removes the first entry with this identifier. -/
theorem run_deletion {s : Store} {hit : Bool} (named : p.scalarText? = some key)
    (deletes : w.run (s.delete t key) = (.ok hit, w')) :
    w.run (run s (.delete t p)) = (.ok (touched hit), w') := by
  rw [run, named]
  dsimp only
  rw [World.run_bind_ok _ deletes]
  rfl

/-- A value without a scalar text names no record. -/
theorem run_unnamed (s : Store) (unnamed : p.scalarText? = none) (changes : List Assignment) :
    w.run (run s (.update t p changes)) = (.ok (touched false), w) ∧
      w.run (run s (.delete t p)) = (.ok (touched false), w) := by
  rw [run, run, unnamed]
  exact ⟨rfl, rfl⟩

end Run

/-- A record whose identifier has the text of a value matches it. -/
theorem matchesField_of_text {p : Json} {key : String} {r : Record}
    (named : p.scalarText? = some key) (has : identifierText? (.object r) = some key) :
    Record.matchesField Record.idKey p r = true := by
  obtain ⟨v, held, text⟩ := Option.bind_eq_some_iff.mp has
  rw [Record.matchesField, show Json.Members.get? Record.idKey r = some v from held]
  exact Json.looseEq_of_scalarText text named

/-- Where the first row of a selection has the text of the value, it is the first entry with it. -/
theorem firstWith_of_rows {t : Table} {p : Json} {key : String} {d : Directory} {first : Record}
    {others : List Record} {id : Json} (named : p.scalarText? = some key)
    (rows : (byId t p).rows d = first :: others)
    (has : Json.Members.get? Record.idKey first = some id) (plain : ¬id.OtherText p) :
    ∃ front back, FirstWith key (d.tableEntries t) front first back ∧
      ∀ r, Json.object r ∈ front → Record.matchesField Record.idKey p r = false := by
  rw [rows_byId] at rows
  obtain ⟨passes, front, back, split, before⟩ := exists_split_of_filter rows
  rw [Record.matchesField, has] at passes
  have text : id.scalarText? = some key := (Json.looseEq_cases passes named).resolve_right plain
  refine ⟨front, back, ⟨split, ?_, fun entry mem here => ?_⟩, before⟩
  · rw [identifierText?, Json.member?, has]
    exact text
  · obtain ⟨r, rfl⟩ := exists_object here
    exact absurd (matchesField_of_text named here) (Bool.eq_false_iff.mp (before r mem))

/-- The first entry with the text of a value is the first row with this text in the selection by the
value. -/
theorem find?_rows_of_firstWith {t : Table} {p : Json} {key : String} {d : Directory}
    {front back : List Json} {old : Record} (named : p.scalarText? = some key)
    (found : FirstWith key (d.tableEntries t) front old back) :
    ((byId t p).rows d).find? (fun r => identifierText? (.object r) = some key) = some old := by
  have before : ∀ r ∈ (front.filterMap recordOf?).filter (Record.matchesField Record.idKey p),
      ¬identifierText? (.object r) = some key := by
    intro r mem
    obtain ⟨entry, inFront, isRecord⟩ := List.mem_filterMap.mp (List.mem_filter.mp mem).1
    exact recordOf?_eq_some isRecord ▸ found.first entry inFront
  rw [rows_byId, Directory.records, found.split, List.filterMap_append, List.filter_append,
    List.find?_append, List.find?_eq_none.mpr fun r mem => by simpa using before r mem,
    Option.none_or, List.filterMap_cons_some (show recordOf? (.object old) = some old from rfl),
    List.filter_cons_of_pos (matchesField_of_text named found.has)]
  exact List.find?_cons_of_pos (decide_eq_true found.has)

/-- A change and a deletion by identifier touch a record both or neither, and only where the
selection gives a row; a value without a scalar text names no record.  What they touch, in its
place, is the first row of the selection with the text of the value, and so the first row of all
where this one does not match in spite of another text. -/
theorem named_rows_agree (s : Store) (w : World) (t : Table) {quote : Option Char} {field : String}
    (p v : Json) {select change delete : String} (selects : scan select = .ok (selectTokens t))
    (changes : scan change = .ok (changeTokens t quote field))
    (deletes : scan delete = .ok (deleteTokens t)) :
    ∃ rows hit changed deleted,
      w.run (execute s select [p]) = (.ok (.rows rows), w) ∧
      w.run (execute s change [v, p]) = (.ok (touched hit), changed) ∧
      w.run (execute s delete [p]) = (.ok (touched hit), deleted) ∧
      (hit = true → rows ≠ []) ∧
      (hit = false → changed.directory = w.directory ∧ deleted.directory = w.directory) ∧
      (p.scalarText? = none → hit = false) ∧
      (hit = true → ∃ key front first back, p.scalarText? = some key ∧
        FirstWith key (w.directory.tableEntries t) front first back ∧
        rows.find? (fun r => identifierText? (.object r) = some key) = some first ∧
        w.directory.writeTable s.config t
          (front ++ .object (Store.changed (w.clock w.readings) first [(field, v)]) :: back) =
            .ok changed.directory ∧
        w.directory.writeTable s.config t (front ++ back) = .ok deleted.directory) ∧
      ∀ first others id, rows = first :: others →
        Json.Members.get? Record.idKey first = some id → p.scalarText?.isSome = true →
        ¬id.OtherText p → hit = true ∧ ∃ front back,
          w.directory.tableEntries t = front ++ .object first :: back ∧
          (∀ r, Json.object r ∈ front → Record.matchesField Record.idKey p r = false) ∧
          w.directory.writeTable s.config t
            (front ++ .object (Store.changed (w.clock w.readings) first [(field, v)]) :: back) =
              .ok changed.directory ∧
          w.directory.writeTable s.config t (front ++ back) = .ok deleted.directory := by
  have given : w.run (execute s select [p]) = (.ok (.rows ((byId t p).rows w.directory)), w) := by
    rw [run_execute (parse_selectTokens selects p)]
    rfl
  rw [run_execute (parse_changeTokens changes v p), run_execute (parse_deleteTokens deletes p)]
  cases named : p.scalarText? with
  | none =>
    obtain ⟨updated, removed⟩ := run_unnamed (w := w) (t := t) s named [⟨field, .value v⟩]
    refine ⟨_, false, w, w, given, updated, removed, nofun, fun _ => ⟨rfl, rfl⟩, fun _ => rfl,
      nofun, ?_⟩
    intro first others id _ _ scalar
    cases scalar
  | some key =>
    by_cases absent : ∀ entry ∈ w.directory.tableEntries t, identifierText? entry ≠ some key
    · have updated := run_change field v named (w.run_update_absent s absent [(field, v)])
      have removed := run_deletion named (w.run_delete_absent s absent)
      refine ⟨_, false, w, w, given, updated, removed, nofun, fun _ => ⟨rfl, rfl⟩, nofun, nofun, ?_⟩
      intro first others id rows has _ plain
      obtain ⟨front, back, found, -⟩ := firstWith_of_rows named rows has plain
      have mem : Json.object first ∈ w.directory.tableEntries t :=
        found.split ▸ List.mem_append_right _ List.mem_cons_self
      exact absurd found.has (absent _ mem)
    · obtain ⟨entry, mem, has⟩ : ∃ entry ∈ w.directory.tableEntries t,
          identifierText? entry = some key := by
        simpa only [not_forall, not_not, exists_prop] using absent
      obtain ⟨front, old, back, found⟩ := exists_firstWith mem has
      obtain ⟨d₁, written, changes⟩ := w.run_update_first s found [(field, v)]
      obtain ⟨d₂, erased, deletes⟩ := w.run_delete_first s found
      have row := find?_rows_of_firstWith named found
      refine ⟨_, true, _, _, given, run_change field v named changes, run_deletion named deletes,
        fun _ => List.ne_nil_of_mem (List.mem_of_find?_eq_some row), nofun, nofun,
        fun _ => ⟨key, front, old, back, rfl, found, row, written, erased⟩, ?_⟩
      intro first others id rows has _ plain
      obtain ⟨front', back', found', before⟩ := firstWith_of_rows named rows has plain
      obtain ⟨rfl, rfl, rfl⟩ := found.unique found'
      exact ⟨rfl, front, back, found.split, before, written, erased⟩

/-- The first of two records with the same text of their identifiers, one a number. -/
theorem named_rows_agree_seven :
    let seven : Json := .number (.integer 7 (by decide))
    let items : List Json :=
      [.object [("id", .text "a")], .object [("id", seven)], .object [("id", .text "7")]]
    let d := Directory.empty.set Table.pages.fileName (.file (bytesOfEntries .oneLine items))
    let s : Store := ⟨"data", .default⟩
    let w : World := ⟨d, fun _ => ⟨0, 0⟩, 0, fun _ => 0, 0⟩
    let select := "SELECT * FROM pages WHERE id = ?"
    let change := "UPDATE pages SET title = ? WHERE id = ?"
    let delete := "DELETE FROM pages WHERE id = ?"
    scan select = .ok (selectTokens .pages) ∧
      scan change = .ok (changeTokens .pages none "title") ∧
      scan delete = .ok (deleteTokens .pages) ∧
      (w.run (execute s change [.null, .text "7"])).1 = .ok (touched true) ∧
      (w.run (execute s delete [.text "7"])).1 = .ok (touched true) := by
  intro seven items d s w select change delete
  have selects : scan select = .ok (selectTokens .pages) := by decide +kernel
  have changes : scan change = .ok (changeTokens .pages none "title") := by decide +kernel
  have deletes : scan delete = .ok (deleteTokens .pages) := by decide +kernel
  have entries : d.tableEntries .pages = items := by
    have one : ∀ v : Json, Json.Ordered v → Json.Ordered (.object [("id", v)]) :=
      fun v ordered => ⟨List.pairwise_singleton _ _, ordered, trivial⟩
    have ordered : OrderedEntries items := List.forall_mem_cons.mpr ⟨one _ trivial,
      List.forall_mem_cons.mpr ⟨one _ trivial, List.forall_mem_singleton.mpr (one _ trivial)⟩⟩
    rw [Directory.tableEntries, Directory.find?_set, if_pos rfl]
    exact (entriesOfBytes_bytesOfEntries _ ordered).trans
      (rereadEntries_of_storable (by decide +kernel))
  have rows : (byId .pages (.text "7")).rows d = [[("id", seven)], [("id", .text "7")]] := by
    rw [rows_byId, Directory.records, entries]
    rfl
  have selected : w.run (execute s select [.text "7"]) =
      (.ok (.rows [[("id", seven)], [("id", .text "7")]]), w) := by
    rw [run_execute (parse_selectTokens selects _), ← rows]
    rfl
  obtain ⟨found, hit, changed, deleted, given, updated, removed, -, -, -, -, first⟩ :=
    named_rows_agree s w .pages (.text "7") .null selects changes deletes
  cases selected.symm.trans given
  have plain : ¬Json.OtherText (.number (.integer 7 (by decide))) (.text "7") := by rintro ⟨⟩
  obtain ⟨rfl, -⟩ := first _ _ seven rfl rfl rfl plain
  exact ⟨selects, changes, deletes, congrArg Prod.fst updated, congrArg Prod.fst removed⟩

/-- A record without an identifier's text is selected, but neither changed nor deleted. -/
theorem selected_not_named :
    let d := Directory.empty.set Table.pages.fileName
      (.file "[\x7b\"id\":null\x7d,\x7b\"id\":true\x7d,\x7b\"id\":0.0\x7d]".toUTF8)
    let s : Store := ⟨"data", .default⟩
    let w : World := ⟨d, fun _ => ⟨0, 0⟩, 0, fun _ => 0, 0⟩
    let select := execute s "SELECT * FROM pages WHERE id = ?"
    let change := execute s "UPDATE pages SET title = ? WHERE id = ?"
    let delete := execute s "DELETE FROM pages WHERE id = ?"
    let given (o : Outcome) : Nat := match o with
      | .rows rows => rows.length
      | .effect _ n => n
    ∀ p ∈ [.null, .ofNat 1, .number (.double ⟨true, 0⟩ (by decide))],
      (w.run (select [p])).1.toOption.map given = some 1 ∧
        (w.run (change [.null, p])).1.toOption.map given = some 0 ∧
        (w.run (delete [p])).1.toOption.map given = some 0 := by
  decide +kernel

end Sql

end ContentStore
