import ContentStore.Proofs.Sql.Scanning
import ContentStore.Proofs.Sql.Window
/-!
# Pages of records

The pages of a list hold its records in order, each of them once; all pages but the last are full,
and those behind the last are empty (`PagesOf`).  This needs the start of a page only up to the
greatest count of 64 bits, where it is cut off: a list that can be counted has no record behind
that (`items_paginate`).  A selection with the counts of a page as its window gives the records of
this page (`pages_divide_records`).
-/

namespace ContentStore

/-- Pages with a limit, by their numbers, divide a list of records. -/
structure PagesOf (records : List Record) (limit : Nat) (pages : Nat → Page) : Prop where
  /-- Every page tells the number of all records. -/
  total : ∀ n, (pages n).total = records.length
  /-- Every page tells the same number of pages. -/
  count : ∀ n, (pages n).totalPages = (pages 1).totalPages
  zeroth : pages 0 = pages 1
  /-- One after the other the pages give the records. -/
  joined : 0 < limit →
    ((List.range (pages 1).totalPages).flatMap fun i => (pages (i + 1)).items) = records
  full : ∀ n, 0 < n → n < (pages 1).totalPages → (pages n).items.length = limit
  last : 0 < (pages 1).totalPages → (pages (pages 1).totalPages).items ≠ []
  beyond : ∀ n, (pages 1).totalPages < n → (pages n).items = []
  /-- With the limit zero no page has a record, and there is none. -/
  unlimited : limit = 0 → (pages 1).totalPages = 0 ∧ ∀ n, (pages n).items = []

/-! ## One page -/

/-- Where the start of a page is cut off no record is left. -/
theorem items_paginate {records : List Record} (countable : records.length ≤ maxCount)
    (page limit : Nat) :
    (paginate records page limit).items = (records.drop ((page - 1) * limit)).take limit := by
  unfold paginate
  dsimp only
  split
  · next zero => rw [zero, List.take_zero]
  · have number : max page 1 - 1 = page - 1 := by omega
    dsimp only
    rw [number]
    rcases Nat.le_total ((page - 1) * limit) maxCount with within | beyond
    · rw [Nat.min_eq_left within]
    · rw [Nat.min_eq_right beyond, List.drop_of_length_le countable,
        List.drop_of_length_le (countable.trans beyond)]

theorem totalPages_paginate (records : List Record) (page limit : Nat) :
    (paginate records page limit).totalPages = (records.length + limit - 1) / limit := by
  unfold paginate
  dsimp only
  split
  · next zero => rw [zero, Nat.div_zero]
  · rfl

/-- The pages before a number reach every record exactly if it is at least the number of pages. -/
theorem lt_pages_iff {limit : Nat} (positive : 0 < limit) (i total : Nat) :
    i < (total + limit - 1) / limit ↔ i * limit < total := by
  rw [Nat.lt_iff_add_one_le, Nat.le_div_iff_mul_le positive, Nat.succ_mul]
  omega

/-- The first blocks of a list, one after the other, are its first items. -/
theorem flatMap_blocks {α : Type} (items : List α) (size count : Nat) :
    ((List.range count).flatMap fun i => (items.drop (i * size)).take size) =
      items.take (count * size) := by
  induction count with
  | zero => rw [Nat.zero_mul, List.take_zero]; rfl
  | succ count ih =>
    rw [List.range_succ, List.flatMap_append, ih, List.flatMap_singleton, Nat.succ_mul,
      List.take_add]

theorem pagesOf_paginate {records : List Record} (countable : records.length ≤ maxCount)
    (limit : Nat) : PagesOf records limit fun page => paginate records page limit := by
  have length : ∀ page, (paginate records page limit).items.length =
      min limit (records.length - (page - 1) * limit) := by
    intro page
    rw [items_paginate countable, List.length_take, List.length_drop]
  constructor
  case total =>
    intro n
    unfold paginate
    dsimp only
    split <;> rfl
  case count =>
    intro n
    rw [totalPages_paginate, totalPages_paginate]
  case zeroth => rfl
  case joined =>
    intro positive
    have blocks : ∀ i, (paginate records (i + 1) limit).items =
        (records.drop (i * limit)).take limit := fun i => items_paginate countable (i + 1) limit
    have reached : records.length ≤ (paginate records 1 limit).totalPages * limit := by
      have notBefore := (lt_pages_iff positive (paginate records 1 limit).totalPages
        records.length).not.mp (by rw [totalPages_paginate]; exact Nat.lt_irrefl _)
      exact Nat.le_of_not_lt notBefore
    simp only [blocks]
    rw [flatMap_blocks, List.take_of_length_le reached]
  case full =>
    intro n first before
    have positive : 0 < limit := Nat.pos_of_ne_zero fun zero => by
      rw [totalPages_paginate, zero, Nat.div_zero] at before
      exact Nat.not_lt_zero n before
    have next := (lt_pages_iff positive n records.length).mp (totalPages_paginate _ 1 _ ▸ before)
    obtain ⟨i, rfl⟩ : ∃ i, n = i + 1 := ⟨n - 1, by omega⟩
    rw [Nat.succ_mul] at next
    rw [length, Nat.add_sub_cancel]
    omega
  case last =>
    intro some
    have positive : 0 < limit := Nat.pos_of_ne_zero fun zero => by
      rw [totalPages_paginate, zero, Nat.div_zero] at some
      exact Nat.lt_irrefl 0 some
    have begins := (lt_pages_iff positive ((paginate records 1 limit).totalPages - 1)
      records.length).mp (by rw [totalPages_paginate] at some ⊢; omega)
    rw [← List.length_pos_iff, length]
    omega
  case beyond =>
    intro n behind
    rw [← List.length_eq_zero_iff, length]
    rcases Nat.eq_zero_or_pos limit with rfl | positive
    · exact Nat.zero_min _
    have begins := (lt_pages_iff positive (n - 1) records.length).not.mp
      (by rw [totalPages_paginate] at behind; omega)
    omega
  case unlimited =>
    rintro rfl
    exact ⟨rfl, fun n => rfl⟩

/-! ## The window of a page -/

namespace Sql

/-- The selection of some records of a table from a start on. -/
def windowOf (t : Table) (limit start : Nat) : Select := ⟨t, [], none, some limit, some start⟩

/-- A star for the projection, and each count with its own keyword. -/
def starSpelling : Spelling := ⟨[.operator "*"], '"', none, false⟩

/-- The text of a selection of some records of a table from a start on. -/
def windowText (t : Table) (limit start : Nat) : String :=
  Token.render ((Statement.select (windowOf t limit start)).tokens starSpelling)

example : windowText .pages 10 20 = "SELECT * FROM pages LIMIT 10 OFFSET 20" := by decide +kernel

theorem scan_windowText (t : Table) (limit start : Nat) :
    scan (windowText t limit start) =
      .ok ((Statement.select (windowOf t limit start)).tokens starSpelling) := by
  have tokens : (Statement.select (windowOf t limit start)).tokens starSpelling =
      [keyword "SELECT", .operator "*", keyword "FROM", keyword t.name, keyword "LIMIT",
        countToken limit, keyword "OFFSET", countToken start] := rfl
  refine scan_render ?_
  rw [tokens]
  simp only [List.forall_mem_cons, List.not_mem_nil, false_implies, implies_true, and_true]
  exact ⟨isRead_keyword (by decide +kernel), isRead_star, isRead_keyword (by decide +kernel),
    isRead_table t, isRead_keyword (by decide +kernel), isRead_countToken limit,
    isRead_keyword (by decide +kernel), isRead_countToken start⟩

theorem parse_windowText (t : Table) {limit start : Nat} (limitFits : limit ≤ maxCount)
    (startFits : start ≤ maxCount) (params : List Json) :
    parse (windowText t limit start) params = .ok (.select (windowOf t limit start)) := by
  have fits : ∀ n, n ≤ maxCount → n < UInt64.size := fun n le => Nat.lt_of_le_of_lt le (by decide)
  have expressible : (Statement.select (windowOf t limit start)).Expressible :=
    ⟨.known .null .null (List.nil_sublist _), fun n same => Option.some.inj same ▸ fits _ limitFits,
      fun n same => Option.some.inj same ▸ fits _ startFits⟩
  have projects : Projects 0 starSpelling.projection := by decide
  rw [parse_scanned _ (scan_windowText t limit start), dropSemicolons_tokens, Statement.tokens,
    run'_verb _ (by decide), if_pos rfl]
  exact run'_select starSpelling expressible projects (List.nil_prefix)

theorem rows_windowOf (t : Table) (limit start : Nat) (d : Directory) :
    (windowOf t limit start).rows d = ((d.records t).drop start).take limit :=
  congrArg (window (some start) (some limit)) (List.filter_true (d.records t))

end Sql

/-- The pages of a list divide it.  A selection of as many records as a page holds, from the start
of the page on, gives the records of this page, wherever 64 bits hold both counts. -/
theorem pages_divide_records {records : List Record} (countable : records.length ≤ maxCount)
    (limit : Nat) :
    (PagesOf records limit fun page => paginate records page limit) ∧
      ∀ (s : Store) (w : World) (t : Table), w.directory.records t = records → limit ≤ maxCount →
        ∀ page, (page - 1) * limit ≤ maxCount → ∀ params,
          w.run (Sql.execute s (Sql.windowText t limit ((page - 1) * limit)) params) =
            (.ok (.rows (paginate records page limit).items), w) := by
  refine ⟨pagesOf_paginate countable limit, fun s w t holds fits page start params => ?_⟩
  rw [Sql.run_execute (Sql.parse_windowText t fits start params), items_paginate countable,
    ← holds, ← Sql.rows_windowOf]
  rfl

/-- Three records and pages of two. -/
theorem pages_divide_records_three :
    let a : Record := [("id", .text "a")]
    let b : Record := [("id", .text "b")]
    let c : Record := [("id", .text "c")]
    let d := Directory.empty.set Table.pages.fileName
      (.file "[\x7b\"id\":\"a\"\x7d,\x7b\"id\":\"b\"\x7d,\x7b\"id\":\"c\"\x7d]".toUTF8)
    let s : Store := ⟨"data", .default⟩
    let w : World := ⟨d, fun _ => ⟨0, 0⟩, 0, fun _ => 0, 0⟩
    (paginate [a, b, c] 1 2).items.length = 2 ∧ (paginate [a, b, c] 3 2).items = [] ∧
      w.run (Sql.execute s "SELECT * FROM pages LIMIT 2 OFFSET 2" []) = (.ok (.rows [c]), w) := by
  intro a b c d s w
  have holds : w.directory.records .pages = [a, b, c] := by rfl
  have countable : [a, b, c].length ≤ maxCount := by decide
  obtain ⟨divides, selects⟩ := pages_divide_records countable 2
  have text : Sql.windowText .pages 2 2 = "SELECT * FROM pages LIMIT 2 OFFSET 2" := by
    decide +kernel
  have rows := selects s w .pages holds (by decide) 2 (by decide) []
  rw [text] at rows
  exact ⟨divides.full 1 Nat.one_pos (by decide), divides.beyond 3 (by decide), rows⟩

end ContentStore
