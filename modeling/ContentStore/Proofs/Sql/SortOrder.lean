import ContentStore.Proofs.Binary64.NumericText
import ContentStore.Proofs.Sql.Window
/-!
# The order of rows by number

The rows of `ORDER BY sort_order` should stand in the order of the numbers of this field, rows of
one number as they stand in the table.  The field has an exact number (`number`), but the rows are
placed by doubles, in an order in which minus zero stands before zero and what is not a number
before or behind all others.  Where that matters two records are `Misplaced`, and the rows stand as
they should exactly if the table holds no two such records (`sorted_by_number_iff`).
-/

namespace ContentStore

open Binary64 (TotalLe)

/-- The number of a value, or of no value: a number is its own, a numeric text has the one that it
denotes, blanks at its ends aside, true has one, and everything else has zero. -/
def Json.exactNumber : Option Json → ExtendedRat
  | some (.number (.integer i _)) => .signed false i
  | some (.number (.double x _)) => x.value
  | some (.text s) => (ExtendedRat.ofText? (Text.trim s.toList)).getD 0
  | some (.bool true) => 1
  | _ => 0

theorem Json.standsFor_numeric (v : Option Json) : (numeric v).StandsFor (exactNumber v) := by
  have none : (Binary64.zero).StandsFor 0 := .nearest Binary64.nearest_zero
  match v with
  | some (.number (.integer i _)) => exact .nearest (Binary64.nearest_ofInt i)
  | some (.number (.double x finite)) => exact .nearest (Binary64.nearest_value finite)
  | some (.text s) => exact Binary64.standsFor_ofText? _
  | some (.bool true) => exact .nearest (Binary64.nearest_ofInt 1)
  | some (.bool false) | some .null | some (.array _) | some (.object _) | Option.none => exact none

namespace Sql

/-- The number by which the rows are to be sorted. -/
def number (r : Record) : ExtendedRat := Json.exactNumber (Json.Members.get? "sort_order" r)

theorem standsFor_sortNumber (r : Record) : (sortNumber r).StandsFor (number r) :=
  Json.standsFor_numeric _

/-- Two records of which the first stands before the second in the table, and whose rows do not
stand as their numbers ask. -/
inductive Misplaced (a b : Record) : Prop
  /-- The second number is smaller, but both are rounded to one double. -/
  | rounded (less : number b < number a) (same : sortNumber a = sortNumber b)
  /-- Both numbers are zero, and only the second one is written with a sign. -/
  | zeros (zero : number a = 0) (zero' : number b = 0) (plain : sortNumber a = .zero)
    (signed : sortNumber b = ⟨true, 0⟩)
  /-- The first is not a number, which counts as zero but stands behind every number. -/
  | firstBehind (here : sortNumber a = .notANumber false) (other : sortNumber b ≠ .notANumber false)
    (atLeast : 0 ≤ number b)
  /-- The first is not a number under a sign, which counts as zero but stands before every
  number. -/
  | firstBefore (here : sortNumber a = .notANumber true) (less : number b < 0)
  /-- The second is not a number, which counts as zero but stands behind every number. -/
  | secondBehind (there : sortNumber b = .notANumber false) (greater : 0 < number a)
  /-- The second is not a number under a sign, which counts as zero but stands before every
  number. -/
  | secondBefore (there : sortNumber b = .notANumber true) (other : sortNumber a ≠ .notANumber true)
    (atMost : number a ≤ 0)

theorem misplaced_iff (a b : Record) :
    Misplaced a b ↔ ¬(number a ≤ number b ↔ TotalLe (sortNumber a) (sortNumber b)) := by
  have standsA := standsFor_sortNumber a
  have standsB := standsFor_sortNumber b
  have antisymm : ∀ {x y}, TotalLe x y → TotalLe y x → x = y := Std.Antisymm.antisymm _ _
  have refl : ∀ x, TotalLe x x := fun x => or_self_iff.mp (Std.Total.total x x)
  constructor
  · intro misplaced agree
    cases misplaced with
    | rounded less same =>
      exact absurd (agree.mpr (same ▸ refl _)) less.not_ge
    | zeros zero zero' plain signed =>
      have ordered := agree.mp (zero.trans zero'.symm).le
      rw [plain, signed] at ordered
      cases ordered
    | firstBehind here other atLeast =>
      rw [here] at standsA agree
      rw [standsA.eq_zero] at agree
      exact other (antisymm standsB.le_notANumber (agree.mp atLeast))
    | firstBefore here less =>
      rw [here] at standsA agree
      rw [standsA.eq_zero] at agree
      exact absurd (agree.mpr standsB.notANumber_le) less.not_ge
    | secondBehind there greater =>
      rw [there] at standsB agree
      rw [standsB.eq_zero] at agree
      exact absurd (agree.mpr standsA.le_notANumber) greater.not_ge
    | secondBefore there other atMost =>
      rw [there] at standsB agree
      rw [standsB.eq_zero] at agree
      exact other (antisymm (agree.mp atMost) standsA.notANumber_le)
  · intro differ
    rcases standsA.cases with near | ⟨zero, _ | _, here⟩
    · rcases standsB.cases with near' | ⟨zero', _ | _, there⟩
      · rcases near.le_iff near' with agree | ⟨less, same⟩ | ⟨zero, zero', plain, signed⟩
        · exact absurd agree differ
        · exact .rounded less same
        · exact .zeros zero zero' plain signed
      · refine .secondBehind there (not_le.mp fun atMost => differ ?_)
        exact iff_of_true (atMost.trans zero'.ge) (there ▸ standsA.le_notANumber)
      · have other : sortNumber a ≠ .notANumber true := near.ne_notANumber
        refine .secondBefore there other (not_lt.mp fun greater => differ ?_)
        refine iff_of_false (zero'.trans_lt greater).not_ge fun ordered => other ?_
        exact antisymm (there ▸ ordered) standsA.notANumber_le
    · have other : sortNumber b ≠ .notANumber false := by
        intro there
        have zero' := (there ▸ standsB).eq_zero
        exact differ (iff_of_true (zero.trans zero'.symm).le (here ▸ there ▸ refl _))
      refine .firstBehind here other (not_lt.mp fun less => differ ?_)
      refine iff_of_false (less.trans_eq zero.symm).not_ge fun ordered => other ?_
      exact antisymm standsB.le_notANumber (here ▸ ordered)
    · refine .firstBefore here (not_le.mp fun atLeast => differ ?_)
      exact iff_of_true (zero.trans_le atLeast) (here ▸ standsB.notANumber_le)

/-- Records sorted by their doubles are sorted by their numbers exactly if no two of them are
misplaced. -/
theorem stableSort_number_iff (records : List Record) :
    StableSort number (· ≤ ·) records (sortRows (some .sortOrder) records) ↔
      ∀ a b, [a, b].Sublist records → ¬Misplaced a b := by
  rw [(stableSort_sortOrder records).other_key_iff]
  refine forall₃_congr fun a b _ => ?_
  rw [misplaced_iff, not_not]

/-- The rows of a table by `sort_order` stand in the order of their numbers, those of one number as
in the table, exactly if no two records of the table are misplaced. -/
theorem sorted_by_number_iff (s : Store) (w : World) {text : String} {t : Table}
    (scans : scan text = .ok (wholeTokens t (some .sortOrder))) (params : List Json) :
    ∃ rows, w.run (execute s text params) = (.ok (.rows rows), w) ∧
      (StableSort number (· ≤ ·) (w.directory.records t) rows ↔
        ∀ a b, [a, b].Sublist (w.directory.records t) → ¬Misplaced a b) :=
  ⟨_, run_whole scans params, stableSort_number_iff _⟩

/-- A table of menus with two records, of which the fields `sort_order` are given. -/
def twoMenus (first second : Json) : World :=
  ⟨Directory.empty.set Table.menus.fileName (.file (bytesOfEntries .oneLine
    [.object [("id", .text "a"), ("sort_order", first)],
      .object [("id", .text "b"), ("sort_order", second)]])), fun _ => ⟨0, 0⟩, 0, fun _ => 0, 0⟩

/-- A value without items or members that is read from its text as it is. -/
structure IsFlat (v : Json) : Prop where
  ordered : v.Ordered
  depth : v.depth = 0
  settled : v.Settled

theorem records_twoMenus {first second : Json} (flat : IsFlat first) (flat' : IsFlat second) :
    (twoMenus first second).directory.records .menus =
      [[("id", .text "a"), ("sort_order", first)],
        [("id", .text "b"), ("sort_order", second)]] := by
  have ascend : ∀ id v : Json, Json.KeysAscend [("id", id), ("sort_order", v)] := fun _ _ =>
    List.pairwise_pair.mpr (show "id" < "sort_order" by decide)
  have fits : ∀ (id : String) (v : Json), IsFlat v →
      Json.depth (.object [("id", .text id), ("sort_order", v)]) < Json.nestingLimit ∧
        Json.Settled (.object [("id", .text id), ("sort_order", v)]) := by
    intro id v flat
    refine ⟨?_, Json.settled_object_iff.mpr ?_⟩
    · have text : Json.depth (.text id) = 0 := rfl
      rw [Json.depth, Json.depthOfMembers, Json.depthOfMembers, Json.depthOfMembers, flat.depth,
        text]
      decide
    · exact List.forall_mem_cons.mpr ⟨rfl, List.forall_mem_singleton.mpr flat.settled⟩
  rw [Directory.records, twoMenus, Directory.tableEntries_set .oneLine, rereadEntries_of_storable]
  · rfl
  · exact List.forall_mem_cons.mpr ⟨fits _ _ flat, List.forall_mem_singleton.mpr (fits _ _ flat')⟩
  · exact List.forall_mem_cons.mpr ⟨⟨ascend _ _, trivial, flat.ordered, trivial⟩,
      List.forall_mem_singleton.mpr ⟨ascend _ _, trivial, flat'.ordered, trivial⟩⟩

/-- A number and a smaller one that is written as a text. -/
theorem sorted_by_number_iff_text :
    let w := twoMenus (.ofNat 2) (.text " 15e-1 ")
    let s : Store := ⟨"data", .default⟩
    let text := "SELECT * FROM menus ORDER BY sort_order"
    scan text = .ok (wholeTokens .menus (some .sortOrder)) ∧
      ∃ rows, w.run (execute s text []) = (.ok (.rows rows), w) ∧
        StableSort number (· ≤ ·) (w.directory.records .menus) rows := by
  intro w s text
  have scans : scan text = .ok (wholeTokens .menus (some .sortOrder)) := by decide +kernel
  refine ⟨scans, ?_⟩
  obtain ⟨rows, given, sorts⟩ := sorted_by_number_iff s w scans []
  refine ⟨rows, given, sorts.mpr fun a b before => ?_⟩
  have two : w.directory.records .menus = _ :=
    records_twoMenus ⟨trivial, rfl, Json.settled_integer _⟩ ⟨trivial, rfl, rfl⟩
  rw [two] at before
  cases before.eq_of_length rfl
  rw [misplaced_iff, not_not, ← Binary64.rank_le_iff]
  exact iff_of_false (by decide +kernel) (by decide +kernel)

/-- A table of two misplaced records does not come in the order of their numbers. -/
theorem not_sorted_of_misplaced {first second : Json} (flat : IsFlat first)
    (flat' : IsFlat second) (misplaced : Misplaced [("id", .text "a"), ("sort_order", first)]
      [("id", .text "b"), ("sort_order", second)]) :
    ¬StableSort number (· ≤ ·) ((twoMenus first second).directory.records .menus)
      (sortRows (some .sortOrder) ((twoMenus first second).directory.records .menus)) := by
  rw [stableSort_number_iff, records_twoMenus flat flat']
  exact fun none => none _ _ (.refl _) misplaced

/-- Three tables of which the rows do not stand in the order of their numbers: a text that is not a
number comes behind a number above zero, minus zero before the zero in front of it, and two numbers
that are rounded to one double as in the table. -/
theorem rows_out_of_order :
    let s : Store := ⟨"data", .default⟩
    let text := "SELECT * FROM menus ORDER BY sort_order"
    ∀ w ∈ [twoMenus (.text "nan") (.ofNat 1),
        twoMenus (.ofNat 0) (.number (.double ⟨true, 0⟩ (by decide))),
        twoMenus (.ofNat 9007199254740993) (.ofNat 9007199254740992)],
      ∃ rows, w.run (execute s text []) = (.ok (.rows rows), w) ∧
        ¬StableSort number (· ≤ ·) (w.directory.records .menus) rows := by
  intro s text w mem
  have scans : scan text = .ok (wholeTokens .menus (some .sortOrder)) := by decide +kernel
  refine ⟨_, run_whole scans [], ?_⟩
  simp only [List.mem_cons, List.not_mem_nil, or_false] at mem
  rcases mem with rfl | rfl | rfl
  · exact not_sorted_of_misplaced ⟨trivial, rfl, rfl⟩ ⟨trivial, rfl, Json.settled_integer _⟩
      (.firstBehind (by decide +kernel) (by decide +kernel) (by decide +kernel))
  · exact not_sorted_of_misplaced ⟨trivial, rfl, Json.settled_integer _⟩
      ⟨trivial, rfl, by decide⟩
      (.zeros (by decide +kernel) (by decide +kernel) (by decide +kernel) (by decide +kernel))
  · exact not_sorted_of_misplaced ⟨trivial, rfl, Json.settled_integer _⟩
      ⟨trivial, rfl, Json.settled_integer _⟩
      (.rounded (by decide +kernel) (by decide +kernel))

end Sql

end ContentStore
