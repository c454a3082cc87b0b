import ContentStore.Proofs.Binary64.Order
import ContentStore.Proofs.Sql.Identity
import ContentStore.Proofs.Sql.Scanning
/-!
# Active and inactive records

A selection by `is_active` asks for the truth of the field where its value is true, and compares
loosely where it is not.  Loose equality keeps the truth of a value except between a falsy scalar
and its text, since every text but the empty one is true (`falsyText_iff`); there are four such
texts (`FalsyText`).  So the records of which `is_active` is the text of a falsy value are the ones
that a selection by this value shares with the active records (`active_and_inactive_rows`).
-/

namespace ContentStore

/-! ## Loose equality and truth -/

theorem Binary64.isZero_of_sameValue {x y : Binary64} (same : x.sameValue y = true) :
    x.isZero = y.isZero := by
  rcases Bool.or_eq_true_iff.mp same with here | zeros
  · rw [beq_iff_eq.mp here]
  · obtain ⟨zero, zero'⟩ := Bool.and_eq_true_iff.mp zeros
    rw [zero, zero']

/-- Only the integer zero is rounded to a zero. -/
theorem Binary64.isZero_ofInt {i : Int} (zero : (Binary64.ofInt i).isZero = true) : i = 0 := by
  by_contra other
  have least : magnitudeOfRatio 1 1 ≤ magnitudeOfRatio i.natAbs 1 :=
    magnitudeOfRatio_mono Nat.one_pos Nat.one_pos (by omega)
  have one : 0 < magnitudeOfRatio 1 1 := by decide +kernel
  have none : magnitudeOfRatio i.natAbs 1 = 0 := beq_iff_eq.mp zero
  omega

namespace Json

/-- The text of a falsy scalar that is no text itself, and the scalar. -/
inductive FalsyText : Json → Json → Prop
  | flag : FalsyText (.text "false") (.bool false)
  | integer {inWord : InWord 0} : FalsyText (.text "0") (.number (.integer 0 inWord))
  | plusZero {finite : Binary64.IsFinite ⟨false, 0⟩} :
    FalsyText (.text "0.0") (.number (.double ⟨false, 0⟩ finite))
  | minusZero {finite : Binary64.IsFinite ⟨true, 0⟩} :
    FalsyText (.text "-0.0") (.number (.double ⟨true, 0⟩ finite))

theorem FalsyText.truth {v p : Json} (falsy : v.FalsyText p) :
    v.isTruthy = true ∧ p.isTruthy = false := by
  cases falsy with
  | flag => decide
  | integer => exact ⟨by decide, rfl⟩
  | plusZero | minusZero => exact ⟨by decide, rfl⟩

theorem FalsyText.looseEq {v p : Json} (falsy : v.FalsyText p) : v.looseEq p = true := by
  cases falsy with
  | flag => decide
  | integer => rfl
  | plusZero | minusZero => rfl

/-- A number that is not true and its text. -/
theorem falsyText_number {n : Number} (falsy : isTruthy (.number n) = false) :
    FalsyText (.text (String.ofList (numberText n))) (.number n) := by
  have zero : n.toBinary64.isZero = true := (Bool.not_eq_false' _).mp falsy
  match n with
  | .integer i inWord =>
    obtain rfl := Binary64.isZero_ofInt zero
    exact .integer
  | .double ⟨negative, magnitude⟩ finite =>
    obtain rfl : magnitude = 0 := beq_iff_eq.mp zero
    cases negative
    · exact .plusZero
    · exact .minusZero

/-- No scalar but the empty text has the empty text. -/
theorem eq_empty_of_scalarText {v : Json} (empty : v.scalarText? = some "") : v = .text "" := by
  cases v with
  | null | array | object => cases empty
  | text s => rw [Option.some.inj empty]
  | number n =>
    exact absurd (String.ofList_injective (Option.some.inj empty)) (numberText_ne_nil n)
  | bool flag =>
    have nothing : boolText flag = [] := String.ofList_injective (Option.some.inj empty)
    cases flag <;> cases nothing

/-- Scalars with the same text of which only the second is falsy. -/
theorem falsyText_of_scalarText {v p : Json} {text : String} (left : v.scalarText? = some text)
    (right : p.scalarText? = some text) (truthy : v.isTruthy = true) (falsy : p.isTruthy = false) :
    v.FalsyText p := by
  have notEmpty : v ≠ .text "" := by
    rintro rfl
    cases truthy
  have plain : p ≠ .text text := by
    rintro rfl
    obtain rfl : text = "" := not_not.mp (of_decide_eq_false falsy)
    exact notEmpty (eq_empty_of_scalarText left)
  have isText : v = .text text := by
    by_contra other
    obtain rfl := eq_of_scalarText left right other plain
    cases truthy.symm.trans falsy
  subst isText
  cases p with
  | null | array | object => cases right
  | text s => exact absurd (congrArg _ (Option.some.inj right)) plain
  | number n =>
    cases right
    exact falsyText_number falsy
  | bool flag =>
    obtain rfl : flag = false := falsy
    cases right
    exact .flag

/-! ## Truth kept by loose equality -/

theorem isTruthy_of_sameValue {v p : Json} (same : v.sameValue p = true) :
    v.isTruthy = p.isTruthy := by
  unfold sameValue at same
  split at same
  case h_1 | h_5 | h_6 => rfl
  case h_2 | h_4 => rw [beq_iff_eq.mp same]
  case h_3 n m =>
    have zeros : n.toBinary64.isZero = m.toBinary64.isZero := by
      cases n <;> cases m
      case integer.integer =>
        cases beq_iff_eq.mp same
        rfl
      case double.double => exact Binary64.isZero_of_sameValue same
      all_goals cases same
    exact congrArg not zeros
  case h_7 => cases same

/-- A number that stands for a truth value has this truth. -/
theorem isTruthy_of_isNumberOf {flag : Bool} {n : Number} (same : isNumberOf flag n = true) :
    isTruthy (.number n) = flag := by
  have zeros := Binary64.isZero_of_sameValue same
  rw [isTruthy, zeros]
  cases flag <;> decide

/-- Values that match loosely have the same truth or the same text. -/
theorem truth_or_text {v p : Json} (same : v.looseEq p = true) :
    v.isTruthy = p.isTruthy ∨ ∃ text, v.scalarText? = some text ∧ p.scalarText? = some text := by
  unfold looseEq at same
  rcases Bool.or_eq_true_iff.mp same with equal | loose
  · exact .inl (isTruthy_of_sameValue equal)
  split at loose
  · exact .inl (isTruthy_of_isNumberOf loose).symm
  · exact .inl (isTruthy_of_isNumberOf loose)
  · unfold sameScalarText at loose
    split at loose
    · next x y left right =>
      obtain rfl : x = y := beq_iff_eq.mp loose
      exact .inr ⟨x, left, right⟩
    · cases loose

/-- Two values that match loosely differ in truth exactly if one is the text of the other, which is
falsy. -/
theorem isTruthy_eq_iff {v p : Json} (same : v.looseEq p = true) :
    v.isTruthy = p.isTruthy ↔ ¬v.FalsyText p ∧ ¬p.FalsyText v := by
  constructor
  · intro equal
    constructor
    all_goals
      intro falsy
      obtain ⟨truthy, not⟩ := falsy.truth
      simp [truthy, not] at equal
  · rintro ⟨noText, noText'⟩
    by_contra differ
    obtain ⟨shown, left, right⟩ := (truth_or_text same).resolve_left differ
    cases truth : v.isTruthy <;> cases truth' : p.isTruthy
    case false.true => exact noText' (falsyText_of_scalarText right left truth' truth)
    case true.false => exact noText (falsyText_of_scalarText left right truth truth')
    all_goals exact differ (truth.trans truth'.symm)

/-- A value that is true matches a falsy one loosely exactly if it is the text of this one. -/
theorem falsyText_iff {v p : Json} (falsy : p.isTruthy = false) :
    v.FalsyText p ↔ v.looseEq p = true ∧ v.isTruthy = true := by
  refine ⟨fun isText => ⟨isText.looseEq, isText.truth.1⟩, fun ⟨same, truthy⟩ => ?_⟩
  have differ : v.isTruthy ≠ p.isTruthy := by rw [truthy, falsy]; decide
  obtain ⟨shown, left, right⟩ := (truth_or_text same).resolve_left differ
  exact falsyText_of_scalarText left right truthy falsy

end Json

namespace Sql

/-! ## The selection by activity -/

/-- The tokens of a selection by activity. -/
def activeTokens (t : Table) : List Token :=
  [keyword "SELECT", .operator "*", keyword "FROM", keyword t.name, keyword "WHERE",
    keyword "is_active", .equal, slot]

/-- The text of a selection by activity. -/
def activeText (t : Table) : String := Token.render (activeTokens t)

example : activeText .pages = "SELECT * FROM pages WHERE is_active = ?" := by decide +kernel

/-- What a selection by activity filters by. -/
def activeFilter (p : Json) : Filter := if p.isTruthy then .isActive else .field "is_active" p

theorem scan_activeText (t : Table) : scan (activeText t) = .ok (activeTokens t) := by
  refine scan_render ?_
  simp only [activeTokens, List.forall_mem_cons, List.not_mem_nil, false_implies, implies_true,
    and_true]
  exact ⟨isRead_keyword (by decide +kernel), isRead_star, isRead_keyword (by decide +kernel),
    isRead_table t, isRead_keyword (by decide +kernel), isRead_keyword (by decide +kernel),
    isRead_equal, isRead_slot⟩

theorem parse_activeText (t : Table) (p : Json) :
    parse (activeText t) [p] = .ok (.select ⟨t, [activeFilter p], none, none, none⟩) := by
  have read : (Parser.statement [p]).run' ⟨dropSemicolons (activeTokens t), 0⟩ =
      .ok (.select ⟨t, (Found.add [p] ⟨false, none, none, none, 0⟩
        [keyword "is_active", .equal, slot]).filters, none, none, none⟩) := by
    cases t <;> rfl
  have bound : parameter [p] 0 = p := rfl
  rw [parse_scanned _ (scan_activeText t), read, keyword, Found.add_slot bound, activeFilter]
  cases p.isTruthy with
  | true =>
    rw [if_pos ⟨by decide, rfl⟩]
    rfl
  | false =>
    rw [if_neg (fun both => Bool.false_ne_true both.2), if_neg (by decide), if_neg (by decide)]
    rfl

/-- A record passes by a true value and by a falsy one exactly if its field is the text of the
falsy one. -/
theorem passes_both_iff {a b : Json} (truthy : a.isTruthy = true) (falsy : b.isTruthy = false)
    (r : Record) :
    (activeFilter a).passes r = true ∧ (activeFilter b).passes r = true ↔
      ∃ v, Json.Members.get? "is_active" r = some v ∧ v.FalsyText b := by
  rw [activeFilter, activeFilter, if_pos truthy, if_neg (Bool.eq_false_iff.mp falsy),
    Filter.passes, Filter.passes, Record.isTruthyAt, Record.matchesField]
  cases Json.Members.get? "is_active" r with
  | none => simp
  | some v => simp [Json.falsyText_iff falsy, and_comm]

/-- Values that match loosely differ in truth exactly if one is a falsy scalar and the other its
text.  So a selection by a true value and one by a falsy value share the records of which the
field is the text of the falsy value, and no others. -/
theorem active_and_inactive_rows :
    (∀ v p : Json, v.looseEq p = true →
      (v.isTruthy = p.isTruthy ↔ ¬v.FalsyText p ∧ ¬p.FalsyText v)) ∧
    ∀ (s : Store) (w : World) (t : Table) (a b : Json), a.isTruthy = true → b.isTruthy = false →
      ∃ active inactive,
        w.run (execute s (activeText t) [a]) = (.ok (.rows active), w) ∧
        w.run (execute s (activeText t) [b]) = (.ok (.rows inactive), w) ∧
        ∀ r, r ∈ active ∧ r ∈ inactive ↔ r ∈ w.directory.records t ∧
          ∃ v, Json.Members.get? "is_active" r = some v ∧ v.FalsyText b := by
  refine ⟨fun v p => Json.isTruthy_eq_iff, fun s w t a b truthy falsy => ?_⟩
  have given : ∀ p, w.run (execute s (activeText t) [p]) =
      (.ok (.rows ((w.directory.records t).filter (activeFilter p).passes)), w) := by
    intro p
    rw [run_execute (parse_activeText t p), ← rows_filter]
    rfl
  refine ⟨_, _, given a, given b, fun r => ?_⟩
  rw [List.mem_filter, List.mem_filter, ← passes_both_iff truthy falsy]
  exact and_and_left.symm

/-- The text of false is shared, false itself is not. -/
theorem active_and_inactive_rows_false :
    let d := Directory.empty.set Table.pages.fileName
      (.file "[\x7b\"is_active\":\"false\"\x7d,\x7b\"is_active\":false\x7d]".toUTF8)
    let s : Store := ⟨"data", .default⟩
    let w : World := ⟨d, fun _ => ⟨0, 0⟩, 0, fun _ => 0, 0⟩
    ∃ active inactive,
      w.run (execute s "SELECT * FROM pages WHERE is_active = ?" [.bool true]) =
        (.ok (.rows active), w) ∧
      w.run (execute s "SELECT * FROM pages WHERE is_active = ?" [.bool false]) =
        (.ok (.rows inactive), w) ∧
      [("is_active", .text "false")] ∈ active ∧ [("is_active", .text "false")] ∈ inactive ∧
      ¬([("is_active", .bool false)] ∈ active ∧ [("is_active", .bool false)] ∈ inactive) := by
  intro d s w
  have records : d.records .pages =
      [[("is_active", .text "false")], [("is_active", .bool false)]] := by rfl
  have text : activeText .pages = "SELECT * FROM pages WHERE is_active = ?" := by decide +kernel
  obtain ⟨active, inactive, given, given', shared⟩ :=
    active_and_inactive_rows.2 s w .pages (.bool true) (.bool false) rfl rfl
  rw [text] at given given'
  have here := (shared [("is_active", .text "false")]).mpr
    ⟨records ▸ List.mem_cons_self, _, rfl, .flag⟩
  refine ⟨active, inactive, given, given', here.1, here.2, fun both => ?_⟩
  obtain ⟨-, v, held, isText⟩ := (shared _).mp both
  cases held
  cases isText

/-- The text of zero is true and matches zero, and its record is active and inactive. -/
theorem active_and_inactive_zero :
    let d := Directory.empty.set Table.pages.fileName
      (.file "[\x7b\"id\":\"a\",\"is_active\":\"0\"\x7d]".toUTF8)
    let s : Store := ⟨"data", .default⟩
    let w : World := ⟨d, fun _ => ⟨0, 0⟩, 0, fun _ => 0, 0⟩
    let select := execute s "SELECT * FROM pages WHERE is_active = ?"
    let given (o : Outcome) : Option (List String) := match o with
      | .rows rows => some (rows.filterMap fun r => r.text? "id")
      | .effect _ _ => none
    (Json.text "0").looseEq (.ofNat 0) = true ∧ (Json.text "0").isTruthy = true ∧
      (Json.ofNat 0).isTruthy = false ∧
      (w.run (select [.ofNat 1])).1.toOption.map given = some (some ["a"]) ∧
      (w.run (select [.ofNat 0])).1.toOption.map given = some (some ["a"]) := by
  decide +kernel

end Sql

end ContentStore
