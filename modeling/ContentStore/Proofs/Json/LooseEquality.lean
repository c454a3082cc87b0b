import ContentStore.Proofs.Json.Number
import ContentStore.Record
/-!
# Loose equality

Loose equality holds of each value and itself (`looseEq_refl`), and in both directions or in none
(`looseEq_comm`).  It matches what has the same scalar text, and beyond that only a truth value and
its number and the two zeros of the doubles (`looseEq_cases`).  Different numbers have different
texts (`numberText_injective`), so two scalars of one kind match only if they are equal or are the
two zeros (`looseEq_iff_of_sameKind`).
-/

namespace ContentStore

theorem Binary64.sameValue_comm (x y : Binary64) : x.sameValue y = y.sameValue x := by
  rw [sameValue, sameValue, Bool.beq_comm, Bool.and_comm]

namespace Json

/-! ## Equality -/

theorem Number.sameValue_refl (n : Number) : n.sameValue n = true := by
  cases n with
  | integer i inWord => exact beq_self_eq_true i
  | double x finite => simp [sameValue, Binary64.sameValue]

theorem Number.sameValue_comm (n m : Number) : n.sameValue m = m.sameValue n := by
  cases n with
  | integer i inWord =>
    cases m with
    | integer j inWord' => exact Bool.beq_comm
    | double y finite => rfl
  | double x finite =>
    cases m with
    | integer j inWord => rfl
    | double y finite' => exact Binary64.sameValue_comm x y

mutual

/-- A value is the same as itself. -/
theorem sameValue_refl : ∀ v : Json, sameValue v v = true
  | .null => rfl
  | .bool b => beq_self_eq_true b
  | .number n => n.sameValue_refl
  | .text s => beq_self_eq_true s
  | .array items => sameItems_refl items
  | .object members => sameMembers_refl members

theorem sameItems_refl : ∀ items : List Json, sameItems items items = true
  | [] => rfl
  | item :: rest => by rw [sameItems, sameValue_refl item, sameItems_refl rest, Bool.and_self]

theorem sameMembers_refl : ∀ members : Members, sameMembers members members = true
  | [] => rfl
  | (key, value) :: rest => by
    rw [sameMembers, beq_self_eq_true, sameValue_refl value, sameMembers_refl rest, Bool.and_self,
      Bool.and_self]

end

mutual

/-- Two values are the same in both directions or in none. -/
theorem sameValue_comm : ∀ a b : Json, sameValue a b = sameValue b a
  | .null, b => by cases b <;> rfl
  | .bool a, b => by
    cases b with
    | bool b => exact Bool.beq_comm
    | _ => rfl
  | .number n, b => by
    cases b with
    | number m => exact n.sameValue_comm m
    | _ => rfl
  | .text s, b => by
    cases b with
    | text t => exact Bool.beq_comm
    | _ => rfl
  | .array items, b => by
    cases b with
    | array others => exact sameItems_comm items others
    | _ => rfl
  | .object members, b => by
    cases b with
    | object others => exact sameMembers_comm members others
    | _ => rfl

theorem sameItems_comm : ∀ as bs : List Json, sameItems as bs = sameItems bs as
  | [], [] => rfl
  | [], _ :: _ => rfl
  | _ :: _, [] => rfl
  | a :: as, b :: bs => by
    rw [sameItems, sameItems, sameValue_comm a b, sameItems_comm as bs]

theorem sameMembers_comm : ∀ as bs : Members, sameMembers as bs = sameMembers bs as
  | [], [] => rfl
  | [], _ :: _ => rfl
  | _ :: _, [] => rfl
  | (j, a) :: as, (k, b) :: bs => by
    rw [sameMembers, sameMembers, Bool.beq_comm, sameValue_comm a b, sameMembers_comm as bs]

end

/-! ## Both directions -/

theorem sameScalarText_comm (a b : Json) : a.sameScalarText b = b.sameScalarText a := by
  unfold sameScalarText
  cases a.scalarText? with
  | none => cases b.scalarText? <;> rfl
  | some x =>
    cases b.scalarText? with
    | none => rfl
    | some y => exact Bool.beq_comm

theorem looseEq_refl (a : Json) : a.looseEq a = true := by
  unfold looseEq
  rw [sameValue_refl, Bool.true_or]

theorem looseEq_comm (a b : Json) : a.looseEq b = b.looseEq a := by
  unfold looseEq
  rw [sameValue_comm a b]
  refine congrArg (sameValue b a || ·) ?_
  cases a with
  | bool flag =>
    cases b with
    | number n => rfl
    | _ => exact sameScalarText_comm _ _
  | number n =>
    cases b with
    | bool flag => rfl
    | _ => exact sameScalarText_comm _ _
  | _ => cases b <;> exact sameScalarText_comm _ _

/-! ## Scalar texts -/

/-- Two scalars that match loosely and have different texts: a truth value and its number, and the
two zeros of the doubles. -/
inductive OtherText : Json → Json → Prop
  | ofFlag {flag : Bool} {n : Number} (same : isNumberOf flag n = true) :
    OtherText (.bool flag) (.number n)
  | ofNumber {flag : Bool} {n : Number} (same : isNumberOf flag n = true) :
    OtherText (.number n) (.bool flag)
  | zeros {x y : Binary64} {finite : x.IsFinite} {finite' : y.IsFinite} (zero : x.isZero = true)
    (zero' : y.isZero = true) (differ : x ≠ y) :
    OtherText (.number (.double x finite)) (.number (.double y finite'))

/-- The text of a number is not that of a truth value. -/
theorem numberText_ne_boolText (n : Number) (flag : Bool) : numberText n ≠ boolText flag := by
  intro same
  obtain ⟨c, cs, text, begins⟩ := numberText_head n
  rw [text] at same
  cases flag <;> cases same <;> revert begins <;> decide

/-- Scalars with the same text match loosely. -/
theorem looseEq_of_scalarText {a b : Json} {text : String} (left : a.scalarText? = some text)
    (right : b.scalarText? = some text) : a.looseEq b = true := by
  have sameText : a.sameScalarText b = true := by
    rw [sameScalarText, left, right]
    exact beq_self_eq_true text
  have differ : ∀ (n : Number) (flag : Bool), scalarText? (.number n) = some text →
      scalarText? (.bool flag) ≠ some text := by
    intro n flag number boolean
    have same : String.ofList (numberText n) = String.ofList (boolText flag) :=
      Option.some.inj (number.trans boolean.symm)
    exact numberText_ne_boolText n flag (String.ofList_injective same)
  unfold looseEq
  rw [Bool.or_eq_true]
  refine .inr ?_
  split
  · exact absurd left (differ _ _ right)
  · exact absurd right (differ _ _ left)
  · exact sameText

theorem numberText_ne_nil (n : Number) : numberText n ≠ [] := by
  obtain ⟨c, cs, text, -⟩ := numberText_head n
  rw [text]
  exact List.cons_ne_nil c cs

/-- Scalars with the same text are the same, unless one of them is this text. -/
theorem eq_of_scalarText {v p : Json} {text : String} (left : v.scalarText? = some text)
    (right : p.scalarText? = some text) (plain : v ≠ .text text) (plain' : p ≠ .text text) :
    v = p := by
  cases v with
  | null | array | object => cases left
  | text s =>
    cases left
    exact absurd rfl plain
  | number n =>
    cases p with
    | null | array | object => cases right
    | text s =>
      cases right
      exact absurd rfl plain'
    | number m =>
      have same := String.ofList_injective (Option.some.inj (left.trans right.symm))
      rw [numberText_injective same]
    | bool flag =>
      have same := String.ofList_injective (Option.some.inj (left.trans right.symm))
      exact absurd same (numberText_ne_boolText n flag)
  | bool flag =>
    cases p with
    | null | array | object => cases right
    | text s =>
      cases right
      exact absurd rfl plain'
    | number n =>
      have same := String.ofList_injective (Option.some.inj (right.trans left.symm))
      exact absurd same (numberText_ne_boolText n flag)
    | bool other =>
      have same := String.ofList_injective (Option.some.inj (left.trans right.symm))
      cases flag <;> cases other <;> first | rfl | cases same

/-- A value that is the same as a scalar has its text, but for the other zero. -/
theorem sameValue_cases {a b : Json} {text : String} (same : a.sameValue b = true)
    (scalar : b.scalarText? = some text) : a.scalarText? = some text ∨ OtherText a b := by
  unfold sameValue at same
  split at same
  case h_3 n m =>
    cases n <;> cases m
    case double.double x finite y finite' =>
      rcases Bool.or_eq_true_iff.mp same with here | zeros
      · cases beq_iff_eq.mp here
        exact .inl scalar
      · obtain ⟨zero, zero'⟩ := Bool.and_eq_true_iff.mp zeros
        by_cases here : x = y
        · cases here
          exact .inl scalar
        · exact .inr (.zeros zero zero' here)
    case integer.integer i _ j _ =>
      cases beq_iff_eq.mp same
      exact .inl scalar
    all_goals cases same
  case h_2 | h_4 =>
    cases beq_iff_eq.mp same
    exact .inl scalar
  all_goals first | cases scalar | cases same

/-- A value that matches a scalar loosely has its text, but for the named exceptions. -/
theorem looseEq_cases {a b : Json} {text : String} (same : a.looseEq b = true)
    (scalar : b.scalarText? = some text) : a.scalarText? = some text ∨ OtherText a b := by
  unfold looseEq at same
  rw [Bool.or_eq_true] at same
  rcases same with equal | loose
  · exact sameValue_cases equal scalar
  split at loose
  · exact .inr (.ofFlag loose)
  · exact .inr (.ofNumber loose)
  · unfold sameScalarText at loose
    split at loose
    · next x y left right =>
      rw [beq_iff_eq] at loose
      exact .inl (left.trans (loose ▸ right.symm.trans scalar))
    · cases loose

/-! ## Scalars of one kind -/

/-- Two scalars of one kind: texts, numbers, truth values, or null twice. -/
inductive SameScalarKind : Json → Json → Prop
  | text (s t : String) : SameScalarKind (.text s) (.text t)
  | number (n m : Number) : SameScalarKind (.number n) (.number m)
  | bool (a b : Bool) : SameScalarKind (.bool a) (.bool b)
  | null : SameScalarKind .null .null

/-- Two zeros of the doubles, with or without a minus sign. -/
inductive AreZeros : Json → Json → Prop
  | intro {x y : Binary64} {finite : x.IsFinite} {finite' : y.IsFinite} (zero : x.isZero = true)
    (zero' : y.isZero = true) :
    AreZeros (.number (.double x finite)) (.number (.double y finite'))

/-- The zeros are the same value. -/
theorem AreZeros.looseEq {a b : Json} (zeros : AreZeros a b) : a.looseEq b = true := by
  cases zeros with
  | @intro x y _ _ zero zero' =>
    have same : x.sameValue y = true := by
      rw [Binary64.sameValue, zero, zero', Bool.and_self, Bool.or_true]
    exact Bool.or_eq_true_iff.mpr (.inl same)

/-- Scalars of one kind with the same text are equal. -/
theorem SameScalarKind.eq_of_scalarText {a b : Json} {text : String} (kind : SameScalarKind a b)
    (left : a.scalarText? = some text) (right : b.scalarText? = some text) : a = b := by
  cases kind with
  | text s t =>
    cases left
    exact congrArg Json.text (Option.some.inj right).symm
  | number n m => exact Json.eq_of_scalarText left right nofun nofun
  | bool flag other => exact Json.eq_of_scalarText left right nofun nofun
  | null => rfl

/-- Scalars of one kind match loosely exactly if they are equal or are zeros of the doubles. -/
theorem looseEq_iff_of_sameKind {a b : Json} (kind : SameScalarKind a b) :
    a.looseEq b = true ↔ a = b ∨ AreZeros a b := by
  constructor
  · intro same
    cases scalar : b.scalarText? with
    | none =>
      cases kind with
      | null => exact .inl rfl
      | _ => cases scalar
    | some text =>
      rcases looseEq_cases same scalar with left | other
      · exact .inl (kind.eq_of_scalarText left scalar)
      · cases other with
        | zeros zero zero' => exact .inr ⟨zero, zero'⟩
        | _ => cases kind
  · rintro (rfl | zeros)
    · exact looseEq_refl a
    · exact zeros.looseEq

end Json

end ContentStore
