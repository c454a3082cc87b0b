import ContentStore.Proofs.Sql.Clauses
/-!
# The conditions of a `WHERE` clause

Conditions are tokens with all parentheses closed and with no keyword outside them that would end a
condition (`Nested`).  Joined by `AND`, in front of the end or of another such keyword, they are
taken apart where they were joined (`splitConditions_of_joined`).  A condition makes a comparison
exactly if it is written as one: a field, behind a qualifier or not, an equals sign, and a parameter
or a literal (`comparison?_parameter_iff`, `comparison?_literal_iff`).
-/

namespace ContentStore.Sql

/-- A word that is one keyword is no other one. -/
theorem sameLetters_other {word keyword other : String}
    (same : Text.sameLetters word keyword = true)
    (differ : Text.sameLetters keyword other = false) : Text.sameLetters word other = false := by
  rw [Text.sameLetters, beq_eq_false_iff_ne] at differ ⊢
  exact fun isOther => differ ((eq_of_beq same).symm.trans isOther)

/-- A token that is one of some keywords is no other one. -/
theorem isKeyword_other {t : Token} {keywords : List String} {other : String}
    (isOneOf : t.isOneOf keywords = true)
    (differ : ∀ k ∈ keywords, Text.sameLetters k other = false) : t.isKeyword other = false := by
  obtain ⟨k, mem, isKeyword⟩ := List.any_eq_true.mp isOneOf
  cases t with
  | word quote word =>
    cases quote with
    | some q => rfl
    | none => exact sameLetters_other isKeyword (differ k mem)
  | _ => rfl

theorem isOneOf_singleton {t : Token} {k : String} (isKeyword : t.isKeyword k = true) :
    t.isOneOf [k] = true :=
  List.any_eq_true.mpr ⟨k, List.mem_singleton_self k, isKeyword⟩

/-! ## Nested tokens -/

/-- Every parenthesis has its partner, and no token outside of parentheses is one to stop at. -/
inductive Nested : (Token → Bool) → List Token → Prop
  | nil {stop : Token → Bool} : Nested stop []
  | token {stop : Token → Bool} {t : Token} {rest : List Token} (noLeft : t ≠ .leftParen)
    (noRight : t ≠ .rightParen) (goesOn : stop t = false) (behind : Nested stop rest) :
    Nested stop (t :: rest)
  | parens {stop : Token → Bool} {inner rest : List Token}
    (inside : Nested (fun _ => false) inner) (behind : Nested stop rest) :
    Nested stop (.leftParen :: (inner ++ .rightParen :: rest))

/-- The tokens of a condition. -/
def IsCondition (ts : List Token) : Prop := Nested (·.isOneOf conditionStops) ts

/-- The end of a statement, or a keyword behind a `WHERE` clause. -/
def EndsConditions (left : List Token) : Prop :=
  ∀ t ∈ left.head?, t.isOneOf ["ORDER", "LIMIT", "OFFSET", "GROUP", "HAVING"] = true

/-- Without parentheses it is enough that no token is one to stop at. -/
theorem nested_plain {stop : Token → Bool} {ts : List Token}
    (plain : ∀ t ∈ ts, t ≠ .leftParen ∧ t ≠ .rightParen ∧ stop t = false) : Nested stop ts := by
  induction ts with
  | nil => exact .nil
  | cons t rest ih =>
    obtain ⟨⟨noLeft, noRight, goesOn⟩, behind⟩ := List.forall_mem_cons.mp plain
    exact .token noLeft noRight goesOn (ih behind)

theorem depthAfter_plain {t : Token} (noLeft : t ≠ .leftParen) (noRight : t ≠ .rightParen)
    (depth : Nat) : depthAfter depth t = depth := by
  cases t with
  | leftParen => exact absurd rfl noLeft
  | rightParen => exact absurd rfl noRight
  | _ => rfl

/-- A token that ends no condition stands in front of the first one. -/
theorem splitConditions_cons {depth : Nat} {t : Token} {rest first left : List Token}
    {others : List (List Token)} (goesOn : depth = 0 → t.isOneOf conditionStops = false)
    (split : splitConditions (depthAfter depth t) rest = (first :: others, left)) :
    splitConditions depth (t :: rest) = ((t :: first) :: others, left) := by
  have noStop : ¬(depth = 0 ∧ t.isOneOf conditionStops = true) := by
    rintro ⟨outside, stops⟩
    rw [goesOn outside] at stops
    cases stops
  have noAnd : ¬(depth = 0 ∧ t.isKeyword "AND" = true) := fun ⟨outside, isAnd⟩ =>
    noStop ⟨outside, List.any_eq_true.mpr ⟨"AND", by decide, isAnd⟩⟩
  rw [splitConditions, if_neg noAnd, if_neg noStop, split]

/-- Nested tokens stand in front of the first condition behind them. -/
theorem splitConditions_nested {stop : Token → Bool} {ts : List Token} (nested : Nested stop ts)
    {depth : Nat}
    (stops : depth = 0 → ∀ t, stop t = false → t.isOneOf conditionStops = false)
    {rest first left : List Token} {others : List (List Token)}
    (split : splitConditions depth rest = (first :: others, left)) :
    splitConditions depth (ts ++ rest) = ((ts ++ first) :: others, left) := by
  induction nested generalizing depth rest first with
  | nil => exact split
  | token noLeft noRight goesOn behind ih =>
    refine splitConditions_cons (fun outside => stops outside _ goesOn) ?_
    rw [depthAfter_plain noLeft noRight]
    exact ih stops split
  | parens inside behind ihInside ihBehind =>
    have inner : ∀ {P : Prop}, depth + 1 = 0 → P := fun outside => absurd outside (by omega)
    have closed : splitConditions (depth + 1) (.rightParen :: (_ ++ rest)) = _ :=
      splitConditions_cons inner (ihBehind stops split)
    have opened : splitConditions depth (.leftParen :: (_ ++ .rightParen :: (_ ++ rest))) = _ :=
      splitConditions_cons (fun _ => rfl) (ihInside inner closed)
    simpa only [List.cons_append, List.append_assoc] using opened

/-- A keyword behind a `WHERE` clause is no `AND`, and ends the last condition. -/
theorem splitConditions_end {left : List Token} (ends : EndsConditions left) :
    splitConditions 0 left = ([[]], left) := by
  cases left with
  | nil => rfl
  | cons t rest =>
    have stops := ends t rfl
    have noAnd : t.isKeyword "AND" = false := isKeyword_other stops (by decide)
    have ends : t.isOneOf conditionStops = true := Bool.or_eq_true_iff.mpr (.inr stops)
    rw [splitConditions, noAnd, ends]
    rfl

/-- Joined conditions are taken apart where they were joined. -/
theorem splitConditions_of_joined {conditions : List (List Token)} {left ts : List Token}
    (joined : Joined conditions left ts) (each : ∀ c ∈ conditions, IsCondition c)
    (ends : EndsConditions left) : splitConditions 0 ts = (conditions, left) := by
  have split : ∀ {c : List Token}, IsCondition c → ∀ {rest left : List Token}
      {others : List (List Token)}, splitConditions 0 rest = ([] :: others, left) →
        splitConditions 0 (c ++ rest) = (c :: others, left) := by
    intro c isCondition rest left others split
    have front := splitConditions_nested isCondition (fun _ _ => id) split
    rwa [List.append_nil] at front
  induction joined with
  | last condition left => exact split (each _ List.mem_cons_self) (splitConditions_end ends)
  | more condition isAnd joined ih =>
    obtain ⟨first, others⟩ := List.forall_mem_cons.mp each
    refine split first ?_
    rw [splitConditions, if_pos ⟨rfl, isAnd⟩, ih others ends]

/-! ## Comparisons -/

/-- The tokens of a field, behind a qualifier or not. -/
inductive FieldTokens (field : String) : List Token → Prop
  | plain (quote : Option Char) : FieldTokens field [.word quote field]
  | qualified (quote : Option Char) (qualifier : String) (quote' : Option Char) :
    FieldTokens field [.word quote qualifier, .period, .word quote' field]

/-- A condition compares a field with the operand of these tokens. -/
inductive Compares (field : String) (operand : List Token) : List Token → Prop
  | equal {name : List Token} (names : FieldTokens field name) :
    Compares field operand (name ++ .equal :: operand)
  | doubleEqual {name : List Token} (names : FieldTokens field name) :
    Compares field operand (name ++ .doubleEqual :: operand)

/-- The tokens of a literal, and its value. -/
inductive Literal : List Token → Json → Prop
  | number {digits : String} {v : Json} (long : Bool)
    (writes : numberValue? digits.toList = some v) : Literal [.number digits long] v
  | minus {digits : String} {v : Json} (long : Bool)
    (writes : numberValue? ('-' :: digits.toList) = some v) :
    Literal [.minus, .number digits long] v
  | text (value : String) : Literal [.text value] (.text value)
  | true {word : String} (same : Text.sameLetters word "TRUE" = true) :
    Literal [.word none word] (.bool true)
  | false {word : String} (same : Text.sameLetters word "FALSE" = true) :
    Literal [.word none word] (.bool false)
  | null {word : String} (same : Text.sameLetters word "NULL" = true) :
    Literal [.word none word] .null

theorem comparisonOf?_iff {field found : String} {ts : List Token} {o : Operand} :
    comparisonOf? field ts = some (found, o) ↔ found = field ∧
      ∃ operand, (ts = .equal :: operand ∨ ts = .doubleEqual :: operand) ∧
        operand? operand = some o := by
  constructor
  · intro compares
    unfold comparisonOf? at compares
    split at compares
    · next rest =>
      obtain ⟨o', reads, same⟩ := Option.map_eq_some_iff.mp compares
      cases same
      exact ⟨rfl, rest, .inl rfl, reads⟩
    · next rest =>
      obtain ⟨o', reads, same⟩ := Option.map_eq_some_iff.mp compares
      cases same
      exact ⟨rfl, rest, .inr rfl, reads⟩
    · cases compares
  · rintro ⟨rfl, operand, rfl | rfl, reads⟩ <;> rw [comparisonOf?, reads] <;> rfl

/-- A condition makes a comparison exactly if it compares a field with the tokens of an operand. -/
theorem comparison?_iff {condition : List Token} {field : String} {o : Operand} :
    comparison? condition = some (field, o) ↔
      ∃ operand, Compares field operand condition ∧ operand? operand = some o := by
  constructor
  · intro compares
    unfold comparison? at compares
    split at compares
    · obtain ⟨rfl, operand, rfl | rfl, reads⟩ := comparisonOf?_iff.mp compares
      · exact ⟨operand, .equal (.qualified _ _ _), reads⟩
      · exact ⟨operand, .doubleEqual (.qualified _ _ _), reads⟩
    · obtain ⟨rfl, operand, rfl | rfl, reads⟩ := comparisonOf?_iff.mp compares
      · exact ⟨operand, .equal (.plain _), reads⟩
      · exact ⟨operand, .doubleEqual (.plain _), reads⟩
    · cases compares
  · rintro ⟨operand, compares, reads⟩
    have equal : comparisonOf? field (.equal :: operand) = some (field, o) :=
      comparisonOf?_iff.mpr ⟨rfl, operand, .inl rfl, reads⟩
    have doubleEqual : comparisonOf? field (.doubleEqual :: operand) = some (field, o) :=
      comparisonOf?_iff.mpr ⟨rfl, operand, .inr rfl, reads⟩
    cases compares with
    | equal names => cases names <;> exact equal
    | doubleEqual names => cases names <;> exact doubleEqual

theorem operand?_literal_iff {ts : List Token} {v : Json} :
    operand? ts = some (.literal v) ↔ Literal ts v := by
  constructor
  · intro reads
    unfold operand? at reads
    split at reads
    · cases reads
    · obtain ⟨v', writes, same⟩ := Option.map_eq_some_iff.mp reads
      cases same
      exact .number _ writes
    · obtain ⟨v', writes, same⟩ := Option.map_eq_some_iff.mp reads
      cases same
      exact .minus _ writes
    · cases reads
      exact .text _
    · split at reads
      · next same =>
        cases reads
        exact .true same
      split at reads
      · next same =>
        cases reads
        exact .false same
      split at reads
      · next same =>
        cases reads
        exact .null same
      · cases reads
    · split at reads <;> cases reads
    · cases reads
  · intro literal
    cases literal with
    | number long writes => rw [operand?, writes]; rfl
    | minus long writes => rw [operand?, writes]; rfl
    | text value => rfl
    | true same => rw [operand?, if_pos same]
    | false same =>
      rw [operand?, sameLetters_other same (by decide), if_neg Bool.false_ne_true, if_pos same]
    | null same =>
      rw [operand?, sameLetters_other same (by decide), if_neg Bool.false_ne_true,
        sameLetters_other same (by decide), if_neg Bool.false_ne_true, if_pos same]

/-- A condition compares a field with a parameter. -/
def ComparesSlot (field : String) (condition : List Token) : Prop :=
  ∃ name, Compares field [.placeholder name] condition

theorem comparison?_parameter_iff {condition : List Token} {field : String} :
    comparison? condition = some (field, .parameter) ↔ ComparesSlot field condition := by
  rw [comparison?_iff]
  constructor
  · rintro ⟨operand, compares, reads⟩
    obtain ⟨name, rfl⟩ := operand?_parameter reads
    exact ⟨name, compares⟩
  · rintro ⟨name, compares⟩
    exact ⟨_, compares, rfl⟩

theorem comparison?_literal_iff {condition : List Token} {field : String} {v : Json} :
    comparison? condition = some (field, .literal v) ↔
      ∃ operand, Compares field operand condition ∧ Literal operand v := by
  simp only [comparison?_iff, operand?_literal_iff]

end ContentStore.Sql
