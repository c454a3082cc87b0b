import ContentStore.Proofs.Sql.Steady
/-!
# The clauses of a selection on placed tokens

Each clause of a selection gives on placed tokens what it gives at a cursor, where each place has
the parameter of the number of placeholders before it (`placed_clauses`).  For a `WHERE` clause the
conditions are taken apart as they stand in the statement (`Joined`), and a condition that filters
by a parameter has a single placeholder (`operandValue_place`).
-/

namespace ContentStore.Sql

open Token (placeholders)

/-! ## Conditions -/

/-- Conditions with `AND` between them, and the tokens behind them. -/
inductive Joined : List (List Token) → List Token → List Token → Prop
  | last (condition left : List Token) : Joined [condition] left (condition ++ left)
  | more {conditions : List (List Token)} {left rest : List Token} {t : Token}
      (condition : List Token) (isAnd : t.isKeyword "AND" = true)
      (joined : Joined conditions left rest) :
      Joined (condition :: conditions) left (condition ++ t :: rest)

/-- A token in front of the tokens stands in front of the first condition. -/
theorem Joined.cons {first : List Token} {others : List (List Token)} {left rest : List Token}
    (t : Token) (joined : Joined (first :: others) left rest) :
    Joined ((t :: first) :: others) left (t :: rest) := by
  cases joined with
  | last => exact .last (t :: first) left
  | more _ isAnd joined => exact .more (t :: first) isAnd joined

theorem splitConditions_joined (depth : Nat) (ts : List Token) :
    Joined (splitConditions depth ts).1 (splitConditions depth ts).2 ts := by
  induction ts generalizing depth with
  | nil => exact .last [] []
  | cons t rest ih =>
    rw [splitConditions]
    split
    · next isAnd => exact .more [] isAnd.2 (ih 0)
    split
    · exact .last [] (t :: rest)
    · have behind := ih (depthAfter depth t)
      cases split : splitConditions (depthAfter depth t) rest with
      | mk conditions left =>
        rw [split] at behind
        cases conditions with
        | nil => cases behind
        | cons first others => exact behind.cons t

/-- The conditions stand in front of what follows them, with all placeholders in the conditions. -/
theorem Joined.split {conditions : List (List Token)} {left ts : List Token}
    (joined : Joined conditions left ts) :
    ∃ taken, ts = taken ++ left ∧
      placeholders taken = placeholders conditions.flatten := by
  induction joined with
  | last condition left => exact ⟨condition, rfl, by rw [List.flatten_singleton]⟩
  | more condition isAnd joined ih =>
    obtain ⟨taken, rfl, counts⟩ := ih
    refine ⟨condition ++ _ :: taken, by rw [List.append_assoc, List.cons_append], ?_⟩
    rw [placeholders_append, placeholders_cons, placeholders_keyword isAnd, counts,
      List.flatten_cons, placeholders_append, Nat.zero_add]

theorem operand?_parameter {ts : List Token} (isParameter : operand? ts = some .parameter) :
    ∃ n, ts = [.placeholder n] := by
  unfold operand? at isParameter
  split at isParameter
  · exact ⟨_, rfl⟩
  · obtain ⟨v, number, same⟩ := Option.map_eq_some_iff.mp isParameter
    cases same
  · obtain ⟨v, number, same⟩ := Option.map_eq_some_iff.mp isParameter
    cases same
  · cases isParameter
  · split at isParameter
    · cases isParameter
    split at isParameter
    · cases isParameter
    split at isParameter <;> cases isParameter
  · split at isParameter <;> cases isParameter
  · cases isParameter

theorem comparisonOf?_parameter {field found : String} {ts : List Token}
    (isParameter : comparisonOf? field ts = some (found, .parameter)) :
    ∃ n, ts = [.equal, .placeholder n] ∨ ts = [.doubleEqual, .placeholder n] := by
  unfold comparisonOf? at isParameter
  split at isParameter
  · next rest =>
    obtain ⟨o, operand, same⟩ := Option.map_eq_some_iff.mp isParameter
    cases same
    obtain ⟨n, rfl⟩ := operand?_parameter operand
    exact ⟨n, .inl rfl⟩
  · next rest =>
    obtain ⟨o, operand, same⟩ := Option.map_eq_some_iff.mp isParameter
    cases same
    obtain ⟨n, rfl⟩ := operand?_parameter operand
    exact ⟨n, .inr rfl⟩
  · cases isParameter

/-- A condition on a parameter carries that of the number of placeholders before the condition. -/
theorem operandValue_place (value : Nat → Json) (k : Nat) {condition : List Token} {field : String}
    (isParameter : comparison? condition = some (field, .parameter)) :
    Placed.operandValue (place value k condition) = value k := by
  unfold comparison? at isParameter
  split at isParameter
  · obtain ⟨n, rfl | rfl⟩ := comparisonOf?_parameter isParameter <;> rfl
  · obtain ⟨n, rfl | rfl⟩ := comparisonOf?_parameter isParameter <;> rfl
  · cases isParameter

/-! ## Filters -/

/-- What has been found, at another count of parameters. -/
def Found.counting (found : Found) (bound : Nat) : Found := { found with bound := bound }

theorem Found.add_bound (params : List Json) (found : Found) (condition : List Token) :
    (found.add params condition).bound = found.bound + placeholders condition := by
  unfold Found.add
  dsimp only
  split
  · split
    · rfl
    split
    · rfl
    split <;> rfl
  · split <;> rfl
  · rfl

/-- What a condition adds depends on the one parameter at the count. -/
theorem Found.add_counting {params others : List Json} {found : Found} {bound : Nat}
    {condition : List Token}
    (same : ∀ field, comparison? condition = some (field, .parameter) →
      parameter others bound = parameter params found.bound) :
    (Found.add others (found.counting bound) condition).counting 0 =
      (found.add params condition).counting 0 := by
  unfold Found.add
  cases compares : comparison? condition with
  | none => rfl
  | some comparison =>
    obtain ⟨field, operand⟩ := comparison
    cases operand with
    | parameter =>
      dsimp only [Found.counting]
      rw [same field compares]
      split
      · rfl
      split
      · rfl
      split <;> rfl
    | literal v =>
      dsimp only [Found.counting]
      split <;> rfl
    | now => rfl

theorem findFilters_bound (params : List Json) (found : Found) (conditions : List (List Token)) :
    (conditions.foldl (Found.add params) found).bound =
      found.bound + placeholders conditions.flatten := by
  induction conditions generalizing found with
  | nil => rfl
  | cons condition others ih =>
    rw [List.foldl_cons, ih, Found.add_bound, List.flatten_cons, placeholders_append,
      Nat.add_assoc]

/-- A condition adds what it filters by the value that its placeholder carries. -/
theorem addCondition_place (params : List Json) {found found' : Found}
    (same : found'.counting 0 = found.counting 0) (condition rest : List Token) :
    (Placed.addCondition (found', place (parameter params) found.bound (condition ++ rest))
        condition).1.counting 0 = (found.add params condition).counting 0 := by
  have taken : (place (parameter params) found.bound (condition ++ rest)).take condition.length =
      place (parameter params) found.bound condition := by
    rw [place_append]
    exact List.take_left' (length_place _ _ _)
  have restart : ({ found' with bound := 0 } : Found) = found.counting 0 := same
  rw [Placed.addCondition]
  dsimp only
  rw [taken, restart]
  refine Found.add_counting fun field isParameter => ?_
  exact operandValue_place (parameter params) found.bound isParameter

theorem drop_place (value : Nat → Json) (k : Nat) (condition rest : List Token) {t : Token}
    (isAnd : t.isKeyword "AND" = true) :
    (place value k (condition ++ t :: rest)).drop (condition.length + 1) =
      place value (k + placeholders condition) rest := by
  have front : (condition ++ [t]).length = condition.length + 1 := List.length_append
  have behind : condition ++ t :: rest = (condition ++ [t]) ++ rest := by simp
  rw [behind, place_append, ← front, placeholders_append, placeholders_keyword isAnd, Nat.add_zero]
  exact List.drop_left' (length_place _ _ _)

/-- The conditions filter by the values that their placeholders carry. -/
theorem foldl_addCondition (params : List Json) {conditions : List (List Token)}
    {left ts : List Token} (joined : Joined conditions left ts) (found found' : Found)
    (same : found'.counting 0 = found.counting 0) :
    (conditions.foldl Placed.addCondition
        (found', place (parameter params) found.bound ts)).1.counting 0 =
      (conditions.foldl (Found.add params) found).counting 0 := by
  induction joined generalizing found found' with
  | last condition left => exact addCondition_place params same condition left
  | more condition isAnd joined ih =>
    next rest t =>
    have first := addCondition_place params same condition (t :: rest)
    have behind := drop_place (parameter params) found.bound condition rest isAnd
    rw [List.foldl_cons, List.foldl_cons, ← ih _ _ first, Found.add_bound, ← behind]
    rfl

/-! ## Clauses -/

/-- What remains of placed tokens when a cursor has moved over tokens and counted theirs. -/
theorem remaining_placed (value : Nat → Json) {c : Cursor} (c' : Cursor) {taken : List Token}
    (split : c.rest = taken ++ c'.rest) (counts : c'.bound = c.bound + placeholders taken) :
    Placed.remaining (c.placed value) c'.rest = c'.placed value := by
  rw [Cursor.placed, Cursor.placed, split, counts, remaining_place]

theorem placed_whereClause (params : List Json) (c : Cursor) :
    Placed.whereClause (c.placed (parameter params)) =
      ((Parser.whereClause params c).1,
        (Parser.whereClause params c).2.placed (parameter params)) := by
  rw [Placed.whereClause, Parser.whereClause, tokens_placed]
  have joined := splitConditions_joined 0 c.rest
  cases parts : splitConditions 0 c.rest with
  | mk conditions left =>
    rw [parts] at joined
    obtain ⟨taken, split, counts⟩ := joined.split
    have found := foldl_addCondition params joined ⟨false, none, none, none, c.bound⟩
      ⟨false, none, none, none, 0⟩ rfl
    have filters := congrArg Found.filters found
    have bound : (findFilters params c.bound conditions).bound = c.bound + placeholders taken := by
      rw [findFilters, findFilters_bound, counts]
    exact Prod.ext filters (remaining_placed _ ⟨left, _⟩ split bound)

/-- An ordering moves over tokens and counts theirs. -/
theorem orderClause_split (c : Cursor) :
    ∃ taken, c.rest = taken ++ (Parser.orderClause c).2.rest ∧
      (Parser.orderClause c).2.bound = c.bound + placeholders taken := by
  let stops : Token → Bool := fun t => t.isOneOf orderStops
  let parts := splitBefore (fun t => t == .comma || stops t) 0 c.rest
  let others := splitBefore stops 0 parts.2
  have first : parts.1 ++ parts.2 = c.rest := splitBefore_append _ 0 c.rest
  have second : others.1 ++ others.2 = parts.2 := splitBefore_append stops 0 parts.2
  refine ⟨parts.1 ++ others.1, ?_, ?_⟩
  · rw [← first, ← second, ← List.append_assoc]
    rfl
  · rw [placeholders_append, ← Nat.add_assoc]
    rfl

theorem placed_orderClause (value : Nat → Json) (c : Cursor) :
    Placed.orderClause (c.placed value) =
      ((Parser.orderClause c).1, (Parser.orderClause c).2.placed value) := by
  obtain ⟨taken, split, counts⟩ := orderClause_split c
  rw [Placed.orderClause, tokens_placed]
  exact Prod.ext rfl (remaining_placed value _ split counts)

/-- A count that is no parameter is the same with all parameters. -/
theorem countClause_same {t : Token} (noParameter : t.isPlaceholder = false) (rest : List Token) :
    ∃ count taken left, t :: rest = taken ++ left ∧ placeholders taken = 0 ∧
      ∀ params k, Parser.countClause params ⟨t :: rest, k⟩ = (count, ⟨left, k⟩) := by
  have counts : placeholders [t] = 0 := by
    rw [placeholders, List.countP_singleton, noParameter]
    rfl
  cases stops : t.isOneOf conditionStops with
  | true =>
    refine ⟨none, [], t :: rest, rfl, rfl, fun params k => ?_⟩
    rw [Parser.countClause]
    exact if_pos stops
  | false =>
    have behind : ∃ count, ∀ params k,
        Parser.countClause params ⟨t :: rest, k⟩ = (count, ⟨rest, k⟩) := by
      cases t with
      | placeholder n => cases noParameter
      | number digits long => exact ⟨Text.natural? digits.toList, fun _ _ => rfl⟩
      | word quote word =>
        refine ⟨none, fun params k => ?_⟩
        rw [Parser.countClause]
        exact if_neg (by simp [stops])
      | _ => exact ⟨none, fun _ _ => rfl⟩
    obtain ⟨count, reads⟩ := behind
    exact ⟨count, [t], rest, rfl, counts, reads⟩

theorem countClause_literal (value : Nat → Json) {c : Cursor}
    (noParameter : ∀ n rest, c.rest ≠ .placeholder n :: rest) :
    Placed.countClause (c.placed value) =
      ((Parser.countClause [] ⟨c.rest, 0⟩).1,
        Placed.remaining (c.placed value) (Parser.countClause [] ⟨c.rest, 0⟩).2.rest) := by
  rw [← tokens_placed value c]
  obtain ⟨ts, bound⟩ := c
  cases ts with
  | nil => rfl
  | cons t rest =>
    cases t with
    | placeholder n => exact absurd rfl (noParameter n rest)
    | _ => rfl

theorem placed_countClause (params : List Json) (c : Cursor) :
    Placed.countClause (c.placed (parameter params)) =
      ((Parser.countClause params c).1,
        (Parser.countClause params c).2.placed (parameter params)) := by
  obtain ⟨ts, bound⟩ := c
  cases ts with
  | nil => rfl
  | cons t rest =>
    cases isParameter : t.isPlaceholder with
    | true =>
      cases t with
      | placeholder n => rfl
      | _ => cases isParameter
    | false =>
      obtain ⟨count, taken, left, split, none, reads⟩ := countClause_same isParameter rest
      have literal := countClause_literal (parameter params) (c := ⟨t :: rest, bound⟩) <| by
        rintro n others same
        cases same
        cases isParameter
      rw [literal, reads, reads]
      refine Prod.ext rfl (remaining_placed _ ⟨left, bound⟩ split ?_)
      rw [none, Nat.add_zero]

theorem placed_limitClause (params : List Json) (c : Cursor) (selection : Select) :
    Placed.limitClause (c.placed (parameter params)) selection =
      ((Parser.limitClause params c selection).1,
        (Parser.limitClause params c selection).2.placed (parameter params)) := by
  rw [Placed.limitClause, placed_countClause, Parser.limitClause]
  obtain ⟨first, ts, bound⟩ := Parser.countClause params c
  cases ts with
  | nil => rfl
  | cons t rest =>
    cases t with
    | comma =>
      have second : Placed.countClause
          (place (parameter params) (bound + placeholders [.comma]) rest) = _ :=
        placed_countClause params ⟨rest, bound⟩
      dsimp only [Cursor.placed, place]
      rw [second]
      rfl
    | _ => rfl

/-- A clause gives at its places what it gives at the cursor. -/
theorem placed_clause (params : List Json) (t : Token) (c : Cursor) (selection : Select) :
    Placed.clause t (place (parameter params) (c.bound + placeholders [t]) c.rest) selection =
      ((Parser.clause params t c selection).1,
        (Parser.clause params t c selection).2.placed (parameter params)) := by
  have behind : ∀ {keyword : String}, t.isKeyword keyword = true →
      place (parameter params) (c.bound + placeholders [t]) c.rest =
        c.placed (parameter params) := by
    intro keyword isKeyword
    rw [placeholders_keyword isKeyword]
    rfl
  unfold Placed.clause Parser.clause
  split
  · next isWhere => rw [behind isWhere, placed_whereClause]
  split
  · next isOrder =>
    rw [behind isOrder]
    obtain ⟨ts, bound⟩ := c
    cases ts with
    | nil => rfl
    | cons by_ rest =>
      dsimp only [Cursor.placed, place]
      split
      · next isBy =>
        have order : Placed.orderClause (place (parameter params) (bound + 0) rest) = _ :=
          placed_orderClause (parameter params) ⟨rest, bound⟩
        rw [placeholders_keyword isBy, order]
        rfl
      · rfl
  split
  · next isLimit => rw [behind isLimit, placed_limitClause]
  split
  · next isOffset => rw [behind isOffset, placed_countClause]
  · rfl

/-- The clauses of a selection give at their places what they give at the cursor. -/
theorem placed_clauses (params : List Json) (fuel : Nat) (c : Cursor) (selection : Select) :
    Placed.clauses fuel (c.placed (parameter params)) selection =
      Parser.clauses params fuel c selection := by
  induction fuel generalizing c selection with
  | zero => rfl
  | succ fuel ih =>
    obtain ⟨rest, bound⟩ := c
    cases rest with
    | nil => rfl
    | cons t rest =>
      rw [Cursor.placed, place, Placed.clauses, Parser.clauses,
        placed_clause params t ⟨rest, bound⟩]
      exact ih _ _

end ContentStore.Sql
