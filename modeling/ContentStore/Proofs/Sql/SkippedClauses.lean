import ContentStore.Proofs.Sql.Segments
/-!
# Clauses that a selection skips

A selection skips joins, groupings and the further terms of an ordering, whatever they hold: with
such tokens inserted, and with a parameter for each placeholder in them put at its place, a text
makes the statement that it makes without them (`skipped_clauses_ignored`).
-/

namespace ContentStore.Sql

open Token (placeholders)

/-! ## Parameters put at a place -/

/-- Parameters with further ones at an index; those that are missing in front of it are null. -/
def insertParameters (index : Nat) (further params : List Json) : List Json :=
  (params.take index).rightpad index .null ++ further ++ params.drop index

section Parameters

variable {index i : Nat} (further params : List Json)

theorem length_front : ((params.take index).rightpad index .null).length = index := by
  rw [List.length_rightpad, List.length_take]
  exact Nat.max_eq_left (Nat.min_le_left _ _)

theorem parameter_before (before : i < index) :
    parameter (insertParameters index further params) i = parameter params i := by
  have inFront : i < ((params.take index).rightpad index .null).length := by rwa [length_front]
  rw [parameter, insertParameters, List.append_assoc, List.getElem?_append_left inFront, parameter,
    List.rightpad, List.getElem?_append, List.getElem?_take_of_lt before, List.getElem?_replicate]
  split
  · rfl
  · next missing =>
    rw [List.length_take] at missing
    have missing : params.length ≤ i := by omega
    rw [List.getElem?_eq_none missing]
    split <;> rfl

theorem parameter_behind (behind : index ≤ i) :
    parameter (insertParameters index further params) (i + further.length) =
      parameter params i := by
  have front : ((params.take index).rightpad index .null ++ further).length =
      index + further.length := by rw [List.length_append, length_front]
  rw [parameter, insertParameters, List.getElem?_append_right (by omega), front,
    List.getElem?_drop, parameter]
  congr 2
  omega

end Parameters

/-! ## The tokens of a selection -/

theorem Stops.append {stop : Token → Bool} {front back : List Token} (first : Stops stop front)
    (second : Stops stop back) : Stops stop (front ++ back) := by
  cases front with
  | nil => exact second
  | cons t rest => exact first

theorem Stops.of_subset {names others : List String} {ts : List Token}
    (stops : Stops (·.isOneOf names) ts) (subset : names ⊆ others) :
    Stops (·.isOneOf others) ts := by
  intro t head
  obtain ⟨k, mem, isKeyword⟩ := List.any_eq_true.mp (stops t head)
  exact List.any_eq_true.mpr ⟨k, subset mem, isKeyword⟩

/-- No alias of a table, a word that is none of the keywords of a clause, or `AS` and a word. -/
inductive IsAlias : List Token → Prop
  | none : IsAlias []
  | word {quote : Option Char} {name : String}
    (noAs : (Token.word quote name).isKeyword "AS" = false)
    (noClause : (Token.word quote name).isOneOf clauseWords = false) : IsAlias [.word quote name]
  | as {t : Token} (isAs : t.isKeyword "AS" = true) (quote : Option Char) (name : String) :
    IsAlias [t, .word quote name]

/-- No `WHERE` clause, or one with conditions up to a keyword that ends them. -/
inductive IsWhereClause : List Token → Prop
  | none : IsWhereClause []
  | conditions {w : Token} {ts : List Token} (isWhere : w.isKeyword "WHERE" = true)
    (nested : Nested (·.isOneOf conditionEnds) ts) : IsWhereClause (w :: ts)

/-- Nothing, or tokens from a `GROUP` or `HAVING` on that a reader of any tokens up to `ORDER`,
`LIMIT` or `OFFSET` counts among the conditions. -/
structure IsGrouping (ts : List Token) : Prop where
  begins : Stops (·.isOneOf ["GROUP", "HAVING"]) ts
  nested : Nested (fun _ => false) ts
  plain : ∀ t ∈ ts, t.isOneOf ["ORDER", "LIMIT", "OFFSET"] = false

/-- No ordering, or one with terms up to a keyword that ends them. -/
inductive IsOrderClause : List Token → Prop
  | none : IsOrderClause []
  | terms {o by_ : Token} {ts : List Token} (isOrder : o.isKeyword "ORDER" = true)
    (isBy : by_.isKeyword "BY" = true) (nested : Nested (·.isOneOf orderStops) ts) :
    IsOrderClause (o :: by_ :: ts)

/-- The tokens of a selection from its verb on, clause by clause. -/
structure SelectTokens where
  quote : Option Char
  verb : String
  projection : List Token
  start : Token
  source : List Token
  tableName : String
  aliasing : List Token
  conditions : List Token
  grouping : List Token
  ordering : List Token
  window : List Token
  isSelect : Text.upperAscii verb = "SELECT"
  projects : Nested (·.isKeyword "FROM") projection
  isFrom : start.isKeyword "FROM" = true
  names : FieldTokens tableName source
  isAlias : IsAlias aliasing
  isWhereClause : IsWhereClause conditions
  isGrouping : IsGrouping grouping
  isOrderClause : IsOrderClause ordering
  isWindow : Stops (·.isOneOf orderStops) window

/-- Tokens that a selection skips: they begin with one of these keywords, if there are any, and
hold no keyword of a clause that it reads. -/
structure IsSkipped (names : List String) (ts : List Token) : Prop where
  begins : Stops (·.isOneOf names) ts
  noClause : ∀ t ∈ ts, t.isOneOf clauseWords = false

/-- Nothing, or further terms behind those of an ordering. -/
inductive IsFurther (ordering : List Token) : List Token → Prop
  | none : IsFurther ordering []
  | terms {ts : List Token} (nonempty : ordering ≠ []) (nested : Nested (·.isOneOf orderStops) ts) :
    IsFurther ordering (.comma :: ts)

namespace SelectTokens

/-- The tokens from the verb on, with these clauses behind the alias. -/
def withClauses (s : SelectTokens) (clauses : List Token) : List Token :=
  .word s.quote s.verb :: (s.projection ++ s.start :: (s.source ++ (s.aliasing ++ clauses)))

/-- All tokens of a selection. -/
def tokens (s : SelectTokens) : List Token :=
  s.withClauses (s.conditions ++ s.grouping ++ s.ordering ++ s.window)

/-- The number of placeholders in front of the alias. -/
def placeOfJoins (s : SelectTokens) : Nat := placeholders s.projection

/-- The number of placeholders in front of the ordering. -/
def placeOfGroups (s : SelectTokens) : Nat :=
  s.placeOfJoins + placeholders (s.conditions ++ s.grouping)

/-- The number of placeholders in front of the window. -/
def placeOfTerms (s : SelectTokens) : Nat := s.placeOfGroups + placeholders s.ordering

/-- Joins behind the table and its alias, groupings in front of the ordering, and further terms of
the ordering, with a parameter for each of their placeholders. -/
structure Inserted (s : SelectTokens) where
  joins : List Token
  groups : List Token
  terms : List Token
  joinValues : List Json
  groupValues : List Json
  termValues : List Json
  skipsJoins : IsSkipped ["JOIN", "INNER", "LEFT", "RIGHT", "CROSS"] joins
  skipsGroups : IsSkipped ["GROUP", "HAVING"] groups
  isFurther : IsFurther s.ordering terms
  joinCount : joinValues.length = placeholders joins
  groupCount : groupValues.length = placeholders groups
  termCount : termValues.length = placeholders terms

namespace Inserted

variable {s : SelectTokens}

/-- The clauses of the selection with what is inserted. -/
def clauses (i : s.Inserted) : List Token :=
  i.joins ++ (s.conditions ++ (s.grouping ++ (i.groups ++ ((s.ordering ++ i.terms) ++ s.window))))

/-- The tokens of the selection with what is inserted. -/
def tokens (i : s.Inserted) : List Token := s.withClauses i.clauses

/-- The parameters of the selection with those of what is inserted. -/
def parameters (i : s.Inserted) (params : List Json) : List Json :=
  insertParameters s.placeOfJoins i.joinValues
    (insertParameters s.placeOfGroups i.groupValues
      (insertParameters s.placeOfTerms i.termValues params))

/-- Nothing inserted. -/
def nothing (s : SelectTokens) : s.Inserted where
  joins := []
  groups := []
  terms := []
  joinValues := []
  groupValues := []
  termValues := []
  skipsJoins := ⟨.nil, nofun⟩
  skipsGroups := ⟨.nil, nofun⟩
  isFurther := .none
  joinCount := rfl
  groupCount := rfl
  termCount := rfl

/-- Other parameters are the same at the places of the selection. -/
structure SameAtPlaces (i : s.Inserted) (given params : List Json) : Prop where
  conditions : SameParameters given s.placeOfJoins params (s.placeOfJoins + placeholders i.joins)
    (placeholders (s.conditions ++ s.grouping))
  window : ∀ j, parameter params
      (s.placeOfTerms + j + placeholders i.terms + placeholders i.groups + placeholders i.joins) =
    parameter given (s.placeOfTerms + j)

theorem sameAtPlaces_parameters (i : s.Inserted) (params : List Json) :
    i.SameAtPlaces params (i.parameters params) where
  conditions := by
    intro j less
    have beforeGroups : s.placeOfJoins + j < s.placeOfGroups := Nat.add_lt_add_left less _
    have beforeTerms : s.placeOfJoins + j < s.placeOfTerms := Nat.lt_add_right _ beforeGroups
    rw [parameters, ← i.joinCount, Nat.add_right_comm,
      parameter_behind _ _ (Nat.le_add_right _ _), parameter_before _ _ beforeGroups,
      parameter_before _ _ beforeTerms]
  window := by
    intro j
    have behindTerms : s.placeOfTerms ≤ s.placeOfTerms + j := Nat.le_add_right _ _
    have behindGroups : s.placeOfGroups ≤ s.placeOfTerms + j + i.termValues.length := by
      rw [placeOfTerms]
      omega
    have behindJoins : s.placeOfJoins ≤
        s.placeOfTerms + j + i.termValues.length + i.groupValues.length := by
      rw [placeOfTerms, placeOfGroups]
      omega
    rw [parameters, ← i.joinCount, ← i.groupCount, ← i.termCount, parameter_behind _ _ behindJoins,
      parameter_behind _ _ behindGroups, parameter_behind _ _ behindTerms]

theorem sameAtPlaces_nothing (s : SelectTokens) (params : List Json) :
    (nothing s).SameAtPlaces params params where
  conditions _ _ := rfl
  window _ := rfl

end Inserted

end SelectTokens

/-! ## What the clauses of a selection complete -/

theorem Completes.sameParameters {given params : List Json} {ts : List Token} {n k : Nat}
    {selection result : Select}
    (same : ∀ i, parameter params (k + i) = parameter given (n + i))
    (completes : Completes given ⟨ts, n⟩ selection result) :
    Completes params ⟨ts, k⟩ selection result := by
  have values : (fun i => parameter params (i + k)) = fun i => parameter given (i + n) := by
    funext i
    rw [Nat.add_comm i k, Nat.add_comm i n, same]
  have placed : place (parameter params) k ts = place (parameter given) n ts := by
    rw [← Nat.zero_add k, place_add, values, ← place_add, Nat.zero_add]
  intro fuel enough
  rw [← completes fuel enough, ← placed_clauses, ← placed_clauses]
  exact congrArg (Placed.clauses fuel · selection) placed

theorem IsWhereClause.leads {ts : List Token} (isWhereClause : IsWhereClause ts)
    (given : List Json) (n : Nat) (selection : Select) :
    ∃ last, Leads given n ts EndsConditions selection last := by
  cases isWhereClause with
  | none => exact ⟨selection, leads_nil selection⟩
  | conditions isWhere nested => exact leads_conditions given n isWhere nested selection

/-- An ordering completes the same with further terms. -/
theorem IsOrderClause.completes {ordering : List Token} (isOrderClause : IsOrderClause ordering)
    (selection : Select) :
    ∃ last, ∀ {further}, IsFurther ordering further → ∀ {params rest k result},
      Stops (·.isOneOf orderStops) rest →
        Completes params ⟨rest, k + placeholders (ordering ++ further)⟩ last result →
          Completes params ⟨(ordering ++ further) ++ rest, k⟩ selection result := by
  cases isOrderClause with
  | none =>
    refine ⟨selection, fun {further} isFurther => ?_⟩
    cases isFurther with
    | none => exact fun _ later => later
    | terms nonempty => exact absurd rfl nonempty
  | @terms o by_ ts isOrder isBy nested =>
    refine ⟨{ selection with order := order? (firstTerm ts) }, fun {further} isFurther => ?_⟩
    cases isFurther with
    | none =>
      rw [List.append_nil]
      intro params rest k result ends later
      exact completes_ordering isOrder isBy nested ends later
    | @terms more _ nestedMore =>
      have comma : Nested (·.isOneOf orderStops) (.comma :: more) :=
        .token nofun nofun rfl nestedMore
      rw [← firstTerm_append nested more]
      intro params rest k result ends later
      exact completes_ordering isOrder isBy (nested.append comma) ends later

/-! ## What the clauses begin with -/

theorem IsWhereClause.begins {ts : List Token} (isWhereClause : IsWhereClause ts) :
    Stops (·.isOneOf ["WHERE"]) ts := by
  cases isWhereClause with
  | none => exact .nil
  | conditions isWhere _ => exact .cons (isOneOf_singleton isWhere) _

theorem IsOrderClause.begins {ordering further : List Token}
    (isOrderClause : IsOrderClause ordering) (isFurther : IsFurther ordering further) :
    Stops (·.isOneOf ["ORDER"]) (ordering ++ further) := by
  cases isOrderClause with
  | none =>
    cases isFurther with
    | none => exact .nil
    | terms nonempty => exact absurd rfl nonempty
  | terms isOrder _ _ => exact .cons (isOneOf_singleton isOrder) _

namespace SelectTokens.Inserted

variable {s : SelectTokens} (i : s.Inserted)

/-- Behind the groupings there is an ordering, a window or the end. -/
theorem begins_ordering :
    Stops (·.isOneOf ["ORDER", "LIMIT", "OFFSET"]) (s.ordering ++ i.terms ++ s.window) :=
  .append ((s.isOrderClause.begins i.isFurther).of_subset (by decide))
    (s.isWindow.of_subset (by decide))

theorem endsConditions_groups :
    EndsConditions (i.groups ++ (s.ordering ++ i.terms ++ s.window)) :=
  Stops.append (i.skipsGroups.begins.of_subset (by decide))
    (i.begins_ordering.of_subset (by decide))

theorem endsConditions_grouping :
    EndsConditions (s.grouping ++ (i.groups ++ (s.ordering ++ i.terms ++ s.window))) :=
  Stops.append (s.isGrouping.begins.of_subset (by decide)) i.endsConditions_groups

/-- No clause begins like an alias. -/
theorem begins_clauses : Stops (·.isOneOf Parser.aliasStops) i.clauses := by
  have behind : Stops (·.isOneOf conditionEnds)
      (s.grouping ++ (i.groups ++ (s.ordering ++ i.terms ++ s.window))) :=
    i.endsConditions_grouping
  exact .append (i.skipsJoins.begins.of_subset (by decide))
    (.append (s.isWhereClause.begins.of_subset (by decide)) (behind.of_subset (by decide)))

end SelectTokens.Inserted

/-- With whatever is inserted, and the same parameters at its own places, the clauses of a selection
complete one selection. -/
theorem SelectTokens.completes (s : SelectTokens) (given : List Json) (t : Table) :
    ∃ result, ∀ (i : s.Inserted) (params : List Json), i.SameAtPlaces given params →
      Completes params ⟨i.clauses, s.placeOfJoins⟩ (Select.all t) result := by
  obtain ⟨filtered, conditions⟩ := s.isWhereClause.leads given s.placeOfJoins (Select.all t)
  obtain ⟨grouped, grouping⟩ := leads_plain given (s.placeOfJoins + placeholders s.conditions)
    s.isGrouping.plain (s.isGrouping.nested.depthBehind 0) filtered
  obtain ⟨ordered, ordering⟩ := s.isOrderClause.completes grouped
  obtain ⟨result, window, -⟩ := completes_exists given ⟨s.window, s.placeOfTerms⟩ ordered
  refine ⟨result, fun i params same => ?_⟩
  have places := same.conditions
  rw [placeholders_append] at places
  obtain ⟨placesConditions, placesGrouping⟩ := places.split
  refine completes_skip i.skipsJoins.noClause ?_
  refine conditions params _ _ _ i.endsConditions_grouping placesConditions ?_
  refine grouping params _ _ _ i.endsConditions_groups placesGrouping ?_
  refine completes_skip i.skipsGroups.noClause ?_
  refine ordering i.isFurther s.isWindow (window.sameParameters fun j => ?_)
  rw [← same.window j, placeOfTerms, placeOfGroups, placeholders_append, placeholders_append]
  congr 1
  omega

/-! ## Selections -/

theorem run_name_fieldTokens {n : String} {source rest : List Token} (names : FieldTokens n source)
    (noPeriod : rest.head? ≠ some .period) (k : Nat) :
    Parser.name.run ⟨source ++ rest, k⟩ = .ok (n, ⟨rest, k⟩) := by
  cases names with
  | plain quote => exact Parser.run_name quote n noPeriod k
  | qualified quote qualifier quote' =>
    have last := Parser.run_name quote' n noPeriod k
    rw [Parser.run_name_word] at last
    exact (Parser.run_name_word quote qualifier _ k).trans last

/-- An alias is skipped, or its word is skipped behind it as one that belongs to no clause. -/
theorem IsAlias.skips {aliasing : List Token} (isAlias : IsAlias aliasing) {params : List Json}
    {clauses : List Token} (begins : Stops (·.isOneOf Parser.aliasStops) clauses) {k : Nat}
    {selection result : Select} (completes : Completes params ⟨clauses, k⟩ selection result) :
    ∃ c, Parser.skipAlias.run ⟨aliasing ++ clauses, k⟩ = .ok ((), c) ∧
      Completes params c selection result := by
  cases isAlias with
  | none =>
    refine ⟨⟨clauses, k⟩, ?_, completes⟩
    cases clauses with
    | nil => rfl
    | cons t rest =>
      have stops : t.isOneOf Parser.aliasStops = true := begins t rfl
      have noAs : t.isKeyword "AS" = false := isKeyword_other stops (by decide)
      cases t with
      | word quote name =>
        have skipped := Parser.run_skipAlias_word quote name rest k noAs
        rwa [if_pos stops] at skipped
      | _ => cases stops
  | @word quote name noAs noClause =>
    have skipped := Parser.run_skipAlias_word quote name clauses k noAs
    split at skipped
    · have noClause : ∀ t ∈ [Token.word quote name], t.isOneOf clauseWords = false := by
        rwa [List.forall_mem_singleton]
      exact ⟨_, skipped, completes_skip noClause completes⟩
    · exact ⟨_, skipped, completes⟩
  | @as t isAs quote name =>
    exact ⟨_, Parser.run_skipAlias_as (.word quote name :: clauses) k isAs, completes⟩

theorem SelectTokens.run_table (s : SelectTokens) {rest : List Token}
    (noPeriod : rest.head? ≠ some .period) (k : Nat) :
    Parser.table.run ⟨s.source ++ rest, k⟩ =
      match Table.lookup? s.tableName with
      | some t => .ok (t, ⟨rest, k⟩)
      | none => .error (.unknownTable s.tableName) := by
  refine (Parser.run_then _ (run_name_fieldTokens s.names noPeriod k)).trans ?_
  cases Table.lookup? s.tableName <;> rfl

/-- No name goes on with an alias or a clause. -/
theorem IsAlias.no_period {aliasing clauses : List Token} (isAlias : IsAlias aliasing)
    (begins : Stops (·.isOneOf Parser.aliasStops) clauses) :
    (aliasing ++ clauses).head? ≠ some .period := by
  cases isAlias with
  | none => exact fun period => absurd (begins .period period) (by decide)
  | word => exact nofun
  | as isAs =>
    rintro ⟨⟩
    cases isAs

/-- A selection from a known table is what its clauses complete. -/
theorem SelectTokens.run'_statement (s : SelectTokens) {params : List Json}
    {clauses : List Token} {result : Table → Select}
    (begins : Stops (·.isOneOf Parser.aliasStops) clauses)
    (completes : ∀ t, Completes params ⟨clauses, s.placeOfJoins⟩ (Select.all t) (result t)) :
    (Parser.statement params).run' ⟨s.withClauses clauses, 0⟩ =
      match Table.lookup? s.tableName with
      | some t => .ok (.select (result t))
      | none => .error (.unknownTable s.tableName) := by
  let behind := s.source ++ (s.aliasing ++ clauses)
  have skips : (modify (Parser.skipBefore (·.isKeyword "FROM")) : Parser PUnit).run
      ⟨s.projection ++ s.start :: behind, 0⟩ = .ok ((), ⟨s.start :: behind, s.placeOfJoins⟩) := by
    have isFrom : Stops (·.isKeyword "FROM") (s.start :: behind) := .cons s.isFrom behind
    have split : splitBefore (·.isKeyword "FROM") 0 (s.projection ++ s.start :: behind) =
        (s.projection, s.start :: behind) := by
      rw [splitBefore_nested s.projects rfl fun _ _ => id, splitBefore_stops isFrom,
        List.append_nil]
    change Except.ok ((), Parser.skipBefore _ ⟨s.projection ++ s.start :: behind, 0⟩) = _
    rw [Parser.skipBefore, split]
    dsimp only
    rw [Nat.zero_add]
    rfl
  have eats : (Parser.expectKeyword "FROM").run ⟨s.start :: behind, s.placeOfJoins⟩ =
      .ok ((), ⟨behind, s.placeOfJoins⟩) := by
    have found : (Parser.eatKeyword "FROM").run ⟨s.start :: behind, s.placeOfJoins⟩ =
        .ok (true, ⟨behind, s.placeOfJoins⟩) := by
      rw [Parser.eatKeyword, Parser.run_eatIf, if_pos s.isFrom]
    exact Parser.run_then _ found
  have table := s.run_table (s.isAlias.no_period begins) s.placeOfJoins
  rw [withClauses, run_statement_word, s.isSelect]
  dsimp only
  rw [if_pos rfl]
  refine (Parser.run'_then _ skips).trans ?_
  refine (Parser.run'_then _ eats).trans ?_
  cases known : Table.lookup? s.tableName with
  | none =>
    rw [known] at table
    rw [StateT.run'_eq, StateT.run_bind, table]
    rfl
  | some t =>
    rw [known] at table
    obtain ⟨c, skipsAlias, later⟩ := s.isAlias.skips begins (completes t)
    refine (Parser.run'_then _ table).trans ?_
    refine (Parser.run'_then _ skipsAlias).trans ?_
    exact congrArg (fun selection => Except.ok (Statement.select selection))
      (later _ (Nat.le_refl _))

/-- What a selection skips leaves the statement of a text as it is, and the errors. -/
theorem skipped_clauses_ignored (s : SelectTokens) (i : s.Inserted) (params : List Json)
    {tokens tokens' : List Token} (original : dropSemicolons tokens = s.tokens)
    (extended : dropSemicolons tokens' = i.tokens) :
    ofTokens tokens' (i.parameters params) = ofTokens tokens params ∧
      ∀ text text', scan text = .ok tokens → scan text' = .ok tokens' →
        parse text' (i.parameters params) = parse text params := by
  have same : ofTokens tokens' (i.parameters params) = ofTokens tokens params := by
    choose result completes using s.completes params
    have bare : s.tokens = (SelectTokens.Inserted.nothing s).tokens := by
      simp [SelectTokens.tokens, SelectTokens.Inserted.tokens, SelectTokens.Inserted.clauses,
        SelectTokens.Inserted.nothing]
    have sameHere := SelectTokens.Inserted.sameAtPlaces_nothing s params
    have sameThere := i.sameAtPlaces_parameters params
    have here := s.run'_statement (SelectTokens.Inserted.nothing s).begins_clauses
      fun t => completes t _ params sameHere
    have there := s.run'_statement i.begins_clauses fun t => completes t i _ sameThere
    rw [ofTokens, ofTokens, original, extended, bare]
    exact there.trans here.symm
  refine ⟨same, fun text text' scans scans' => ?_⟩
  rwa [parse, parse, scans, scans']

/-- The tokens of `SELECT ? FROM pages p WHERE (a OR b) AND slug = ? ORDER BY sort_order
LIMIT ?`. -/
def slugSelection : SelectTokens where
  quote := none
  verb := "SELECT"
  projection := [slot]
  start := keyword "FROM"
  source := [keyword "pages"]
  tableName := "pages"
  aliasing := [keyword "p"]
  conditions := keyword "WHERE" :: .leftParen :: ([keyword "a", keyword "OR", keyword "b"] ++
    .rightParen :: [keyword "AND", keyword "slug", .equal, slot])
  grouping := []
  ordering := [keyword "ORDER", keyword "BY", keyword "sort_order"]
  window := [keyword "LIMIT", slot]
  isSelect := by decide
  projects := nested_plain (by decide)
  isFrom := rfl
  names := .plain none
  isAlias := .word (by decide) (by decide)
  isWhereClause := .conditions rfl (.parens (nested_plain (by decide)) (nested_plain (by decide)))
  isGrouping := ⟨.nil, .nil, nofun⟩
  isOrderClause := .terms rfl rfl (nested_plain (by decide))
  isWindow := .cons rfl [slot]

/-- A join, a grouping with an open parenthesis, and a further term, each with one parameter. -/
def slugInserted : slugSelection.Inserted where
  joins := [keyword "LEFT", keyword "JOIN", keyword "users", keyword "ON", slot]
  groups := [keyword "GROUP", keyword "BY", .leftParen, keyword "a", slot]
  terms := .comma :: keyword "f" :: .leftParen :: ([slot] ++ .rightParen :: [])
  joinValues := [.text "u"]
  groupValues := [.text "g"]
  termValues := [.text "t"]
  skipsJoins := ⟨.cons rfl _, by decide⟩
  skipsGroups := ⟨.cons rfl _, by decide⟩
  isFurther := .terms nofun (.token nofun nofun rfl (.parens (nested_plain (by decide)) .nil))
  joinCount := rfl
  groupCount := rfl
  termCount := rfl

/-- The parameters of the selection stay with its own placeholders, in the projection, in the
condition and in the window. -/
theorem skipped_clauses_ignored_slug :
    let text := "SELECT ? FROM pages p WHERE (a OR b) AND slug = ? ORDER BY sort_order LIMIT ?;"
    let text' := "SELECT ? FROM pages p LEFT JOIN users ON ? WHERE (a OR b) AND slug = ? " ++
      "GROUP BY (a ? ORDER BY sort_order, f(?) LIMIT ?;"
    let tokens := slugSelection.tokens ++ [.semicolon]
    let tokens' := slugInserted.tokens ++ [.semicolon]
    let params : List Json := [.null, .text "home", .text "3"]
    let params' : List Json := [.null, .text "u", .text "home", .text "g", .text "t", .text "3"]
    scan text = .ok tokens ∧ dropSemicolons tokens = slugSelection.tokens ∧
      scan text' = .ok tokens' ∧ dropSemicolons tokens' = slugInserted.tokens ∧
        slugInserted.parameters params = params' ∧
          parse text params = .ok (.select
            ⟨.pages, [.slug (.text "home")], some .sortOrder, some 3, none⟩) ∧
            parse text' params' = parse text params := by
  intro text text' tokens tokens' params params'
  have scans : scan text = .ok tokens := by decide +kernel
  have scans' : scan text' = .ok tokens' := by decide +kernel
  have original : dropSemicolons tokens = slugSelection.tokens := rfl
  have extended : dropSemicolons tokens' = slugInserted.tokens := rfl
  have same := skipped_clauses_ignored slugSelection slugInserted params original extended
  refine ⟨scans, original, scans', extended, rfl, ?_, same.2 text text' scans scans'⟩
  rw [parse, scans]
  rfl

end ContentStore.Sql
