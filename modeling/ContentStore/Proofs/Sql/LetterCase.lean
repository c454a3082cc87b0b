import ContentStore.Proofs.Sql.Conditions
import ContentStore.Proofs.Sql.SameButCase
/-!
# Statements in any letter case

Tokens that are the same but for case make statements that are the same but for case, or fail to
make one for the same reason (`parse_sameButCase`): the two statements do the same to the same
table, and only the names of fields may be written in another case.
-/

namespace ContentStore.Sql

open Token (placeholders)
open scoped Relator

/-! ## Statements that are the same but for case -/

/-- Two filters are one, or compare fields of one name but for case with one value. -/
inductive Filter.SameButCase : Filter → Filter → Prop
  | refl (f : Filter) : SameButCase f f
  | field {a b : String} (same : SameName a b) (v : Json) : SameButCase (.field a v) (.field b v)

/-- Two assignments of one value to fields of one name but for case. -/
structure Assignment.SameButCase (a b : Assignment) : Prop where
  field : SameName a.field b.field
  assigned : a.assigned = b.assigned

/-- Two selections differ at most in the case of the fields that they compare. -/
structure Select.SameButCase (s s' : Select) : Prop where
  table : s.table = s'.table
  filters : List.Forall₂ Filter.SameButCase s.filters s'.filters
  order : s.order = s'.order
  limit : s.limit = s'.limit
  offset : s.offset = s'.offset

/-- Two statements of one form differ at most in the case of their fields. -/
inductive Statement.SameButCase : Statement → Statement → Prop
  | select {s s' : Select} (same : s.SameButCase s') : SameButCase (.select s) (.select s')
  | insert (t : Table) {values values' : List Assignment}
    (same : List.Forall₂ Assignment.SameButCase values values') :
    SameButCase (.insert t values) (.insert t values')
  | update (t : Table) (id : Json) {changes changes' : List Assignment}
    (same : List.Forall₂ Assignment.SameButCase changes changes') :
    SameButCase (.update t id changes) (.update t id changes')
  | delete (t : Table) (id : Json) : SameButCase (.delete t id) (.delete t id)

/-! ## Conditions -/

section Conditions

variable {ts us : List Token}

theorem Token.SameButCase.of_word {quote : Option Char} {a : String} {u : Token}
    (same : (Token.word quote a).SameButCase u) : ∃ b, u = .word quote b ∧ SameName a b := by
  cases same with
  | refl => exact ⟨a, rfl, Text.sameLetters_refl a⟩
  | word same => exact ⟨_, rfl, same⟩

theorem splitBefore_sameButCase {stop : Token → Bool} (insensitive : Insensitive stop)
    (same : SameButCase ts us) (depth : Nat) :
    SameButCase (splitBefore stop depth ts).1 (splitBefore stop depth us).1 ∧
      SameButCase (splitBefore stop depth ts).2 (splitBefore stop depth us).2 := by
  induction same generalizing depth with
  | nil => exact ⟨.nil, .nil⟩
  | @cons t u ts us first rest ih =>
    rw [splitBefore, splitBefore, insensitive t u first, depthAfter_sameButCase first]
    split
    · exact ⟨.nil, .cons first rest⟩
    · exact ⟨.cons first (ih _).1, (ih _).2⟩

/-- The conditions end at the same places. -/
theorem splitConditions_sameButCase (same : SameButCase ts us) (depth : Nat) :
    List.Forall₂ SameButCase (splitConditions depth ts).1 (splitConditions depth us).1 ∧
      SameButCase (splitConditions depth ts).2 (splitConditions depth us).2 := by
  induction same generalizing depth with
  | nil => exact ⟨.cons .nil .nil, .nil⟩
  | @cons t u ts us first rest ih =>
    have isAnd : t.isKeyword "AND" = u.isKeyword "AND" := insensitive_isKeyword "AND" t u first
    have stops : t.isOneOf conditionStops = u.isOneOf conditionStops :=
      insensitive_isOneOf conditionStops t u first
    rw [splitConditions, splitConditions, isAnd, stops, depthAfter_sameButCase first]
    split
    · exact ⟨.cons .nil (ih 0).1, (ih 0).2⟩
    split
    · exact ⟨.cons .nil .nil, .cons first rest⟩
    · obtain ⟨conditions, left⟩ := ih (depthAfter depth u)
      dsimp only
      generalize (splitConditions (depthAfter depth u) ts).1 = cs at conditions ⊢
      generalize (splitConditions (depthAfter depth u) us).1 = ds at conditions ⊢
      cases conditions with
      | nil => exact ⟨.cons (.cons first .nil) .nil, left⟩
      | cons front others => exact ⟨.cons (.cons first front) others, left⟩

theorem operand?_sameButCase (same : SameButCase ts us) : operand? ts = operand? us := by
  have forward : ∀ {ts us : List Token} {o : Operand}, SameButCase ts us →
      operand? ts = some o → operand? us = some o := by
    intro ts us o same reads
    unfold operand? at reads
    split at reads
    · obtain _ | ⟨⟨_⟩, ⟨⟩⟩ := same
      exact reads
    · obtain _ | ⟨⟨_⟩, ⟨⟩⟩ := same
      exact reads
    · obtain _ | ⟨⟨_⟩, _ | ⟨⟨_⟩, ⟨⟩⟩⟩ := same
      exact reads
    · obtain _ | ⟨⟨_⟩, ⟨⟩⟩ := same
      exact reads
    · obtain _ | ⟨first, ⟨⟩⟩ := same
      obtain ⟨b, rfl, sameName⟩ := first.of_word
      simpa only [operand?, Text.sameLetters_congr sameName] using reads
    · obtain _ | ⟨first, _ | ⟨⟨_⟩, _ | ⟨⟨_⟩, ⟨⟩⟩⟩⟩ := same
      obtain ⟨b, rfl, sameName⟩ := first.of_word
      simpa only [operand?, Text.sameLetters_congr sameName] using reads
    · cases reads
  exact Option.ext fun o => ⟨forward same, forward same.symm⟩

/-- A field with a name but for case and the same value or operand. -/
abbrev SameField {α : Type} (x y : String × α) : Prop := SameName x.1 y.1 ∧ x.2 = y.2

theorem FieldTokens.sameButCase {field : String} {name operand : List Token} {mark : Token}
    (noWord : Grammar.isWord mark = false) (names : FieldTokens field name)
    (same : SameButCase (name ++ mark :: operand) us) :
    ∃ field' name' operand', us = name' ++ mark :: operand' ∧ FieldTokens field' name' ∧
      SameName field field' ∧ SameButCase operand operand' := by
  have isMark : ∀ {u : Token}, mark.SameButCase u → u = mark := by
    intro u same
    cases same with
    | refl => rfl
    | word => cases noWord
  cases names with
  | plain quote =>
    obtain _ | ⟨first, _ | ⟨second, rest⟩⟩ := same
    obtain ⟨b, rfl, sameName⟩ := first.of_word
    cases isMark second
    exact ⟨b, _, _, rfl, .plain quote, sameName, rest⟩
  | qualified quote qualifier quote' =>
    obtain _ | ⟨first, _ | ⟨⟨_⟩, _ | ⟨third, _ | ⟨fourth, rest⟩⟩⟩⟩ := same
    obtain ⟨b, rfl, -⟩ := first.of_word
    obtain ⟨c, rfl, sameName⟩ := third.of_word
    cases isMark fourth
    exact ⟨c, _, _, rfl, .qualified quote b quote', sameName, rest⟩

theorem comparison?_sameButCase (same : SameButCase ts us) :
    Option.Rel SameField (comparison? ts) (comparison? us) := by
  have forward : ∀ {ts us : List Token} {field : String} {o : Operand}, SameButCase ts us →
      comparison? ts = some (field, o) →
        ∃ field', SameName field field' ∧ comparison? us = some (field', o) := by
    intro ts us field o same compares
    obtain ⟨operand, compares, reads⟩ := comparison?_iff.mp compares
    cases compares with
    | equal names =>
      obtain ⟨field', name', operand', rfl, names', sameName, rest⟩ := names.sameButCase rfl same
      rw [operand?_sameButCase rest] at reads
      exact ⟨field', sameName, comparison?_iff.mpr ⟨operand', .equal names', reads⟩⟩
    | doubleEqual names =>
      obtain ⟨field', name', operand', rfl, names', sameName, rest⟩ := names.sameButCase rfl same
      rw [operand?_sameButCase rest] at reads
      exact ⟨field', sameName, comparison?_iff.mpr ⟨operand', .doubleEqual names', reads⟩⟩
  cases compares : comparison? ts with
  | some x =>
    obtain ⟨field', sameName, compares'⟩ := forward same compares
    rw [compares']
    exact .some ⟨sameName, rfl⟩
  | none =>
    cases compares' : comparison? us with
    | none => exact .none
    | some y =>
      obtain ⟨field, -, found⟩ := forward same.symm compares'
      rw [found] at compares
      cases compares

end Conditions

/-! ## Filters -/

/-- What has been found differs at most in the case of the other field. -/
structure Found.SameButCase (a b : Found) : Prop where
  isActive : a.isActive = b.isActive
  id : a.id = b.id
  slug : a.slug = b.slug
  other : Option.Rel SameField a.other b.other
  bound : a.bound = b.bound

theorem Found.add_sameButCase (params : List Json) {found found' : Found}
    (same : found.SameButCase found') {condition condition' : List Token}
    (tokens : Sql.SameButCase condition condition') :
    (found.add params condition).SameButCase (found'.add params condition') := by
  obtain ⟨isActive, id, slug, other, bound⟩ := found
  obtain ⟨isActive', id', slug', other', bound'⟩ := found'
  obtain ⟨rfl, rfl, rfl, others, rfl⟩ := same
  have compares := comparison?_sameButCase tokens
  unfold Found.add
  dsimp only
  rw [placeholders_sameButCase tokens]
  generalize comparison? condition = x at compares ⊢
  generalize comparison? condition' = y at compares ⊢
  cases compares with
  | none => exact ⟨rfl, rfl, rfl, others, rfl⟩
  | @some x y related =>
    obtain ⟨field, operand⟩ := x
    obtain ⟨field', operand'⟩ := y
    obtain ⟨sameName, rfl⟩ := related
    cases operand with
    | now => exact ⟨rfl, rfl, rfl, others, rfl⟩
    | literal v =>
      dsimp only
      rw [Text.sameLetters_congr sameName]
      split <;> exact ⟨rfl, rfl, rfl, others, rfl⟩
    | parameter =>
      dsimp only
      rw [Text.sameLetters_congr sameName, Text.sameLetters_congr sameName,
        Text.sameLetters_congr sameName]
      split
      · exact ⟨rfl, rfl, rfl, others, rfl⟩
      split
      · exact ⟨rfl, rfl, rfl, others, rfl⟩
      split
      · exact ⟨rfl, rfl, rfl, others, rfl⟩
      · refine ⟨rfl, rfl, rfl, ?_, rfl⟩
        cases others with
        | none => exact .some ⟨sameName, rfl⟩
        | some related => exact .some related

theorem findFilters_sameButCase (params : List Json) (bound : Nat)
    {conditions conditions' : List (List Token)}
    (same : List.Forall₂ SameButCase conditions conditions') :
    (findFilters params bound conditions).SameButCase (findFilters params bound conditions') := by
  have step : (Found.SameButCase ⇒ SameButCase ⇒ Found.SameButCase) (Found.add params)
      (Found.add params) :=
    fun _ _ found _ _ tokens => Found.add_sameButCase params found tokens
  exact List.rel_foldl step ⟨rfl, rfl, rfl, .none, rfl⟩ same

theorem Found.filters_sameButCase {found found' : Found} (same : found.SameButCase found') :
    List.Forall₂ Filter.SameButCase found.filters found'.filters := by
  obtain ⟨isActive, id, slug, other, bound⟩ := found
  obtain ⟨isActive', id', slug', other', bound'⟩ := found'
  obtain ⟨rfl, rfl, rfl, others, rfl⟩ := same
  unfold Found.filters
  dsimp only
  generalize (if isActive = true then [Filter.isActive] else []) ++ (id.map Filter.id).toList ++
    (slug.map Filter.slug).toList = named
  split
  · cases others with
    | none => exact .nil
    | @some x y related =>
      obtain ⟨name, v⟩ := x
      obtain ⟨name', v'⟩ := y
      obtain ⟨sameName, rfl⟩ := related
      exact .cons (.field sameName v) .nil
  · exact List.forall₂_same.mpr fun f _ => .refl f

/-! ## Selections -/

section Selections

variable {ts us : List Token}

theorem orderOf?_sameButCase (same : SameButCase ts us) : orderOf? ts = orderOf? us := by
  cases same with
  | nil => rfl
  | @cons t u ts us first rest =>
    have isKeyword : ∀ k, t.isKeyword k = u.isKeyword k :=
      fun k => insensitive_isKeyword k t u first
    cases rest with
    | nil => rw [orderOf?, orderOf?, isKeyword]
    | @cons t' u' ts us second rest =>
      have isKeyword' : ∀ k, t'.isKeyword k = u'.isKeyword k :=
        fun k => insensitive_isKeyword k t' u' second
      cases rest with
      | nil => simp only [orderOf?, isKeyword, isKeyword']
      | cons _ _ => rfl

theorem order?_sameButCase (same : SameButCase ts us) : order? ts = order? us := by
  by_cases qualified : ∃ quote n rest, ts = .word quote n :: .period :: rest
  · obtain ⟨quote, n, rest, rfl⟩ := qualified
    obtain _ | ⟨first, _ | ⟨⟨_⟩, rest⟩⟩ := same
    obtain ⟨b, rfl, -⟩ := first.of_word
    exact orderOf?_sameButCase rest
  · have plain : ∀ quote n rest, ts ≠ .word quote n :: .period :: rest :=
      fun quote n rest split => qualified ⟨quote, n, rest, split⟩
    have plain' : ∀ quote n rest, us ≠ .word quote n :: .period :: rest := by
      rintro quote n rest rfl
      obtain _ | ⟨first, _ | ⟨⟨_⟩, rest⟩⟩ := same.symm
      obtain ⟨b, rfl, -⟩ := first.of_word
      exact plain _ _ _ rfl
    rw [order?.eq_2 _ plain, order?.eq_2 _ plain']
    exact orderOf?_sameButCase same

end Selections

namespace Parser

variable {c d : Cursor} (same : c.SameButCase d)
include same

theorem skipBefore_sameButCase {stop : Token → Bool} (insensitive : Insensitive stop) :
    (skipBefore stop c).SameButCase (skipBefore stop d) := by
  obtain ⟨taken, left⟩ := splitBefore_sameButCase insensitive same.rest 0
  refine ⟨left, ?_⟩
  show c.bound + _ = d.bound + _
  rw [same.bound, placeholders_sameButCase taken]

theorem whereClause_sameButCase (params : List Json) :
    List.Forall₂ Filter.SameButCase (whereClause params c).1 (whereClause params d).1 ∧
      (whereClause params c).2.SameButCase (whereClause params d).2 := by
  obtain ⟨conditions, left⟩ := splitConditions_sameButCase same.rest 0
  have found := findFilters_sameButCase params c.bound conditions
  rw [whereClause, whereClause, ← same.bound]
  exact ⟨Found.filters_sameButCase found, left, found.bound⟩

theorem orderClause_sameButCase :
    (orderClause c).1 = (orderClause d).1 ∧
      (orderClause c).2.SameButCase (orderClause d).2 := by
  have stops := insensitive_isOneOf orderStops
  have ends : Insensitive fun t => t == .comma || t.isOneOf orderStops := by
    intro t u tokens
    have comma : (t == .comma) = (u == .comma) := insensitive_mark rfl t u tokens
    have stop : t.isOneOf orderStops = u.isOneOf orderStops := stops t u tokens
    show (_ || _) = (_ || _)
    rw [comma, stop]
  obtain ⟨term, left⟩ := splitBefore_sameButCase ends same.rest 0
  refine ⟨order?_sameButCase term, skipBefore_sameButCase ⟨left, ?_⟩ stops⟩
  show c.bound + _ = d.bound + _
  rw [same.bound, placeholders_sameButCase term]

theorem countClause_sameButCase (params : List Json) :
    (countClause params c).1 = (countClause params d).1 ∧
      (countClause params c).2.SameButCase (countClause params d).2 := by
  obtain ⟨ts, k⟩ := c
  obtain ⟨us, l⟩ := d
  obtain ⟨rest, bound⟩ := same
  cases bound
  cases rest with
  | nil => exact ⟨rfl, .nil, rfl⟩
  | @cons t u ts us first rest =>
    have stops : t.isOneOf conditionStops = u.isOneOf conditionStops :=
      insensitive_isOneOf conditionStops t u first
    unfold countClause
    dsimp only
    rw [stops]
    split
    · exact ⟨rfl, .cons first rest, rfl⟩
    · cases first with
      | word => exact ⟨rfl, rest, rfl⟩
      | refl => cases t <;> exact ⟨rfl, rest, rfl⟩

variable {selection selection' : Select} (selections : selection.SameButCase selection')
include selections

theorem limitClause_sameButCase (params : List Json) :
    (limitClause params c selection).1.SameButCase (limitClause params d selection').1 ∧
      (limitClause params c selection).2.SameButCase (limitClause params d selection').2 := by
  obtain ⟨table, filters, order, limit, offset⟩ := selections
  have count := countClause_sameButCase same params
  unfold limitClause
  generalize countClause params c = x at count ⊢
  generalize countClause params d = y at count ⊢
  obtain ⟨first, ts, k⟩ := x
  obtain ⟨first', us, l⟩ := y
  obtain ⟨rfl, rest, bound⟩ := count
  cases bound
  have one : (Select.mk selection.table selection.filters selection.order first
      selection.offset).SameButCase
      ⟨selection'.table, selection'.filters, selection'.order, first, selection'.offset⟩ :=
    ⟨table, filters, order, rfl, offset⟩
  cases rest with
  | nil => exact ⟨one, .nil, rfl⟩
  | @cons t u ts us token rest =>
    cases token with
    | word same => exact ⟨one, .cons (.word same) rest, rfl⟩
    | refl =>
      cases t with
      | comma =>
        have second := countClause_sameButCase (c := ⟨ts, k⟩) (d := ⟨us, k⟩) ⟨rest, rfl⟩ params
        exact ⟨⟨table, filters, order, second.1, rfl⟩, second.2⟩
      | _ => exact ⟨one, .cons (.refl _) rest, rfl⟩

/-- A clause reads the same from both, and an unknown token is skipped in both. -/
theorem clause_sameButCase (params : List Json) {t u : Token} (first : t.SameButCase u) :
    (clause params t c selection).1.SameButCase (clause params u d selection').1 ∧
      (clause params t c selection).2.SameButCase (clause params u d selection').2 := by
  have isKeyword : ∀ k, t.isKeyword k = u.isKeyword k :=
    fun k => insensitive_isKeyword k t u first
  obtain ⟨table, filters, order, limit, offset⟩ := selections
  unfold clause
  rw [isKeyword, isKeyword, isKeyword, isKeyword]
  split
  · have conditions := whereClause_sameButCase same params
    exact ⟨⟨table, conditions.1, order, limit, offset⟩, conditions.2⟩
  split
  · obtain ⟨ts, k⟩ := c
    obtain ⟨us, l⟩ := d
    obtain ⟨rest, bound⟩ := same
    cases bound
    cases rest with
    | nil => exact ⟨⟨table, filters, order, limit, offset⟩, .nil, rfl⟩
    | @cons by_ by_' ts us second rest =>
      have isBy : by_.isKeyword "BY" = by_'.isKeyword "BY" :=
        insensitive_isKeyword "BY" by_ by_' second
      dsimp only
      rw [isBy]
      split
      · have terms := orderClause_sameButCase (c := ⟨ts, k⟩) (d := ⟨us, k⟩) ⟨rest, rfl⟩
        exact ⟨⟨table, filters, terms.1, limit, offset⟩, terms.2⟩
      · exact ⟨⟨table, filters, order, limit, offset⟩, .cons second rest, rfl⟩
  split
  · exact limitClause_sameButCase same ⟨table, filters, order, limit, offset⟩ params
  split
  · have count := countClause_sameButCase same params
    exact ⟨⟨table, filters, order, limit, count.1⟩, count.2⟩
  · have skipped : placeholders [t] = placeholders [u] :=
      placeholders_sameButCase (.cons first .nil)
    refine ⟨⟨table, filters, order, limit, offset⟩, same.rest, ?_⟩
    show c.bound + placeholders [t] = d.bound + placeholders [u]
    rw [same.bound, skipped]

theorem clauses_sameButCase (params : List Json) (fuel : Nat) :
    (clauses params fuel c selection).SameButCase (clauses params fuel d selection') := by
  induction fuel generalizing c d selection selection' with
  | zero => exact selections
  | succ fuel ih =>
    obtain ⟨ts, k⟩ := c
    obtain ⟨us, l⟩ := d
    obtain ⟨rest, bound⟩ := same
    cases bound
    cases rest with
    | nil => exact selections
    | @cons t u ts us first rest =>
      have step := clause_sameButCase (c := ⟨ts, k⟩) (d := ⟨us, k⟩) ⟨rest, rfl⟩ selections params
        first
      exact ih step.2 step.1

end Parser

/-! ## Statements -/

namespace Parser

theorem alike_select (params : List Json) :
    Alike Statement.SameButCase (select params) (select params) := by
  have skips : Alike Eq (modify (skipBefore (·.isKeyword "FROM")))
      (modify (skipBefore (·.isKeyword "FROM"))) := fun c d same =>
    .ok ⟨rfl, skipBefore_sameButCase same (insensitive_isKeyword "FROM")⟩
  refine alike_then skips fun _ => ?_
  refine alike_then (alike_expectKeyword "FROM") fun _ => ?_
  refine alike_then alike_table fun t => ?_
  refine alike_then alike_skipAlias fun _ c d same => ?_
  have fuel : c.rest.length = d.rest.length := same.rest.length_eq
  have all : (Select.all t).SameButCase (Select.all t) := ⟨rfl, .nil, rfl, rfl, rfl⟩
  have read := clauses_sameButCase same all params d.rest.length
  refine .ok ⟨.select ?_, same⟩
  show (clauses params c.rest.length c _).SameButCase (clauses params d.rest.length d _)
  rw [fuel]
  exact read

theorem alike_assign {columns columns' : List String}
    (names : List.Forall₂ SameName columns columns') (values : List Assigned) :
    Alike (List.Forall₂ Assignment.SameButCase) (assign columns values)
      (assign columns' values) := by
  unfold assign
  rw [names.length_eq]
  split
  · refine alike_pure ?_
    clear * - names
    induction names generalizing values with
    | nil => exact .nil
    | cons name _ ih =>
      cases values with
      | nil => exact .nil
      | cons v values => exact .cons ⟨name, rfl⟩ (ih values)
  · exact alike_fail (.refl _)

theorem alike_values (params : List Json) :
    Alike Eq (list (value params)) (list (value params)) := by
  have read := alike_list (alike_value params)
  rwa [List.forall₂_eq_eq_eq] at read

/-- Reads the values of an insertion to its end, and goes on with them. -/
def insertedValues (params : List Json) (last : List Assigned → Parser Statement) :
    Parser Statement := do
  unless ← eatKeyword "VALUES" do throw (.unsupported .insertWithoutValues)
  expectToken .leftParen
  let values ← list (value params)
  expectToken .rightParen
  expectEnd
  last values

theorem alike_insertedValues (params : List Json) {last last' : List Assigned → Parser Statement}
    (next : ∀ values, Alike Statement.SameButCase (last values) (last' values)) :
    Alike Statement.SameButCase (insertedValues params last) (insertedValues params last') := by
  refine alike_then (alike_eatKeyword "VALUES") fun found => ?_
  cases found with
  | false => exact alike_throw (.unsupported _)
  | true =>
    refine alike_then (alike_expectToken rfl) fun _ => ?_
    refine alike_then (alike_values params) fun values => ?_
    refine alike_then (alike_expectToken rfl) fun _ => ?_
    exact alike_then alike_expectEnd fun _ => next values

theorem alike_insert (params : List Json) :
    Alike Statement.SameButCase (insert params) (insert params) := by
  refine alike_then (alike_expectKeyword "INTO") fun _ => ?_
  refine alike_then alike_table fun t => ?_
  refine alike_then (alike_eatToken rfl) fun opens => ?_
  cases opens with
  | true =>
    refine alike_bind (alike_list alike_name) fun columns columns' names => ?_
    refine alike_then (alike_expectToken rfl) fun _ => ?_
    refine alike_insertedValues params fun values => ?_
    exact alike_bind (alike_assign names values) fun _ _ same => alike_pure (.insert t same)
  | false =>
    refine alike_insertedValues params fun values => alike_pure (.insert t ?_)
    exact List.forall₂_same.mpr fun a _ => ⟨Text.sameLetters_refl a.field, rfl⟩

theorem alike_whereId (params : List Json) (verb : String) :
    Alike Eq (whereId params verb) (whereId params verb) := by
  refine alike_then (alike_eatKeyword "WHERE") fun found => ?_
  cases found with
  | false => exact alike_throw (.unsupported _)
  | true =>
    refine alike_bind alike_name fun a b same => ?_
    rw [Text.sameLetters_congr same]
    cases Text.sameLetters b "id" with
    | false => exact alike_throw (.unsupported _)
    | true =>
      refine alike_then alike_expectEqual fun _ => ?_
      refine alike_then (alike_value params) fun v => ?_
      cases v with
      | value v => exact alike_pure rfl
      | now => exact alike_throw (.unsupported _)

theorem alike_assignment (params : List Json) :
    Alike Assignment.SameButCase (assignment params) (assignment params) := by
  refine alike_bind alike_name fun a b same => ?_
  refine alike_then alike_expectEqual fun _ => ?_
  exact alike_then (alike_value params) fun v => alike_pure ⟨same, rfl⟩

theorem alike_update (params : List Json) :
    Alike Statement.SameButCase (update params) (update params) := by
  refine alike_then alike_table fun t => ?_
  refine alike_then alike_skipAlias fun _ => ?_
  refine alike_then (alike_expectKeyword "SET") fun _ => ?_
  refine alike_bind (alike_list (alike_assignment params)) fun changes changes' same => ?_
  exact alike_then (alike_whereId params "UPDATE") fun id => alike_pure (.update t id same)

theorem alike_delete (params : List Json) :
    Alike Statement.SameButCase (delete params) (delete params) := by
  refine alike_then (alike_expectKeyword "FROM") fun _ => ?_
  refine alike_then alike_table fun t => ?_
  refine alike_then alike_skipAlias fun _ => ?_
  exact alike_then (alike_whereId params "DELETE") fun id => alike_pure (.delete t id)

/-- Reads a statement behind its verb. -/
def behindVerb (params : List Json) (verb : String) : Parser Statement :=
  if verb = "SELECT" then select params
  else if verb = "INSERT" then insert params
  else if verb = "UPDATE" then update params
  else if verb = "DELETE" then delete params
  else throw (.unsupported (.verb verb))

theorem alike_behindVerb (params : List Json) (verb : String) :
    Alike Statement.SameButCase (behindVerb params verb) (behindVerb params verb) := by
  unfold behindVerb
  split
  · exact alike_select params
  split
  · exact alike_insert params
  split
  · exact alike_update params
  split
  · exact alike_delete params
  · exact alike_throw (.unsupported _)

theorem alike_statement (params : List Json) :
    Alike Statement.SameButCase (statement params) (statement params) := by
  refine alike_bind alike_advance fun t u same => ?_
  cases same with
  | none => exact alike_throw (.unsupported _)
  | @some t u same =>
    cases same with
    | @word a b same =>
      have verb : Text.upperAscii a = Text.upperAscii b := Text.sameLetters_iff.mp same
      show Alike _ (behindVerb params (Text.upperAscii a)) (behindVerb params (Text.upperAscii b))
      rw [verb]
      exact alike_behindVerb params _
    | refl =>
      cases t with
      | word quote w => exact alike_behindVerb params (Text.upperAscii w)
      | _ => exact alike_throw (.unsupported _)

end Parser

/-! ## Texts -/

theorem dropSemicolons_sameButCase {ts us : List Token} (same : SameButCase ts us) :
    SameButCase (dropSemicolons ts) (dropSemicolons us) := by
  have dropped : ∀ {ts us : List Token}, SameButCase ts us →
      SameButCase (ts.dropWhile (· == .semicolon)) (us.dropWhile (· == .semicolon)) := by
    intro ts us same
    induction same with
    | nil => exact .nil
    | @cons t u ts us first rest ih =>
      have isMark : (t == .semicolon) = (u == .semicolon) := insensitive_mark rfl t u first
      rw [List.dropWhile_cons, List.dropWhile_cons, isMark]
      split
      · exact ih
      · exact .cons first rest
  exact List.rel_reverse (dropped (List.rel_reverse same))

/-- Tokens in another letter case make the same statement but for case, or none for the same
reason; so do texts with such tokens. -/
theorem parse_sameButCase {ts us : List Token} (same : SameButCase ts us) (params : List Json) :
    SameOutcome Statement.SameButCase (ofTokens ts params) (ofTokens us params) ∧
      ∀ text text', scan text = .ok ts → scan text' = .ok us →
        SameOutcome Statement.SameButCase (parse text params) (parse text' params) := by
  have read : SameOutcome Statement.SameButCase (ofTokens ts params) (ofTokens us params) :=
    (Parser.alike_statement params).run' ⟨dropSemicolons_sameButCase same, rfl⟩
  refine ⟨read, fun text text' scans scans' => ?_⟩
  rwa [parse, parse, scans, scans']

/-- A selection in two letter cases: only the name of the compared field keeps its case. -/
theorem parse_sameButCase_title :
    let text := "select * from Pages p where p.Title = ? Order By created_at Desc Limit 2"
    let text' := "SELECT * FROM PAGES P WHERE P.TITLE = ? ORDER BY CREATED_AT DESC LIMIT 2"
    let ts : List Token := [.word none "select", .operator "*", .word none "from",
      .word none "Pages", .word none "p", .word none "where", .word none "p", .period,
      .word none "Title", .equal, .placeholder "?", .word none "Order", .word none "By",
      .word none "created_at", .word none "Desc", .word none "Limit", .number "2" false]
    let us : List Token := [.word none "SELECT", .operator "*", .word none "FROM",
      .word none "PAGES", .word none "P", .word none "WHERE", .word none "P", .period,
      .word none "TITLE", .equal, .placeholder "?", .word none "ORDER", .word none "BY",
      .word none "CREATED_AT", .word none "DESC", .word none "LIMIT", .number "2" false]
    let selection : String → Select := fun field =>
      ⟨.pages, [.field field (.text "Home")], some .newestFirst, some 2, none⟩
    SameButCase ts us ∧ scan text = .ok ts ∧ scan text' = .ok us ∧
      parse text [.text "Home"] = .ok (.select (selection "Title")) ∧
      parse text' [.text "Home"] = .ok (.select (selection "TITLE")) ∧
      SameOutcome Statement.SameButCase (parse text [.text "Home"])
        (parse text' [.text "Home"]) := by
  intro text text' ts us selection
  have same : SameButCase ts us := by
    repeat' first | exact .nil | refine .cons ?_ ?_ | exact .word rfl | exact .refl _
  have scans : scan text = .ok ts := by decide +kernel
  have scans' : scan text' = .ok us := by decide +kernel
  refine ⟨same, scans, scans', ?_, ?_, (parse_sameButCase same _).2 text text' scans scans'⟩
  · rw [parse, scans]
    rfl
  · rw [parse, scans']
    rfl

end ContentStore.Sql
