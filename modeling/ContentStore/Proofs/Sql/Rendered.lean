import ContentStore.Proofs.Json.Number
import ContentStore.Proofs.Sql.Alignment
import ContentStore.Proofs.Sql.Conditions
import ContentStore.Proofs.Sql.Readers
import Mathlib.Data.List.DropRight
/-!
# A written statement is read back

The conditions of a written `WHERE` clause are taken apart where they were joined, and their filters
are found again (`whereClause_tokens`).  The clauses of a selection are read from the last one back
to the first: each one that is written leaves a selection that the clauses behind it complete
(`Completes`).  So a text whose tokens are those of a statement, with the parameters of the
projection and then those of the statement, makes this statement again (`parse_rendered`).
-/

namespace ContentStore.Sql

open Token (placeholders)

/-! ## Conditions -/

/-- What has been found with one filter more. -/
def Found.including (found : Found) : Filter → Found
  | .isActive => { found with isActive := true }
  | .id v => { found with id := found.id.or (some v), bound := found.bound + 1 }
  | .slug v => { found with slug := found.slug.or (some v), bound := found.bound + 1 }
  | .field name v =>
    { found with other := found.other.or (some (name, v)), bound := found.bound + 1 }

/-- A filter on a freely named field is one that stands for itself. -/
def Filter.IsFree : Filter → Prop
  | field name v => IsFreeField name v
  | _ => True

/-- A condition on a field and a placeholder. -/
theorem Found.add_slot {params : List Json} {found : Found} {v : Json}
    (bound : parameter params found.bound = v) (q : Option Char) (name : String) :
    found.add params [.word q name, .equal, slot] =
      if Text.sameLetters name "is_active" ∧ v.isTruthy then
        { found with isActive := true, bound := found.bound + 1 }
      else if Text.sameLetters name "id" then found.including (.id v)
      else if Text.sameLetters name "slug" then found.including (.slug v)
      else found.including (.field name v) := by
  subst bound
  rfl

/-- The condition of a filter adds this filter. -/
theorem Found.add_tokens (sp : Spelling) {params : List Json} {found : Found} {f : Filter}
    (free : f.IsFree) (supplied : Supplied params found.bound f.values) :
    found.add params (f.tokens sp) = found.including f := by
  cases f with
  | isActive => rfl
  | id v =>
    rw [Filter.tokens, add_slot supplied.parameter, if_neg (fun h => absurd h.1 (by decide)),
      if_pos (by decide)]
  | slug v =>
    rw [Filter.tokens, add_slot supplied.parameter, if_neg (fun h => absurd h.1 (by decide)),
      if_neg (by decide), if_pos (by decide)]
  | field name v =>
    obtain ⟨notId, notSlug, inactive⟩ := free
    rw [Filter.tokens, add_slot supplied.parameter, notId, notSlug]
    refine if_neg fun ⟨active, truthy⟩ => ?_
    rw [inactive active] at truthy
    cases truthy

/-- The conditions of filters add these filters in turn. -/
theorem foldl_add_tokens (sp : Spelling) {params : List Json} {filters : List Filter}
    (free : ∀ f ∈ filters, f.IsFree) {found : Found}
    (supplied : Supplied params found.bound (filters.flatMap Filter.values)) :
    (filters.map (Filter.tokens sp)).foldl (Found.add params) found =
      filters.foldl Found.including found := by
  induction filters generalizing found with
  | nil => rfl
  | cons f rest ih =>
    obtain ⟨freeFirst, freeRest⟩ := List.forall_mem_cons.mp free
    rw [List.flatMap_cons] at supplied
    obtain ⟨suppliedFirst, suppliedRest⟩ := supplied_append.mp supplied
    rw [List.map_cons, List.foldl_cons, List.foldl_cons,
      Found.add_tokens sp freeFirst suppliedFirst]
    refine ih freeRest ?_
    cases f <;> exact suppliedRest

theorem foldl_including_bound (filters : List Filter) (found : Found) :
    (filters.foldl Found.including found).bound =
      found.bound + (filters.flatMap Filter.values).length := by
  induction filters generalizing found with
  | nil => rfl
  | cons f rest ih =>
    rw [List.foldl_cons, ih, List.flatMap_cons, List.length_append, ← Nat.add_assoc]
    cases f <;> rfl

/-- Filters that stand for themselves are what their conditions filter by. -/
theorem FiltersNormal.found {filters : List Filter} (normal : FiltersNormal filters) (k : Nat) :
    (filters.foldl Found.including ⟨false, none, none, none, k⟩).filters = filters := by
  cases normal with
  | free free => rfl
  | known id slug inOrder =>
    rcases List.sublist_cons_iff.mp inOrder with behind | ⟨_, rfl, behind⟩ <;>
      rcases List.sublist_cons_iff.mp behind with last | ⟨_, rfl, last⟩ <;>
        rcases List.sublist_cons_iff.mp last with none | ⟨_, rfl, none⟩ <;>
          obtain rfl := List.sublist_nil.mp none <;> rfl

theorem FiltersNormal.all_free {filters : List Filter} (normal : FiltersNormal filters) :
    ∀ f ∈ filters, f.IsFree := by
  intro f mem
  cases normal with
  | free free =>
    obtain rfl := List.mem_singleton.mp mem
    exact free
  | known id slug inOrder =>
    have known := inOrder.subset mem
    simp only [List.mem_cons, List.not_mem_nil, or_false] at known
    rcases known with rfl | rfl | rfl <;> trivial

/-- A written condition has no parentheses, and no keyword that ends it. -/
theorem isCondition_tokens (sp : Spelling) (f : Filter) : IsCondition (f.tokens sp) := by
  have comparison : ∀ {q : Option Char} {name : String} {operand : Token},
      (Token.word q name).isOneOf conditionStops = false → operand ≠ .leftParen →
        operand ≠ .rightParen → operand.isOneOf conditionStops = false →
          IsCondition [.word q name, .equal, operand] := by
    intro q name operand goesOn noLeft noRight ends
    refine nested_plain ?_
    simp only [List.forall_mem_cons]
    exact ⟨⟨nofun, nofun, goesOn⟩, ⟨nofun, nofun, rfl⟩, ⟨noLeft, noRight, ends⟩, nofun⟩
  have own : ∀ {name : String}, (keyword name).isOneOf conditionStops = false →
      (Token.word sp.ownQuote name).isOneOf conditionStops = false := by
    intro name plain
    cases sp.ownQuote with
    | none => exact plain
    | some q => rfl
  cases f with
  | isActive => exact comparison (own (by decide)) nofun nofun rfl
  | id v | slug v => exact comparison (own (by decide)) nofun nofun rfl
  | field name v => exact comparison rfl nofun nofun rfl

/-- Conditions with `AND` between them are joined. -/
theorem joined_separated {conditions : List (List Token)} (nonempty : conditions ≠ [])
    (left : List Token) :
    Joined conditions left (separated (keyword "AND") conditions ++ left) := by
  induction conditions with
  | nil => exact absurd rfl nonempty
  | cons first others ih =>
    cases others with
    | nil => exact .last first left
    | cons second more =>
      rw [separated, List.append_assoc, List.cons_append]
      exact .more first rfl (ih (List.cons_ne_nil second more))

/-! ## What follows a clause -/

/-- Tokens begin with one of these keywords, if there are any. -/
def StartsIn (names : List String) (ts : List Token) : Prop :=
  ts = [] ∨ ∃ name ∈ names, ∃ rest, ts = keyword name :: rest

theorem StartsIn.append {names others : List String} {front back : List Token}
    (startsFront : StartsIn names front) (startsBack : StartsIn others back) :
    StartsIn (names ++ others) (front ++ back) := by
  rcases startsFront with rfl | ⟨name, mem, rest, rfl⟩
  · rcases startsBack with rfl | ⟨name, mem, rest, rfl⟩
    · exact .inl rfl
    · exact .inr ⟨name, List.mem_append_right _ mem, rest, rfl⟩
  · exact .inr ⟨name, List.mem_append_left _ mem, rest ++ back, rfl⟩

theorem startsIn_where (sp : Spelling) (filters : List Filter) :
    StartsIn ["WHERE"] (whereTokens sp filters) := by
  cases filters with
  | nil => exact .inl rfl
  | cons f rest => exact .inr ⟨_, List.mem_singleton_self _, _, rfl⟩

theorem startsIn_order (order : Option RowOrder) : StartsIn ["ORDER"] (orderTokens order) := by
  rcases order with _ | _ | _
  · exact .inl rfl
  · exact .inr ⟨_, List.mem_singleton_self _, _, rfl⟩
  · exact .inr ⟨_, List.mem_singleton_self _, _, rfl⟩

theorem startsIn_count (verb : String) (count : Option Nat) :
    StartsIn [verb] (countTokens verb count) := by
  cases count with
  | none => exact .inl rfl
  | some n => exact .inr ⟨_, List.mem_singleton_self _, _, rfl⟩

theorem startsIn_window (paired : Bool) (limit offset : Option Nat) :
    StartsIn ["LIMIT", "OFFSET"] (windowTokens paired limit offset) := by
  unfold windowTokens
  split
  · exact .inr ⟨"LIMIT", List.mem_cons_self, _, rfl⟩
  · exact (startsIn_count "LIMIT" limit).append (startsIn_count "OFFSET" offset)

theorem StartsIn.ends {tail : List Token} (starts : StartsIn ["ORDER", "LIMIT", "OFFSET"] tail) :
    EndsConditions tail := by
  have stops : ∀ name ∈ ["ORDER", "LIMIT", "OFFSET"], (keyword name).isOneOf
      ["ORDER", "LIMIT", "OFFSET", "GROUP", "HAVING"] = true := by decide
  rcases starts with rfl | ⟨name, mem, rest, rfl⟩
  · exact nofun
  · rintro t ⟨⟩
    exact stops name mem

/-- The conditions of filters that stand for themselves are read as these filters. -/
theorem whereClause_tokens (sp : Spelling) {params : List Json} {filters : List Filter}
    (nonempty : filters ≠ []) (normal : FiltersNormal filters) {k : Nat}
    (supplied : Supplied params k (filters.flatMap Filter.values)) {tail : List Token}
    (starts : StartsIn ["ORDER", "LIMIT", "OFFSET"] tail) :
    Parser.whereClause params
        ⟨separated (keyword "AND") (filters.map (Filter.tokens sp)) ++ tail, k⟩ =
      (filters, ⟨tail, k + (filters.flatMap Filter.values).length⟩) := by
  have each : ∀ condition ∈ filters.map (Filter.tokens sp), IsCondition condition := by
    intro condition mem
    obtain ⟨f, -, rfl⟩ := List.mem_map.mp mem
    exact isCondition_tokens sp f
  have some : filters.map (Filter.tokens sp) ≠ [] := mt List.map_eq_nil_iff.mp nonempty
  have joined := joined_separated some tail
  have apart := splitConditions_of_joined joined each starts.ends
  have found : findFilters params k (filters.map (Filter.tokens sp)) =
      filters.foldl Found.including ⟨false, none, none, none, k⟩ :=
    foldl_add_tokens sp normal.all_free supplied
  rw [Parser.whereClause, apart]
  dsimp only
  rw [found, foldl_including_bound, normal.found]

/-! ## Orderings and counts -/

theorem orderClause_tokens (order : RowOrder) {tail : List Token} (k : Nat)
    (starts : StartsIn ["LIMIT", "OFFSET"] tail) :
    ∃ terms, orderTokens (some order) = keyword "ORDER" :: keyword "BY" :: terms ∧
      Parser.orderClause ⟨terms ++ tail, k⟩ = (some order, ⟨tail, k⟩) := by
  rcases starts with rfl | ⟨name, mem, rest, rfl⟩
  · cases order <;> exact ⟨_, rfl, rfl⟩
  · simp only [List.mem_cons, List.not_mem_nil, or_false] at mem
    rcases mem with rfl | rfl <;> cases order <;> exact ⟨_, rfl, rfl⟩

section Counts

open Text (isDigit digitsValue hexValue? valueInBase? natural? wordLimit)

theorem hexValue?_digit {c : Char} (digit : isDigit c = true) :
    hexValue? c = some (c.toNat - 48) := by
  rw [isDigit, Bool.and_eq_true, decide_eq_true_iff, decide_eq_true_iff] at digit
  rw [hexValue?, if_pos digit]

/-- Decimal digits write their number in base ten. -/
theorem valueInBase?_digits {digits : List Char} (nonempty : digits ≠ [])
    (all : ∀ c ∈ digits, isDigit c = true) :
    valueInBase? 10 digits = some (digitsValue digits) := by
  rw [valueInBase?, if_neg (mt List.isEmpty_iff.mp nonempty), digitsValue]
  clear nonempty
  generalize 0 = start
  induction digits generalizing start with
  | nil => rfl
  | cons c rest ih =>
    obtain ⟨digit, digits⟩ := List.forall_mem_cons.mp all
    have small : c.toNat - 48 < 10 := by
      have bounds := Json.isDigit_iff.mp digit
      omega
    rw [List.foldlM_cons, hexValue?_digit digit]
    dsimp only
    rw [if_pos small]
    exact ih digits _

theorem natural?_toDigits {n : Nat} (fits : n < UInt64.size) :
    natural? (Nat.toDigits 10 n) = some n := by
  have all : ∀ c ∈ Nat.toDigits 10 n, isDigit c = true := fun c => Json.toDigits_isDigit
  have value := valueInBase?_digits Nat.toDigits_ne_nil all
  rw [Json.digitsValue_toDigits] at value
  unfold natural?
  split
  · next rest split =>
    rw [split] at all
    exact absurd (all '+' List.mem_cons_self) (by decide)
  · dsimp only
    rw [value, Option.bind_some]
    exact if_pos fits

theorem countClause_token (params : List Json) {n : Nat} (fits : n < UInt64.size)
    (rest : List Token) (k : Nat) :
    Parser.countClause params ⟨countToken n :: rest, k⟩ = (some n, ⟨rest, k⟩) := by
  have digits : (String.ofList (Nat.toDigits 10 n)).toList = Nat.toDigits 10 n :=
    String.toList_ofList
  have read := natural?_toDigits fits
  rw [← digits] at read
  rw [← read]
  rfl

end Counts

/-! ## Clauses in turn -/

/-- Enough steps over the clauses at a cursor make a selection of another one. -/
def Completes (params : List Json) (c : Cursor) (selection result : Select) : Prop :=
  ∀ fuel, c.rest.length ≤ fuel → Parser.clauses params fuel c selection = result

section Completes

variable {params : List Json} {result : Select} {k : Nat}

theorem completes_nil (selection : Select) : Completes params ⟨[], k⟩ selection selection := by
  intro fuel _
  cases fuel <;> rfl

/-- A clause is read, and what it leaves is completed. -/
theorem Completes.clause {t : Token} {rest : List Token} {selection selection' : Select}
    {c : Cursor} (later : Completes params c selection' result)
    (reads : Parser.clause params t ⟨rest, k⟩ selection = (selection', c))
    (left : c.rest <:+ rest) :
    Completes params ⟨t :: rest, k⟩ selection result := by
  intro fuel enough
  obtain ⟨fuel, rfl⟩ : ∃ n, fuel = n + 1 := ⟨fuel - 1, by simp at enough; omega⟩
  rw [Parser.clauses]
  dsimp only
  rw [reads]
  exact later fuel (Nat.le_trans left.length_le (Nat.le_of_succ_le_succ enough))

theorem clause_where (c : Cursor) (selection : Select) :
    Parser.clause params (keyword "WHERE") c selection =
      ({ selection with filters := (Parser.whereClause params c).1 },
        (Parser.whereClause params c).2) := rfl

theorem clause_order (rest : List Token) (selection : Select) :
    Parser.clause params (keyword "ORDER") ⟨keyword "BY" :: rest, k⟩ selection =
      ({ selection with order := (Parser.orderClause ⟨rest, k⟩).1 },
        (Parser.orderClause ⟨rest, k⟩).2) := rfl

theorem clause_limit (c : Cursor) (selection : Select) :
    Parser.clause params (keyword "LIMIT") c selection = Parser.limitClause params c selection :=
  rfl

theorem clause_offset (c : Cursor) (selection : Select) :
    Parser.clause params (keyword "OFFSET") c selection =
      ({ selection with offset := (Parser.countClause params c).1 },
        (Parser.countClause params c).2) := rfl

variable {t : Table} {filters : List Filter} {order : Option RowOrder}

theorem completes_offset {limit offset : Option Nat}
    (fits : ∀ m, offset = some m → m < UInt64.size) :
    Completes params ⟨countTokens "OFFSET" offset, k⟩ ⟨t, filters, order, limit, none⟩
      ⟨t, filters, order, limit, offset⟩ := by
  cases offset with
  | none => exact completes_nil _
  | some m =>
    have read := countClause_token params (fits m rfl) [] k
    have reads : Parser.clause params (keyword "OFFSET") ⟨[countToken m], k⟩
        ⟨t, filters, order, limit, none⟩ = (⟨t, filters, order, limit, some m⟩, ⟨[], k⟩) := by
      rw [clause_offset, read]
    exact (completes_nil _).clause reads List.nil_suffix

/-- A count that no comma follows is a limit. -/
theorem completes_limit {limit offset : Option Nat} (fits : ∀ n, limit = some n → n < UInt64.size)
    (later : Completes params ⟨countTokens "OFFSET" offset, k⟩
      ⟨t, filters, order, limit, none⟩ result) :
    Completes params ⟨countTokens "LIMIT" limit ++ countTokens "OFFSET" offset, k⟩
      ⟨t, filters, order, none, none⟩ result := by
  cases limit with
  | none => exact later
  | some n =>
    have read := countClause_token params (fits n rfl) (countTokens "OFFSET" offset) k
    have reads : Parser.clause params (keyword "LIMIT")
        ⟨countToken n :: countTokens "OFFSET" offset, k⟩ ⟨t, filters, order, none, none⟩ =
          (⟨t, filters, order, some n, none⟩, ⟨countTokens "OFFSET" offset, k⟩) := by
      rw [clause_limit, Parser.limitClause, read]
      cases offset <;> rfl
    exact later.clause reads (List.suffix_cons _ _)

/-- Two counts with a comma are an offset and a limit. -/
theorem completes_paired {n m : Nat} (fitsLimit : n < UInt64.size) (fitsOffset : m < UInt64.size) :
    Completes params ⟨[keyword "LIMIT", countToken m, .comma, countToken n], k⟩
      ⟨t, filters, order, none, none⟩ ⟨t, filters, order, some n, some m⟩ := by
  have first := countClause_token params fitsOffset [.comma, countToken n] k
  have second := countClause_token params fitsLimit [] k
  have reads : Parser.clause params (keyword "LIMIT") ⟨[countToken m, .comma, countToken n], k⟩
      ⟨t, filters, order, none, none⟩ = (⟨t, filters, order, some n, some m⟩, ⟨[], k⟩) := by
    rw [clause_limit, Parser.limitClause, first]
    dsimp only
    rw [second]
  exact (completes_nil _).clause reads List.nil_suffix

theorem completes_window (paired : Bool) {limit offset : Option Nat}
    (fitsLimit : ∀ n, limit = some n → n < UInt64.size)
    (fitsOffset : ∀ m, offset = some m → m < UInt64.size) :
    Completes params ⟨windowTokens paired limit offset, k⟩ ⟨t, filters, order, none, none⟩
      ⟨t, filters, order, limit, offset⟩ := by
  unfold windowTokens
  split
  · next n m => exact completes_paired (fitsLimit n rfl) (fitsOffset m rfl)
  · exact completes_limit fitsLimit (completes_offset fitsOffset)

theorem completes_order {tail : List Token} (starts : StartsIn ["LIMIT", "OFFSET"] tail)
    (later : Completes params ⟨tail, k⟩ ⟨t, filters, order, none, none⟩ result) :
    Completes params ⟨orderTokens order ++ tail, k⟩ ⟨t, filters, none, none, none⟩ result := by
  cases order with
  | none => exact later
  | some order =>
    obtain ⟨terms, tokens, read⟩ := orderClause_tokens order k starts
    have reads : Parser.clause params (keyword "ORDER") ⟨keyword "BY" :: (terms ++ tail), k⟩
        ⟨t, filters, none, none, none⟩ = (⟨t, filters, some order, none, none⟩, ⟨tail, k⟩) := by
      rw [clause_order, read]
    rw [tokens, List.cons_append, List.cons_append]
    exact later.clause reads (List.suffix_append (keyword "BY" :: terms) tail)

theorem completes_where (sp : Spelling) (normal : FiltersNormal filters)
    (supplied : Supplied params k (filters.flatMap Filter.values)) {tail : List Token}
    (starts : StartsIn ["ORDER", "LIMIT", "OFFSET"] tail)
    (later : Completes params ⟨tail, k + (filters.flatMap Filter.values).length⟩
      ⟨t, filters, none, none, none⟩ result) :
    Completes params ⟨whereTokens sp filters ++ tail, k⟩ (Select.all t) result := by
  cases filters with
  | nil => exact later
  | cons f others =>
    have read := whereClause_tokens sp (List.cons_ne_nil f others) normal supplied starts
    have reads : Parser.clause params (keyword "WHERE")
        ⟨separated (keyword "AND") ((f :: others).map (Filter.tokens sp)) ++ tail, k⟩
        (Select.all t) = (⟨t, f :: others, none, none, none⟩,
          ⟨tail, k + ((f :: others).flatMap Filter.values).length⟩) := by
      rw [clause_where, read]
      rfl
    exact later.clause reads (List.suffix_append _ tail)

/-- The clauses of a selection complete the selection of its table. -/
theorem completes_clauseTokens (sp : Spelling) {selection : Select}
    (expressible : (Statement.select selection).Expressible)
    (supplied : Supplied params k (selection.filters.flatMap Filter.values)) :
    Completes params ⟨selection.clauseTokens sp, k⟩ (Select.all selection.table) selection := by
  obtain ⟨normal, fitsLimit, fitsOffset⟩ := expressible
  have window := startsIn_window sp.pairedCounts selection.limit selection.offset
  have ordered := (startsIn_order selection.order).append window
  refine completes_where sp normal supplied ordered ?_
  refine completes_order window ?_
  exact completes_window sp.pairedCounts fitsLimit fitsOffset

end Completes

/-! ## Selections -/

/-- A projection ends at its `FROM`. -/
theorem Projects.splitBefore_from {depth : Nat} {projection : List Token}
    (projects : Projects depth projection) (rest : List Token) :
    splitBefore (·.isKeyword "FROM") depth (projection ++ keyword "FROM" :: rest) =
      (projection, keyword "FROM" :: rest) := by
  induction projection generalizing depth with
  | nil =>
    obtain rfl : depth = 0 := projects
    exact if_pos ⟨rfl, by decide⟩
  | cons t projection ih =>
    obtain ⟨noFrom, inside⟩ := projects
    have goesOn : ¬ (depth = 0 ∧ t.isKeyword "FROM" = true) := by
      rintro ⟨outside, isFrom⟩
      rw [(noFrom outside).1] at isFrom
      cases isFrom
    rw [List.cons_append, splitBefore, if_neg goesOn, ih inside]

/-- In front of a clause or the end, nothing is an alias, and no period goes on with a name. -/
theorem run_skipAlias_starts {ts : List Token}
    (starts : StartsIn ["WHERE", "ORDER", "LIMIT", "OFFSET"] ts) (k : Nat) :
    Parser.skipAlias.run ⟨ts, k⟩ = .ok ((), ⟨ts, k⟩) := by
  have stops : ∀ name ∈ ["WHERE", "ORDER", "LIMIT", "OFFSET"],
      (keyword name).isOneOf Parser.aliasStops = true ∧
        (keyword name).isKeyword "AS" = false := by decide
  rcases starts with rfl | ⟨name, mem, rest, rfl⟩
  · rfl
  · obtain ⟨stop, noAs⟩ := stops name mem
    exact Parser.run_skipAlias_stop stop noAs rest k

theorem StartsIn.no_period {names : List String} {ts : List Token} (starts : StartsIn names ts) :
    ts.head? ≠ some .period := by
  rcases starts with rfl | ⟨name, mem, rest, rfl⟩
  · exact nofun
  · exact nofun

/-- A written selection is read behind its verb. -/
theorem run'_select (sp : Spelling) {params : List Json} {selection : Select}
    (expressible : (Statement.select selection).Expressible)
    (projects : Projects 0 sp.projection) {k : Nat}
    (supplied : Supplied params (k + placeholders sp.projection)
      (Statement.select selection).values) :
    (Parser.select params).run' ⟨sp.projection ++
        keyword "FROM" :: keyword selection.table.name :: selection.clauseTokens sp, k⟩ =
      .ok (.select selection) := by
  let clauses := selection.clauseTokens sp
  let behind := keyword "FROM" :: keyword selection.table.name :: clauses
  let bound := k + placeholders sp.projection
  have starts : StartsIn ["WHERE", "ORDER", "LIMIT", "OFFSET"] clauses :=
    (startsIn_where sp selection.filters).append
      ((startsIn_order selection.order).append
        (startsIn_window sp.pairedCounts selection.limit selection.offset))
  have skips : (modify (Parser.skipBefore (·.isKeyword "FROM")) : Parser PUnit).run
      ⟨sp.projection ++ behind, k⟩ = .ok ((), ⟨behind, bound⟩) := by
    change Except.ok ((), Parser.skipBefore _ ⟨sp.projection ++ behind, k⟩) = _
    rw [Parser.skipBefore, projects.splitBefore_from]
  have completes := completes_clauseTokens sp expressible supplied
  refine (Parser.run'_then _ skips).trans ?_
  refine (Parser.run'_then _ (Parser.run_expectKeyword "FROM" _ bound)).trans ?_
  refine (Parser.run'_then _ (Parser.run_table selection.table starts.no_period bound)).trans ?_
  refine (Parser.run'_then _ (run_skipAlias_starts starts bound)).trans ?_
  exact congrArg (fun s => Except.ok (Statement.select s)) (completes _ (Nat.le_refl _))

/-! ## Statements -/

theorem mem_separated {mark t : Token} {items : List (List Token)}
    (mem : t ∈ separated mark items) : t = mark ∨ ∃ item ∈ items, t ∈ item := by
  induction items with
  | nil => cases mem
  | cons first others ih =>
    cases others with
    | nil => exact .inr ⟨first, List.mem_cons_self, mem⟩
    | cons second more =>
      rw [separated, List.mem_append, List.mem_cons] at mem
      rcases mem with inFirst | isMark | later
      · exact .inr ⟨first, List.mem_cons_self, inFirst⟩
      · exact .inl isMark
      · refine (ih later).imp_right ?_
        rintro ⟨item, inMore, inItem⟩
        exact ⟨item, List.mem_cons_of_mem first inMore, inItem⟩

/-- Only semicolons at the end are dropped. -/
theorem dropSemicolons_append (front : List Token) {back : List Token} (nonempty : back ≠ [])
    (noSemicolon : .semicolon ∉ back) : dropSemicolons (front ++ back) = front ++ back := by
  have last : (front ++ back).getLast (by simp [nonempty]) ∈ back := by
    rw [List.getLast_append_of_ne_nil _ nonempty]
    exact List.getLast_mem nonempty
  refine List.rdropWhile_eq_self_iff.mpr fun _ isSemicolon => noSemicolon ?_
  rwa [← eq_of_beq isSemicolon]

theorem no_semicolon_clauseTokens (sp : Spelling) (selection : Select) :
    .semicolon ∉ selection.clauseTokens sp := by
  have inWhere : .semicolon ∉ whereTokens sp selection.filters := by
    intro mem
    cases filters : selection.filters with
    | nil =>
      rw [filters] at mem
      cases mem
    | cons f others =>
      rw [filters] at mem
      rcases List.mem_cons.mp mem with isWhere | inConditions
      · cases isWhere
      rcases mem_separated inConditions with isAnd | ⟨condition, inMap, inCondition⟩
      · cases isAnd
      · obtain ⟨f, -, rfl⟩ := List.mem_map.mp inMap
        cases f <;> simp [Filter.tokens, slot] at inCondition
  have inOrder : .semicolon ∉ orderTokens selection.order := by
    rcases selection.order with _ | _ | _ <;> decide
  have inWindow : .semicolon ∉ windowTokens sp.pairedCounts selection.limit selection.offset := by
    unfold windowTokens
    split
    · simp [keyword, countToken]
    · cases selection.limit <;> cases selection.offset <;> simp [countTokens, keyword, countToken]
  rw [Select.clauseTokens, List.mem_append, List.mem_append]
  rintro (inside | inside | inside)
  · exact inWhere inside
  · exact inOrder inside
  · exact inWindow inside

/-- A written statement does not end with a semicolon. -/
theorem dropSemicolons_tokens (sp : Spelling) (st : Statement) :
    dropSemicolons (st.tokens sp) = st.tokens sp := by
  have id : .semicolon ∉ idTokens sp := by simp [idTokens, keyword, slot]
  cases st with
  | select selection =>
    refine dropSemicolons_append (keyword "SELECT" :: sp.projection) (List.cons_ne_nil _ _) ?_
    simp [keyword, no_semicolon_clauseTokens]
  | insert t values =>
    let names := separated .comma (values.map fun a => [.word (some sp.quote) a.field])
    let assigned := separated .comma (values.map fun a => a.assigned.tokens)
    have split : (Statement.insert t values).tokens sp =
        (keyword "INSERT" :: keyword "INTO" :: keyword t.name :: .leftParen ::
          (names ++ .rightParen :: keyword "VALUES" :: .leftParen :: assigned)) ++
            [.rightParen] := by
      simp [Statement.tokens, names, assigned]
    rw [split]
    exact dropSemicolons_append _ (List.cons_ne_nil _ _) (by simp)
  | update t _ changes =>
    exact dropSemicolons_append (keyword "UPDATE" :: keyword t.name :: keyword "SET" ::
      separated .comma (changes.map (Assignment.tokens sp))) (List.cons_ne_nil _ _) id
  | delete t _ => exact dropSemicolons_append [_, _, _] (List.cons_ne_nil _ _) id

/-- A statement is read by its verb. -/
theorem run'_verb (params : List Json) {verb : String} (upper : Text.upperAscii verb = verb)
    (rest : List Token) :
    (Parser.statement params).run' ⟨keyword verb :: rest, 0⟩ =
      (if verb = "SELECT" then Parser.select params
        else if verb = "INSERT" then Parser.insert params
        else if verb = "UPDATE" then Parser.update params
        else if verb = "DELETE" then Parser.delete params
        else throw (.unsupported (.verb verb))).run' ⟨rest, 0⟩ := by
  rw [keyword, run_statement_word, upper]

/-- A text whose tokens are those of a statement that can be written makes this statement, with the
parameters of its projection in front of its own. -/
theorem parse_rendered (sp : Spelling) {st : Statement} {text : String} {given : List Json}
    (expressible : st.Expressible) (projects : Projects 0 (st.leading sp))
    (count : given.length = placeholders (st.leading sp))
    (scans : scan text = .ok (st.tokens sp)) :
    parse text (given ++ st.values) = .ok st := by
  have supplied : Supplied (given ++ st.values) (placeholders (st.leading sp)) st.values := by
    rw [Supplied, ← count, List.drop_left]
  rw [parse_scanned _ scans, dropSemicolons_tokens]
  cases st with
  | select selection =>
    rw [← Nat.zero_add (placeholders _)] at supplied
    rw [Statement.tokens, run'_verb _ (by decide), if_pos rfl]
    exact run'_select sp expressible projects supplied
  | insert t values =>
    rw [Statement.tokens, run'_verb _ (by decide), if_neg (by decide), if_pos rfl]
    exact Parser.run'_insert sp t expressible supplied
  | update t id changes =>
    rw [Statement.tokens, run'_verb _ (by decide), if_neg (by decide), if_neg (by decide),
      if_pos rfl]
    exact Parser.run'_update sp t expressible supplied
  | delete t id =>
    rw [Statement.tokens, run'_verb _ (by decide), if_neg (by decide), if_neg (by decide),
      if_neg (by decide), if_pos rfl]
    exact Parser.run'_delete sp t supplied

/-- A selection whose projection has parentheses and a placeholder, with two counts together. -/
theorem parse_rendered_selection :
    let sp : Spelling := ⟨[keyword "f", .leftParen, slot, .rightParen], '"', none, true⟩
    let st : Statement :=
      .select ⟨.pages, [.isActive, .slug (.text "home")], some .sortOrder, some 10, some 5⟩
    let text :=
      "SELECT f(?) FROM pages WHERE is_active = 1 AND slug = ? ORDER BY sort_order LIMIT 5, 10"
    st.Expressible ∧ Projects 0 (st.leading sp) ∧ scan text = .ok (st.tokens sp) ∧
      parse text [.bool true, .text "home"] = .ok st := by
  intro sp st text
  have normal : FiltersNormal [.isActive, .slug (.text "home")] :=
    .known (.text "home") (.text "home") (by simp)
  have expressible : st.Expressible := by
    refine ⟨normal, ?_, ?_⟩ <;> rintro n ⟨⟩ <;> decide
  have projects : Projects 0 (st.leading sp) := by decide
  have scans : scan text = .ok (st.tokens sp) := by decide +kernel
  have reads : parse text ([.bool true] ++ st.values) = .ok st :=
    parse_rendered sp expressible projects rfl scans
  exact ⟨expressible, projects, scans, reads⟩

end ContentStore.Sql
