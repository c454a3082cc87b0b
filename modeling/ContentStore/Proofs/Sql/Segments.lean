import ContentStore.Proofs.Sql.WhereClause
/-!
# Clauses in front of other tokens

What the clauses of a selection do with tokens depends on these tokens alone, whatever of the right
kind follows them (`Leads`): a `WHERE` clause in front of what ends its conditions, an ordering in
front of what ends its terms, and tokens without any keyword of a clause in front of everything.
-/

namespace ContentStore.Sql

open Token (placeholders)

/-! ## Parentheses -/

/-- The depth of parentheses behind tokens. -/
def depthBehind (depth : Nat) (ts : List Token) : Nat := ts.foldl depthAfter depth

theorem depthAfter_mono {depth depth' : Nat} (le : depth ≤ depth') (t : Token) :
    depthAfter depth t ≤ depthAfter depth' t := by
  cases t with
  | leftParen => exact Nat.succ_le_succ le
  | rightParen => exact Nat.sub_le_sub_right le 1
  | _ => exact le

theorem depthBehind_mono {depth depth' : Nat} (le : depth ≤ depth') (ts : List Token) :
    depthBehind depth ts ≤ depthBehind depth' ts := by
  induction ts generalizing depth depth' with
  | nil => exact le
  | cons t rest ih => exact ih (depthAfter_mono le t)

/-- Tokens that close all parentheses close those that are opened in a part at their end. -/
theorem depthBehind_suffix {depth : Nat} {front back : List Token}
    (closed : depthBehind depth (front ++ back) = 0) : depthBehind 0 back = 0 := by
  rw [depthBehind, List.foldl_append] at closed
  exact Nat.le_zero.mp (closed ▸ depthBehind_mono (Nat.zero_le _) back)

theorem Nested.depthBehind {stop : Token → Bool} {ts : List Token} (nested : Nested stop ts)
    (depth : Nat) : depthBehind depth ts = depth := by
  induction nested generalizing depth with
  | nil => rfl
  | token noLeft noRight _ _ ih =>
    rw [Sql.depthBehind, List.foldl_cons, depthAfter_plain noLeft noRight]
    exact ih depth
  | @parens _ inner rest _ _ ihInside ihBehind =>
    have inside : inner.foldl depthAfter (depth + 1) = depth + 1 := ihInside (depth + 1)
    rw [Sql.depthBehind, List.foldl_cons, List.foldl_append, depthAfter, inside, List.foldl_cons]
    exact ihBehind depth

theorem Nested.append {stop : Token → Bool} {front back : List Token} (nested : Nested stop front)
    (behind : Nested stop back) : Nested stop (front ++ back) := by
  induction nested with
  | nil => exact behind
  | token noLeft noRight goesOn _ ih => exact .token noLeft noRight goesOn (ih behind)
  | parens inside _ _ ih =>
    rw [List.cons_append, List.append_assoc, List.cons_append]
    exact .parens inside (ih behind)

/-! ## Where tokens are split -/

/-- Tokens are empty or begin with one at which to stop. -/
def Stops (stop : Token → Bool) (ts : List Token) : Prop := ∀ t ∈ ts.head?, stop t = true

theorem Stops.nil {stop : Token → Bool} : Stops stop [] := nofun

theorem Stops.cons {stop : Token → Bool} {t : Token} (stops : stop t = true) (rest : List Token) :
    Stops stop (t :: rest) := by
  rintro u ⟨⟩
  exact stops

theorem splitBefore_stops {stop : Token → Bool} {ts : List Token} (stops : Stops stop ts) :
    splitBefore stop 0 ts = ([], ts) := by
  cases ts with
  | nil => rfl
  | cons t rest => rw [splitBefore, if_pos ⟨rfl, stops t rfl⟩]

theorem splitBefore_cons {stop : Token → Bool} {depth : Nat} {t : Token} (rest : List Token)
    (goesOn : depth = 0 → stop t = false) :
    splitBefore stop depth (t :: rest) =
      (t :: (splitBefore stop (depthAfter depth t) rest).1,
        (splitBefore stop (depthAfter depth t) rest).2) := by
  refine if_neg ?_
  rintro ⟨outside, stops⟩
  rw [goesOn outside] at stops
  cases stops

/-- Nested tokens are passed over, unless there is one outside parentheses at which to stop. -/
theorem splitBefore_nested {stop stop' : Token → Bool} {ts : List Token} (nested : Nested stop' ts)
    (noMark : stop .leftParen = false) {depth : Nat}
    (stops : depth = 0 → ∀ t, stop' t = false → stop t = false) (rest : List Token) :
    splitBefore stop depth (ts ++ rest) =
      (ts ++ (splitBefore stop depth rest).1, (splitBefore stop depth rest).2) := by
  induction nested generalizing depth rest with
  | nil => rfl
  | token noLeft noRight goesOn _ ih =>
    rw [List.cons_append, splitBefore_cons _ fun outside => stops outside _ goesOn,
      depthAfter_plain noLeft noRight, ih stops]
    rfl
  | @parens stop' inner behind _ _ ihInside ihBehind =>
    have inside : ∀ {P : Prop}, depth + 1 = 0 → P := fun outside =>
      absurd outside (Nat.succ_ne_zero depth)
    rw [List.cons_append, List.append_assoc, splitBefore_cons _ fun _ => noMark, depthAfter,
      ihInside inside, List.cons_append, splitBefore_cons _ inside, depthAfter,
      Nat.add_sub_cancel, ihBehind stops]
    simp only [List.cons_append, List.append_assoc]

/-- In front of a token at which to stop, tokens that close their parentheses are split alone. -/
theorem splitBefore_closed {stop : Token → Bool} {depth : Nat} {ts rest : List Token}
    (closed : depthBehind depth ts = 0) (stops : Stops stop rest) :
    splitBefore stop depth (ts ++ rest) =
      ((splitBefore stop depth ts).1, (splitBefore stop depth ts).2 ++ rest) := by
  induction ts generalizing depth with
  | nil =>
    obtain rfl : depth = 0 := closed
    exact splitBefore_stops stops
  | cons t ts ih =>
    rw [List.cons_append, splitBefore, splitBefore]
    split
    · rfl
    · rw [ih closed]

/-- A split at fewer tokens goes on from one at more. -/
theorem splitBefore_again {stop stop' : Token → Bool} (fewer : ∀ t, stop t = true → stop' t = true)
    (depth : Nat) (ts : List Token) :
    splitBefore stop depth ts =
      ((splitBefore stop' depth ts).1 ++ (splitBefore stop 0 (splitBefore stop' depth ts).2).1,
        (splitBefore stop 0 (splitBefore stop' depth ts).2).2) := by
  induction ts generalizing depth with
  | nil => rfl
  | cons t rest ih =>
    by_cases stops : depth = 0 ∧ stop' t = true
    · obtain ⟨rfl, stops⟩ := stops
      have here : splitBefore stop' 0 (t :: rest) = ([], t :: rest) := if_pos ⟨rfl, stops⟩
      rw [here]
      rfl
    · have goesOn : ¬ (depth = 0 ∧ stop t = true) := fun h => stops (h.imp_right (fewer t))
      have behind : splitBefore stop' depth (t :: rest) =
          (t :: (splitBefore stop' (depthAfter depth t) rest).1,
            (splitBefore stop' (depthAfter depth t) rest).2) := if_neg stops
      rw [behind, splitBefore, if_neg goesOn, ih]
      rfl

theorem splitConditions_closed {depth : Nat} {ts rest : List Token}
    (closed : depthBehind depth ts = 0) (ends : EndsConditions rest) :
    splitConditions depth (ts ++ rest) =
      ((splitConditions depth ts).1, (splitConditions depth ts).2 ++ rest) := by
  induction ts generalizing depth with
  | nil =>
    obtain rfl : depth = 0 := closed
    exact splitConditions_end ends
  | cons t ts ih =>
    rw [List.cons_append, splitConditions, splitConditions]
    split
    · next isAnd =>
      obtain ⟨rfl, isAnd⟩ := isAnd
      have same : depthAfter 0 t = 0 := by cases t <;> first | rfl | cases isAnd
      have behind : depthBehind 0 ts = 0 := (congrArg (depthBehind · ts) same).symm.trans closed
      rw [ih behind]
    split
    · rfl
    · rw [ih closed]
      dsimp only
      split <;> rfl

/-! ## Orderings -/

/-- The first term of an ordering. -/
def firstTerm (terms : List Token) : List Token :=
  (splitBefore (fun t => t == .comma || t.isOneOf orderStops) 0 terms).1

/-- An ordering goes on to what ends it, and its first term decides. -/
theorem orderClause_eq (c : Cursor) :
    Parser.orderClause c = (order? (firstTerm c.rest),
      Parser.skipBefore (·.isOneOf orderStops) c) := by
  have fewer : ∀ t : Token, t.isOneOf orderStops = true →
      (t == .comma || t.isOneOf orderStops) = true :=
    fun t stops => Bool.or_eq_true_iff.mpr (.inr stops)
  have again := splitBefore_again fewer 0 c.rest
  unfold Parser.orderClause Parser.skipBefore
  dsimp only
  rw [again, placeholders_append, Nat.add_assoc]
  rfl

theorem orderClause_nested {terms rest : List Token}
    (nested : Nested (·.isOneOf orderStops) terms) (ends : Stops (·.isOneOf orderStops) rest)
    (k : Nat) :
    Parser.orderClause ⟨terms ++ rest, k⟩ =
      (order? (firstTerm terms), ⟨rest, k + placeholders terms⟩) := by
  have first : firstTerm (terms ++ rest) = firstTerm terms := by
    have ends : Stops (fun t => t == .comma || t.isOneOf orderStops) rest :=
      fun t head => Bool.or_eq_true_iff.mpr (.inr (ends t head))
    rw [firstTerm, splitBefore_closed (nested.depthBehind 0) ends]
    rfl
  rw [orderClause_eq, Parser.skipBefore, splitBefore_nested nested rfl fun _ _ => id,
    splitBefore_stops ends, first, List.append_nil]

/-- Further terms behind a comma leave the first one as it is. -/
theorem firstTerm_append {terms : List Token} (nested : Nested (·.isOneOf orderStops) terms)
    (further : List Token) : firstTerm (terms ++ .comma :: further) = firstTerm terms := by
  have comma : Stops (fun t => t == .comma || t.isOneOf orderStops) (.comma :: further) :=
    .cons rfl further
  rw [firstTerm, splitBefore_closed (nested.depthBehind 0) comma]
  rfl

/-! ## Conditions -/

/-- So many parameters from an index on are those of another list from another index on. -/
def SameParameters (given : List Json) (n : Nat) (params : List Json) (k count : Nat) : Prop :=
  ∀ i < count, parameter params (k + i) = parameter given (n + i)

section SameParameters

variable {given params : List Json} {n k : Nat}

theorem SameParameters.split {count more : Nat}
    (same : SameParameters given n params k (count + more)) :
    SameParameters given n params k count ∧
      SameParameters given (n + count) params (k + count) more := by
  refine ⟨fun i less => same i (Nat.lt_add_right more less), fun i less => ?_⟩
  rw [Nat.add_assoc, Nat.add_assoc]
  exact same (count + i) (Nat.add_lt_add_left less count)

/-- A condition on a parameter has a placeholder. -/
theorem placeholders_of_comparesSlot {condition : List Token} {field : String}
    (compares : ComparesSlot field condition) : 0 < placeholders condition := by
  obtain ⟨name, compares⟩ := compares
  have slot : Token.placeholder name ∈ condition := by
    cases compares <;> simp
  exact List.countP_pos_iff.mpr ⟨_, slot, rfl⟩

theorem Found.eq_counting {found found' : Found} (same : found.counting 0 = found'.counting 0) :
    found = found'.counting found.bound := by
  have restart : (found.counting 0).counting found.bound =
      (found'.counting 0).counting found.bound := by rw [same]
  exact restart

/-- Conditions find the same with the same parameters. -/
theorem foldl_add_sameParameters (conditions : List (List Token)) (found : Found)
    (same : SameParameters given found.bound params k (placeholders conditions.flatten)) :
    (conditions.foldl (Found.add params) (found.counting k)).counting 0 =
      (conditions.foldl (Found.add given) found).counting 0 := by
  induction conditions generalizing found k with
  | nil => rfl
  | cons condition others ih =>
    rw [List.flatten_cons, placeholders_append] at same
    obtain ⟨here, behind⟩ := same.split
    have first : ((found.counting k).add params condition).counting 0 =
        (found.add given condition).counting 0 := by
      refine Found.add_counting fun field compares => ?_
      have slot := placeholders_of_comparesSlot (comparison?_parameter_iff.mp compares)
      exact here 0 slot
    have restart : (found.counting k).add params condition =
        (found.add given condition).counting (k + placeholders condition) := by
      have bound : ((found.counting k).add params condition).bound = k + placeholders condition :=
        Found.add_bound params (found.counting k) condition
      rw [← bound]
      exact Found.eq_counting first
    rw [List.foldl_cons, List.foldl_cons, restart]
    rw [← Found.add_bound given] at behind
    exact ih _ behind

theorem findFilters_sameParameters {conditions : List (List Token)}
    (same : SameParameters given n params k (placeholders conditions.flatten)) :
    (findFilters params k conditions).filters = (findFilters given n conditions).filters := by
  have found := foldl_add_sameParameters conditions ⟨false, none, none, none, n⟩ same
  have filters := congrArg Found.filters found
  exact filters

end SameParameters

/-! ## What tokens lead to -/

/-- The keywords at which a selection reads a clause. -/
def clauseWords : List String := ["WHERE", "ORDER", "LIMIT", "OFFSET"]

/-- With the parameters from an index on, tokens lead from one selection to another, whatever of a
kind follows them. -/
def Leads (given : List Json) (n : Nat) (ts : List Token) (Behind : List Token → Prop)
    (selection last : Select) : Prop :=
  ∀ params k rest result, Behind rest → SameParameters given n params k (placeholders ts) →
    Completes params ⟨rest, k + placeholders ts⟩ last result →
      Completes params ⟨ts ++ rest, k⟩ selection result

section Leads

variable {given : List Json} {n : Nat} {Behind : List Token → Prop} {selection last : Select}

theorem leads_nil (selection : Select) : Leads given n [] Behind selection selection :=
  fun _ _ _ _ _ _ later => later

theorem Leads.append {Between : List Token → Prop} {front back : List Token} {middle : Select}
    (first : Leads given n front Between selection middle)
    (second : Leads given (n + placeholders front) back Behind middle last)
    (between : ∀ rest, Behind rest → Between (back ++ rest)) :
    Leads given n (front ++ back) Behind selection last := by
  intro params k rest result behind same later
  rw [placeholders_append] at same later
  rw [← Nat.add_assoc] at later
  obtain ⟨here, there⟩ := same.split
  rw [List.append_assoc]
  exact first params k _ result (between rest behind) here
    (second params _ rest result behind there later)

theorem clause_other (params : List Json) {t : Token} (noClause : t.isOneOf clauseWords = false)
    (c : Cursor) (selection : Select) :
    Parser.clause params t c selection =
      (selection, { c with bound := c.bound + placeholders [t] }) := by
  have none : ∀ k ∈ clauseWords, t.isKeyword k = false := by
    intro k mem
    exact Bool.eq_false_iff.mpr fun isKeyword =>
      Bool.false_ne_true (noClause.symm.trans (List.any_eq_true.mpr ⟨k, mem, isKeyword⟩))
  rw [Parser.clause, none "WHERE" (by decide), none "ORDER" (by decide), none "LIMIT" (by decide),
    none "OFFSET" (by decide)]
  rfl

/-- Tokens without a keyword of a clause are skipped, one at a time. -/
theorem completes_skip {params : List Json} {ts rest : List Token} {k : Nat} {result : Select}
    (noClause : ∀ t ∈ ts, t.isOneOf clauseWords = false)
    (later : Completes params ⟨rest, k + placeholders ts⟩ selection result) :
    Completes params ⟨ts ++ rest, k⟩ selection result := by
  induction ts generalizing k with
  | nil => exact later
  | cons t ts ih =>
    obtain ⟨noClause, others⟩ := List.forall_mem_cons.mp noClause
    rw [placeholders_cons, ← Nat.add_assoc] at later
    exact (ih others later).clause (clause_other params noClause ⟨ts ++ rest, k⟩ selection)
      List.suffix_rfl

theorem leads_skip {ts : List Token} (noClause : ∀ t ∈ ts, t.isOneOf clauseWords = false) :
    Leads given n ts (fun _ => True) selection selection :=
  fun _ _ _ _ _ _ later => completes_skip noClause later

/-- A `WHERE` reads its conditions, and what they leave leads on. -/
theorem leads_where {w : Token} {ts : List Token} (isWhere : w.isKeyword "WHERE" = true)
    (closed : depthBehind 0 ts = 0)
    (later : Leads given (n + placeholders (splitConditions 0 ts).1.flatten)
      (splitConditions 0 ts).2 EndsConditions
      { selection with filters := (findFilters given n (splitConditions 0 ts).1).filters } last) :
    Leads given n (w :: ts) EndsConditions selection last := by
  intro params k rest result ends same completes
  obtain ⟨taken, split, counts⟩ := (splitConditions_joined 0 ts).split
  have apart := splitConditions_closed closed ends
  generalize (splitConditions 0 ts).1 = conditions at later counts apart
  generalize (splitConditions 0 ts).2 = left at later split apart
  have total : placeholders (w :: ts) = placeholders conditions.flatten + placeholders left := by
    rw [placeholders_cons, placeholders_keyword isWhere, split, placeholders_append, counts,
      Nat.zero_add]
  rw [total] at same completes
  rw [← Nat.add_assoc] at completes
  obtain ⟨here, behind⟩ := same.split
  have filters := findFilters_sameParameters here
  have read : Parser.clause params w ⟨ts ++ rest, k⟩ selection =
      ({ selection with filters := (findFilters given n conditions).filters },
        ⟨left ++ rest, k + placeholders conditions.flatten⟩) := by
    have bound := findFilters_bound params ⟨false, none, none, none, k⟩ conditions
    rw [Parser.clause, if_pos isWhere, Parser.whereClause, apart, ← filters, ← bound]
    rfl
  have suffix := clause_suffix params w ⟨ts ++ rest, k⟩ selection
  rw [read] at suffix
  exact (later params _ rest result ends behind completes).clause read suffix

/-- The keywords behind a `WHERE` clause. -/
def conditionEnds : List String := ["ORDER", "LIMIT", "OFFSET", "GROUP", "HAVING"]

/-- A token that does not stand behind conditions belongs to them. -/
theorem splitConditions_left {depth : Nat} {t : Token}
    (goesOn : depth = 0 → t.isOneOf conditionEnds = false) (rest : List Token) :
    (splitConditions depth (t :: rest)).2 = (splitConditions (depthAfter depth t) rest).2 := by
  rw [splitConditions]
  split
  · next isAnd =>
    obtain ⟨rfl, isAnd⟩ := isAnd
    cases t <;> first | rfl | cases isAnd
  next noAnd =>
  split
  · next stops =>
    obtain ⟨rfl, stops⟩ := stops
    rcases Bool.or_eq_true_iff.mp stops with isAnd | isEnd
    · exact absurd ⟨rfl, isAnd⟩ noAnd
    · exact absurd (isEnd.symm.trans (goesOn rfl)) (by decide)
  · dsimp only
    split <;> rfl

/-- Nested conditions leave only what stands behind them. -/
theorem splitConditions_nested_left {stop : Token → Bool} {ts : List Token}
    (nested : Nested stop ts) {depth : Nat}
    (ends : depth = 0 → ∀ t, stop t = false → t.isOneOf conditionEnds = false)
    (rest : List Token) :
    (splitConditions depth (ts ++ rest)).2 = (splitConditions depth rest).2 := by
  induction nested generalizing depth rest with
  | nil => rfl
  | token noLeft noRight goesOn _ ih =>
    rw [List.cons_append, splitConditions_left fun outside => ends outside _ goesOn,
      depthAfter_plain noLeft noRight, ih ends]
  | parens _ _ ihInside ihBehind =>
    have inside : ∀ {P : Prop}, depth + 1 = 0 → P := fun outside =>
      absurd outside (Nat.succ_ne_zero depth)
    rw [List.cons_append, List.append_assoc, splitConditions_left fun _ => rfl, depthAfter,
      ihInside inside, List.cons_append, splitConditions_left inside, depthAfter,
      Nat.add_sub_cancel, ihBehind ends]

/-- A `WHERE` in front of nested conditions reads all of them. -/
theorem leads_conditions (given : List Json) (n : Nat) {w : Token} {ts : List Token}
    (isWhere : w.isKeyword "WHERE" = true) (nested : Nested (·.isOneOf conditionEnds) ts)
    (selection : Select) :
    ∃ last, Leads given n (w :: ts) EndsConditions selection last := by
  have left : (splitConditions 0 ts).2 = [] := by
    have all : (splitConditions 0 (ts ++ [])).2 = (splitConditions 0 []).2 :=
      splitConditions_nested_left nested (fun _ _ => id) []
    rwa [List.append_nil] at all
  refine ⟨{ selection with filters := (findFilters given n (splitConditions 0 ts).1).filters },
    leads_where isWhere (nested.depthBehind 0) ?_⟩
  rw [left]
  exact leads_nil _

/-- Tokens that close their parentheses and hold no keyword of an ordering or a window lead on in
front of what ends conditions: a `WHERE` among them reads conditions again. -/
theorem leads_plain (given : List Json) (n : Nat) {ts : List Token}
    (plain : ∀ t ∈ ts, t.isOneOf ["ORDER", "LIMIT", "OFFSET"] = false)
    (closed : depthBehind 0 ts = 0) (selection : Select) :
    ∃ last, Leads given n ts EndsConditions selection last := by
  induction length : ts.length using Nat.strongRecOn generalizing ts n selection with
  | ind m ih =>
    cases ts with
    | nil => exact ⟨selection, leads_nil selection⟩
    | cons t rest =>
      obtain ⟨notThis, others⟩ := List.forall_mem_cons.mp plain
      have closedRest : depthBehind 0 rest = 0 :=
        depthBehind_suffix (show depthBehind 0 ([t] ++ rest) = 0 from closed)
      cases isWhere : t.isKeyword "WHERE" with
      | true =>
        have suffix : (splitConditions 0 rest).2 <:+ rest :=
          whereClause_suffix [] ⟨rest, 0⟩
        have shorter : (splitConditions 0 rest).2.length < m := by
          rw [← length, List.length_cons]
          exact Nat.lt_succ_of_le suffix.length_le
        have closedLeft : depthBehind 0 (splitConditions 0 rest).2 = 0 := by
          obtain ⟨taken, split⟩ := suffix
          rw [← split] at closedRest
          exact depthBehind_suffix closedRest
        obtain ⟨last, later⟩ := ih _ shorter _ (fun u mem => others u (suffix.subset mem))
          closedLeft _ rfl
        exact ⟨last, leads_where isWhere closedRest later⟩
      | false =>
        have noClause : ∀ u ∈ [t], u.isOneOf clauseWords = false := by
          rw [List.forall_mem_singleton]
          exact Bool.or_eq_false_iff.mpr ⟨isWhere, notThis⟩
        have shorter : rest.length < m := length ▸ Nat.lt_succ_self _
        obtain ⟨last, later⟩ := ih _ shorter (n + placeholders [t]) others closedRest selection rfl
        exact ⟨last, (leads_skip noClause).append later fun _ _ => trivial⟩

end Leads

/-- An ordering in front of what ends its terms orders by its first term. -/
theorem completes_ordering {params : List Json} {o by_ : Token} {terms rest : List Token} {k : Nat}
    {selection result : Select} (isOrder : o.isKeyword "ORDER" = true)
    (isBy : by_.isKeyword "BY" = true) (nested : Nested (·.isOneOf orderStops) terms)
    (ends : Stops (·.isOneOf orderStops) rest)
    (later : Completes params ⟨rest, k + placeholders (o :: by_ :: terms)⟩
      { selection with order := order? (firstTerm terms) } result) :
    Completes params ⟨o :: by_ :: (terms ++ rest), k⟩ selection result := by
  have noWhere : o.isKeyword "WHERE" = false :=
    isKeyword_other (isOneOf_singleton isOrder) (by decide)
  have marks : placeholders (o :: by_ :: terms) = placeholders terms := by
    rw [placeholders_cons, placeholders_cons by_, placeholders_keyword isOrder,
      placeholders_keyword isBy, Nat.zero_add, Nat.zero_add]
  rw [marks] at later
  have read : Parser.clause params o ⟨by_ :: (terms ++ rest), k⟩ selection =
      ({ selection with order := order? (firstTerm terms) },
        ⟨rest, k + placeholders terms⟩) := by
    rw [Parser.clause, noWhere, if_neg Bool.false_ne_true, if_pos isOrder]
    dsimp only
    rw [if_pos isBy, orderClause_nested nested ends]
  exact later.clause read ((List.suffix_append terms rest).trans (List.suffix_cons by_ _))

end ContentStore.Sql
