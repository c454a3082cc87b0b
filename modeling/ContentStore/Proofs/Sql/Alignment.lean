import ContentStore.Proofs.Sql.Clauses
import ContentStore.Sql.Scan
import Mathlib.Data.List.Basic
/-!
# The parameters of the placeholders

The aligned reading of a statement takes from each placeholder the parameter of the number of
placeholders that stand before it (`aligned`, `getElem?_place`).  A statement is read so unless the
alias of its table is a placeholder behind `AS` (`parse_aligned`); behind such an alias each
parameter is that of one placeholder before (`parse_behindAlias`), so that a text is read as aligned
exactly if it has no such alias or does not change when its parameters move (`parse_aligned_iff`).
-/

namespace ContentStore.Sql

open Token (placeholders)

/-- A reader of placed tokens follows a reader at a cursor: it gives the same, and what remains is
placed as the cursor says. -/
def Follows {α : Type} (value : Nat → Json) (p : Parser α) (q : PlacedReader α) : Prop :=
  ∀ c, q.run (c.placed value) = (p.run c).map (Prod.map id (Cursor.placed value))

section Follows

variable {α β : Type} {value : Nat → Json}

/-! ## Composition -/

theorem follows_pure (a : α) : Follows value (pure a) (pure a) := fun _ => rfl

theorem follows_throw (e : StoreError) : Follows value (throw e : Parser α) (throw e) :=
  fun _ => rfl

theorem follows_plain {p : Parser α} (steady : p.Steady) : Follows value p (Placed.plain p) :=
  fun c => run_plain value (steady c.rest)

theorem follows_bind {p : Parser α} {q : PlacedReader α} {f : α → Parser β}
    {g : α → PlacedReader β} (first : Follows value p q)
    (next : ∀ a, Follows value (f a) (g a)) : Follows value (p >>= f) (q >>= g) := by
  intro c
  rw [StateT.run_bind, StateT.run_bind, first]
  cases p.run c with
  | error e => rfl
  | ok found => exact next found.1 found.2

theorem follows_commaSeparated {p : Parser α} {q : PlacedReader α} (item : Follows value p q)
    (fuel : Nat) :
    Follows value (Parser.commaSeparated p fuel) (Placed.commaSeparated q fuel) := by
  induction fuel with
  | zero => exact follows_bind item fun a => follows_pure _
  | succ fuel ih =>
    refine follows_bind item fun a => ?_
    refine follows_bind (follows_plain (Parser.steady_eatToken rfl)) fun more => ?_
    cases more with
    | true => exact follows_bind ih fun rest => follows_pure _
    | false => exact follows_pure _

theorem follows_list {p : Parser α} {q : PlacedReader α} (item : Follows value p q) :
    Follows value (Parser.list p) (Placed.list q) := by
  intro c
  change (Placed.commaSeparated q (c.placed value).length).run (c.placed value) = _
  rw [length_placed]
  exact follows_commaSeparated item c.rest.length c

end Follows

/-! ## The readers that take parameters -/

section Statements

variable {params : List Json}

/-- What is no placeholder is read as without parameters. -/
theorem run_value_literal (value : Nat → Json) {c : Cursor}
    (noParameter : ∀ n rest, c.rest ≠ .placeholder n :: rest) :
    Placed.value.run (c.placed value) = (Placed.plain (Parser.value [])).run (c.placed value) := by
  obtain ⟨ts, k⟩ := c
  cases ts with
  | nil => rfl
  | cons t rest =>
    cases t with
    | placeholder n => exact absurd rfl (noParameter n rest)
    | _ => rfl

theorem follows_value : Follows (parameter params) (Parser.value params) Placed.value := by
  intro c
  by_cases noParameter : ∀ n rest, c.rest ≠ .placeholder n :: rest
  · have steady := Parser.steadyAt_value [] noParameter
    have same := Parser.run_value params noParameter c.bound
    rw [run_value_literal _ noParameter]
    exact (run_plain (parameter params) steady).trans (congrArg (Except.map _) same.symm)
  · simp only [ne_eq, Classical.not_forall, Classical.not_not] at noParameter
    obtain ⟨n, rest, begins⟩ := noParameter
    obtain ⟨ts, k⟩ := c
    cases begins
    rfl

theorem follows_assignment :
    Follows (parameter params) (Parser.assignment params) Placed.assignment := by
  refine follows_bind (follows_plain Parser.steady_name) fun field => ?_
  refine follows_bind (follows_plain Parser.steady_expectEqual) fun _ => ?_
  exact follows_bind follows_value fun v => follows_pure _

theorem follows_whereId (verb : String) :
    Follows (parameter params) (Parser.whereId params verb) (Placed.whereId verb) := by
  refine follows_bind (follows_plain (Parser.steady_eatKeyword "WHERE")) fun found => ?_
  cases found with
  | false => exact follows_throw _
  | true =>
    refine follows_bind (follows_plain Parser.steady_name) fun field => ?_
    dsimp only
    split
    · refine follows_bind (follows_plain Parser.steady_expectEqual) fun _ => ?_
      refine follows_bind follows_value fun assigned => ?_
      cases assigned with
      | value v => exact follows_pure v
      | now => exact follows_throw _
    · exact follows_throw _

/-- The assignments of an insertion without columns. -/
def columnlessAssignments (params : List Json) : List Assignment :=
  (columnlessFields.zip params).map fun (f, v) => ⟨f, .value v⟩

theorem follows_insertValues (t : Table) (columns : Option (List String)) :
    Follows (parameter params)
      (do
        unless ← Parser.eatKeyword "VALUES" do throw (.unsupported .insertWithoutValues)
        Parser.expectToken .leftParen
        let values ← Parser.list (Parser.value params)
        Parser.expectToken .rightParen
        Parser.expectEnd
        match columns with
        | some names => return .insert t (← Parser.assign names values)
        | none => return .insert t (columnlessAssignments params))
      (do
        unless ← Placed.plain (Parser.eatKeyword "VALUES") do
          throw (.unsupported .insertWithoutValues)
        Placed.plain (Parser.expectToken .leftParen)
        let values ← Placed.list Placed.value
        Placed.plain (Parser.expectToken .rightParen)
        Placed.plain Parser.expectEnd
        match columns with
        | some names => return Statement.insert t (← Placed.plain (Parser.assign names values))
        | none => return .insert t (columnlessAssignments params)) := by
  refine follows_bind (follows_plain (Parser.steady_eatKeyword "VALUES")) fun found => ?_
  cases found with
  | false => exact follows_throw _
  | true =>
    refine follows_bind (follows_plain (Parser.steady_expectToken rfl)) fun _ => ?_
    refine follows_bind (follows_list follows_value) fun values => ?_
    refine follows_bind (follows_plain (Parser.steady_expectToken rfl)) fun _ => ?_
    refine follows_bind (follows_plain Parser.steady_expectEnd) fun _ => ?_
    cases columns with
    | none => exact follows_pure _
    | some names =>
      exact follows_bind (follows_plain (Parser.steady_assign names values)) fun _ =>
        follows_pure _

theorem follows_insert :
    Follows (parameter params) (Parser.insert params)
      (Placed.insert (columnlessAssignments params)) := by
  refine follows_bind (follows_plain (Parser.steady_expectKeyword "INTO")) fun _ => ?_
  refine follows_bind (follows_plain Parser.steady_table) fun t => ?_
  refine follows_bind (follows_plain (Parser.steady_eatToken rfl)) fun opens => ?_
  cases opens with
  | true =>
    refine follows_bind (follows_plain (Parser.steady_list Parser.steady_name)) fun names => ?_
    refine follows_bind (follows_plain (Parser.steady_expectToken rfl)) fun _ => ?_
    exact follows_insertValues t (some names)
  | false => exact follows_insertValues t none

/-- A change behind the alias of its table. -/
theorem follows_changes (t : Table) :
    Follows (parameter params)
      (do
        Parser.expectKeyword "SET"
        let changes ← Parser.list (Parser.assignment params)
        return .update t (← Parser.whereId params "UPDATE") changes)
      (do
        Placed.plain (Parser.expectKeyword "SET")
        let changes ← Placed.list Placed.assignment
        return Statement.update t (← Placed.whereId "UPDATE") changes) := by
  refine follows_bind (follows_plain (Parser.steady_expectKeyword "SET")) fun _ => ?_
  refine follows_bind (follows_list follows_assignment) fun changes => ?_
  exact follows_bind (follows_whereId "UPDATE") fun id => follows_pure _

end Statements

/-! ## The placeholder of an alias -/

/-- Reads the table that a selection is made from, behind its verb. -/
def Parser.selectedTable : Parser Table := do
  modify (skipBefore (·.isKeyword "FROM"))
  expectKeyword "FROM"
  table

/-- Reads the table of a deletion, behind its verb. -/
def Parser.deletedTable : Parser Table := do
  expectKeyword "FROM"
  table

/-- The tokens behind the table that a reader reads begin with `AS` and a placeholder. -/
def aliasPlaceholderBehind (p : Parser Table) (ts : List Token) : Bool :=
  match p.run ⟨ts, 0⟩ with
  | .ok (_, c) => startsWithAliasPlaceholder c.rest
  | .error _ => false

/-- The alias of the table that a statement names is a placeholder behind `AS`. -/
def hasAliasPlaceholder : List Token → Bool
  | .word _ word :: rest =>
    let verb := Text.upperAscii word
    if verb = "SELECT" then aliasPlaceholderBehind Parser.selectedTable rest
    else if verb = "INSERT" then false
    else if verb = "UPDATE" then aliasPlaceholderBehind Parser.table rest
    else if verb = "DELETE" then aliasPlaceholderBehind Parser.deletedTable rest
    else false
  | _ => false

/-- Behind an alias that is a placeholder the cursor counts one placeholder less. -/
theorem run_plain_skipAlias {params : List Json} {value : Nat → Json} (c : Cursor)
    (shifted : ∀ i, value (i + (startsWithAliasPlaceholder c.rest).toNat) = parameter params i) :
    ∃ left, Parser.skipAlias.run c = .ok ((), ⟨left, c.bound⟩) ∧
      (Placed.plain Parser.skipAlias).run (c.placed value) =
        .ok ((), Cursor.placed (parameter params) ⟨left, c.bound⟩) := by
  obtain ⟨taken, left, split, counts, reads⟩ := Parser.run_skipAlias c.rest
  refine ⟨left, reads c.bound, ?_⟩
  have plain : (Placed.plain Parser.skipAlias).run (c.placed value) =
      .ok ((), Placed.remaining (c.placed value) left) := by
    rw [StateT.run, Placed.plain, tokens_placed, reads]
    rfl
  rw [plain, Cursor.placed, split, remaining_place, place_add, counts, funext shifted]
  rfl

/-- The tokens that remain do not matter for what is given. -/
theorem map_fst_placed {α : Type} (value : Nat → Json) (result : Except StoreError (α × Cursor)) :
    Prod.fst <$> result.map (Prod.map id (Cursor.placed value)) = Prod.fst <$> result := by
  cases result <;> rfl

theorem Follows.run' {α : Type} {value : Nat → Json} {p : Parser α} {q : PlacedReader α}
    (follows : Follows value p q) (ts : List Token) :
    q.run' (place value 0 ts) = p.run' ⟨ts, 0⟩ := by
  rw [StateT.run'_eq, StateT.run'_eq, ← map_fst_placed value]
  exact congrArg _ (follows ⟨ts, 0⟩)

/-- What is read behind an alias is read with the values of one placeholder later. -/
theorem run_behindAlias {params : List Json} {value : Nat → Json} {p : Parser Table}
    {q : PlacedReader Table} {f : Table → Parser Statement} {g : Table → PlacedReader Statement}
    {ts : List Token} (first : Follows value p q)
    (next : ∀ t, Follows (parameter params) (f t) (g t))
    (shifted : ∀ i, value (i + (aliasPlaceholderBehind p ts).toNat) = parameter params i) :
    (do let t ← q; Placed.plain Parser.skipAlias; g t).run' (place value 0 ts) =
      (do let t ← p; Parser.skipAlias; f t).run' ⟨ts, 0⟩ := by
  have table := first ⟨ts, 0⟩
  rw [Cursor.placed] at table
  rw [StateT.run'_eq, StateT.run'_eq, StateT.run_bind, StateT.run_bind, table]
  cases reads : p.run ⟨ts, 0⟩ with
  | error e => rfl
  | ok found =>
    obtain ⟨t, c⟩ := found
    rw [aliasPlaceholderBehind, reads] at shifted
    obtain ⟨left, skips, placed⟩ := run_plain_skipAlias c shifted
    have behind : (do Placed.plain Parser.skipAlias; g t).run (c.placed value) =
        ((do Parser.skipAlias; f t).run c).map
          (Prod.map id (Cursor.placed (parameter params))) := by
      rw [StateT.run_bind, StateT.run_bind, skips, placed]
      exact next t ⟨left, c.bound⟩
    refine (congrArg (Functor.map Prod.fst) behind).trans ?_
    exact map_fst_placed _ _

/-! ## Statements -/

theorem follows_selectedTable (value : Nat → Json) :
    Follows value Parser.selectedTable (do
      Placed.plain (modify (Parser.skipBefore (·.isKeyword "FROM")))
      Placed.plain (Parser.expectKeyword "FROM")
      Placed.plain Parser.table) := by
  refine follows_bind (follows_plain (Parser.steady_skipBefore _)) fun _ => ?_
  refine follows_bind (follows_plain (Parser.steady_expectKeyword "FROM")) fun _ => ?_
  exact follows_plain Parser.steady_table

theorem follows_deletedTable (value : Nat → Json) :
    Follows value Parser.deletedTable (do
      Placed.plain (Parser.expectKeyword "FROM")
      Placed.plain Parser.table) := by
  refine follows_bind (follows_plain (Parser.steady_expectKeyword "FROM")) fun _ => ?_
  exact follows_plain Parser.steady_table

/-- The clauses of a selection behind the alias of its table. -/
theorem follows_clauses (params : List Json) (t : Table) :
    Follows (parameter params)
      (do
        let c ← get
        return .select (Parser.clauses params c.rest.length c (Select.all t)))
      (do
        let placed ← get
        return Statement.select (Placed.clauses placed.length placed (Select.all t))) := by
  intro c
  change Except.ok (Statement.select (Placed.clauses (c.placed _).length (c.placed _) _), _) = _
  rw [length_placed, placed_clauses]
  rfl

section Shifted

variable {params : List Json} {value : Nat → Json} {ts : List Token}

theorem run_select
    (shifted : ∀ i, value (i + (aliasPlaceholderBehind Parser.selectedTable ts).toNat) =
      parameter params i) :
    Placed.select.run' (place value 0 ts) = (Parser.select params).run' ⟨ts, 0⟩ := by
  have behind := run_behindAlias (follows_selectedTable value) (follows_clauses params) shifted
  simp only [bind_assoc, Parser.selectedTable] at behind
  exact behind

theorem run_update
    (shifted : ∀ i, value (i + (aliasPlaceholderBehind Parser.table ts).toNat) =
      parameter params i) :
    Placed.update.run' (place value 0 ts) = (Parser.update params).run' ⟨ts, 0⟩ :=
  run_behindAlias (follows_plain Parser.steady_table) follows_changes shifted

theorem run_delete
    (shifted : ∀ i, value (i + (aliasPlaceholderBehind Parser.deletedTable ts).toNat) =
      parameter params i) :
    Placed.delete.run' (place value 0 ts) = (Parser.delete params).run' ⟨ts, 0⟩ := by
  have behind := run_behindAlias (follows_deletedTable value)
    (fun t => follows_bind (follows_whereId "DELETE") fun id =>
      follows_pure (Statement.delete t id)) shifted
  simp only [bind_assoc, Parser.deletedTable] at behind
  exact behind

theorem run_insert (shifted : ∀ i, value i = parameter params i) :
    (Placed.insert (columnlessAssignments params)).run' (place value 0 ts) =
      (Parser.insert params).run' ⟨ts, 0⟩ := by
  rw [funext shifted]
  exact follows_insert.run' ts

theorem run_statement_word (params : List Json) (quote : Option Char) (word : String)
    (rest : List Token) :
    (Parser.statement params).run' ⟨.word quote word :: rest, 0⟩ =
      (let verb := Text.upperAscii word
        if verb = "SELECT" then Parser.select params
        else if verb = "INSERT" then Parser.insert params
        else if verb = "UPDATE" then Parser.update params
        else if verb = "DELETE" then Parser.delete params
        else throw (.unsupported (.verb verb))).run' ⟨rest, 0⟩ :=
  rfl

theorem run_placed_statement_word (columnless : List Assignment) (value : Nat → Json)
    (quote : Option Char) (word : String) (rest : List Token) :
    (Placed.statement columnless).run' (place value 0 (.word quote word :: rest)) =
      Prod.fst <$> (let verb := Text.upperAscii word
        if verb = "SELECT" then Placed.select (place value 0 rest)
        else if verb = "INSERT" then Placed.insert columnless (place value 0 rest)
        else if verb = "UPDATE" then Placed.update (place value 0 rest)
        else if verb = "DELETE" then Placed.delete (place value 0 rest)
        else .error (.unsupported (.verb verb))) :=
  rfl

/-- A statement is read as its placeholders carry their values, where they carry the parameters
behind its alias.  Only an insertion has assignments without columns, and it has no alias. -/
theorem run_statement {columnless : List Assignment}
    (shifted : ∀ i, value (i + (hasAliasPlaceholder ts).toNat) = parameter params i)
    (insertion : hasAliasPlaceholder ts = false → columnless = columnlessAssignments params) :
    (Placed.statement columnless).run' (place value 0 ts) =
      (Parser.statement params).run' ⟨ts, 0⟩ := by
  cases ts with
  | nil => rfl
  | cons t rest =>
    cases t with
    | word quote word =>
      rw [run_placed_statement_word, run_statement_word]
      dsimp only [hasAliasPlaceholder] at shifted insertion ⊢
      split
      · next isSelect =>
        rw [if_pos isSelect] at shifted
        exact run_select shifted
      next noSelect =>
      rw [if_neg noSelect] at shifted insertion
      split
      · next isInsert =>
        rw [if_pos isInsert] at shifted insertion
        rw [insertion rfl]
        exact run_insert shifted
      next noInsert =>
      rw [if_neg noInsert] at shifted
      split
      · next isUpdate =>
        rw [if_pos isUpdate] at shifted
        exact run_update shifted
      next noUpdate =>
      rw [if_neg noUpdate] at shifted
      split
      · next isDelete =>
        rw [if_pos isDelete] at shifted
        exact run_delete shifted
      · rfl
    | _ => rfl

end Shifted

/-! ## Texts -/

/-- The aligned reading: each placeholder has the parameter of the number of placeholders before
it. -/
def aligned (tokens : List Token) (params : List Json) : Except StoreError Statement :=
  (Placed.statement (columnlessAssignments params)).run' (place (parameter params) 0 tokens)

/-- A text makes the statement of its tokens up to the semicolons at the end. -/
theorem parse_scanned {text : String} {tokens : List Token} (params : List Json)
    (scans : scan text = .ok tokens) :
    parse text params = (Parser.statement params).run' ⟨dropSemicolons tokens, 0⟩ := by
  rw [parse, scans]
  rfl

/-- Without a placeholder for an alias a text is read as aligned. -/
theorem parse_aligned {text : String} {tokens : List Token} (params : List Json)
    (scans : scan text = .ok tokens)
    (noAlias : hasAliasPlaceholder (dropSemicolons tokens) = false) :
    parse text params = aligned (dropSemicolons tokens) params := by
  rw [parse_scanned params scans, aligned]
  refine (run_statement (fun i => ?_) fun _ => rfl).symm
  rw [noAlias]
  rfl

theorem parameter_tail (params : List Json) (i : Nat) :
    parameter params (i + 1) = parameter params.tail i := by
  rw [parameter, parameter, List.getElem?_tail]

/-- With a placeholder for an alias a text is read as aligned without the first parameter: what
follows the alias has the parameters of one placeholder before. -/
theorem parse_behindAlias {text : String} {tokens : List Token} (params : List Json)
    (scans : scan text = .ok tokens)
    (hasAlias : hasAliasPlaceholder (dropSemicolons tokens) = true) :
    parse text params.tail = aligned (dropSemicolons tokens) params := by
  rw [parse_scanned params.tail scans, aligned]
  refine (run_statement (fun i => ?_) fun noAlias => ?_).symm
  · rw [hasAlias]
    exact parameter_tail params i
  · rw [hasAlias] at noAlias
    cases noAlias

/-- A text is read as its placeholders carry the parameters of the numbers of placeholders before
them exactly if no alias is a placeholder or the parameters may be moved by one. -/
theorem parse_aligned_iff {text : String} {tokens : List Token} (params : List Json)
    (scans : scan text = .ok tokens) :
    ∃ placed : List Placed,
      (∀ i, placed[i]? = (dropSemicolons tokens)[i]?.map fun t =>
        (t, parameter params (placeholders ((dropSemicolons tokens).take i)))) ∧
      (parse text params = (Placed.statement (columnlessAssignments params)).run' placed ↔
        hasAliasPlaceholder (dropSemicolons tokens) = false ∨
          parse text params = parse text params.tail) := by
  refine ⟨place (parameter params) 0 (dropSemicolons tokens), getElem?_place _ _, ?_⟩
  rw [← aligned]
  cases hasAlias : hasAliasPlaceholder (dropSemicolons tokens) with
  | false =>
    have reads := parse_aligned params scans hasAlias
    exact ⟨fun _ => .inl rfl, fun _ => reads⟩
  | true =>
    rw [← parse_behindAlias params scans hasAlias]
    refine ⟨.inr, fun or => ?_⟩
    rcases or with impossible | moved
    · cases impossible
    · exact moved

/-- A selection by the third parameter: the first one stands in the projection, and the second one
in a clause that is skipped. -/
theorem parse_aligned_iff_skipped :
    let text := "SELECT IF(?, a, b) FROM pages JOIN menus ON c = ? WHERE id = ?"
    let tokens : List Token := [.word none "SELECT", .word none "IF", .leftParen, .placeholder "?",
      .comma, .word none "a", .comma, .word none "b", .rightParen, .word none "FROM",
      .word none "pages", .word none "JOIN", .word none "menus", .word none "ON", .word none "c",
      .equal, .placeholder "?", .word none "WHERE", .word none "id", .equal, .placeholder "?"]
    let params : List Json := [.text "x", .text "y", .text "z"]
    scan text = .ok tokens ∧ hasAliasPlaceholder (dropSemicolons tokens) = false ∧
      ∃ placed : List Placed,
        (∀ i, placed[i]? = (dropSemicolons tokens)[i]?.map fun t =>
          (t, parameter params (placeholders ((dropSemicolons tokens).take i)))) ∧
        parse text params = (Placed.statement (columnlessAssignments params)).run' placed ∧
        parse text params = .ok (.select ⟨.pages, [.id (.text "z")], none, none, none⟩) := by
  intro text tokens params
  have scans : scan text = .ok tokens := by decide +kernel
  have noAlias : hasAliasPlaceholder (dropSemicolons tokens) = false := by decide +kernel
  obtain ⟨placed, carries, aligned⟩ := parse_aligned_iff params scans
  refine ⟨scans, noAlias, placed, carries, aligned.mpr (.inl noAlias), ?_⟩
  rw [parse, scans]
  rfl

/-- The placeholder of an alias takes no parameter, so the identifier is the first one. -/
theorem parse_alias_misaligned :
    parse "SELECT * FROM pages AS ? WHERE id = ?" [.text "a", .text "b"] =
        .ok (.select ⟨.pages, [.id (.text "a")], none, none, none⟩) ∧
      ∃ tokens, scan "SELECT * FROM pages AS ? WHERE id = ?" = .ok tokens ∧
        aligned (dropSemicolons tokens) [.text "a", .text "b"] =
          .ok (.select ⟨.pages, [.id (.text "b")], none, none, none⟩) :=
  ⟨rfl, _, rfl, rfl⟩

end ContentStore.Sql
