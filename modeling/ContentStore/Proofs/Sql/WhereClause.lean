import ContentStore.Proofs.Sql.Meaning
import ContentStore.Proofs.Sql.Rendered
/-!
# The `WHERE` clause of a selection

A selection reads its clauses one after another, each behind the one before (`Reaches`).  At a
`WHERE` in front of joined conditions it reads the filters that these mean, with the parameter of
the number of placeholders in front of each, and goes on behind the last condition; clauses of
other kinds leave the filters as they are (`where_read_as_meant`).
-/

namespace ContentStore.Sql

open Token (placeholders)

/-! ## What a clause leaves -/

theorem countClause_suffix (params : List Json) (c : Cursor) :
    (Parser.countClause params c).2.rest <:+ c.rest := by
  obtain ⟨ts, k⟩ := c
  cases ts with
  | nil => exact List.suffix_rfl
  | cons t rest =>
    rw [Parser.countClause]
    dsimp only
    split
    · exact List.suffix_rfl
    · cases t <;> exact List.suffix_cons _ rest

theorem limitClause_suffix (params : List Json) (c : Cursor) (selection : Select) :
    (Parser.limitClause params c selection).2.rest <:+ c.rest := by
  have first := countClause_suffix params c
  rw [Parser.limitClause]
  cases read : Parser.countClause params c with
  | mk count left =>
    rw [read] at first
    dsimp only at first ⊢
    split
    · next rest comma =>
      have second := countClause_suffix params ⟨rest, left.bound⟩
      rw [comma] at first
      exact second.trans ((List.suffix_cons _ rest).trans first)
    · exact first

theorem whereClause_suffix (params : List Json) (c : Cursor) :
    (Parser.whereClause params c).2.rest <:+ c.rest := by
  obtain ⟨taken, split, -⟩ := (splitConditions_joined 0 c.rest).split
  exact ⟨taken, split.symm⟩

theorem orderClause_suffix (c : Cursor) : (Parser.orderClause c).2.rest <:+ c.rest := by
  obtain ⟨taken, split, -⟩ := orderClause_split c
  exact ⟨taken, split.symm⟩

/-- A clause leaves tokens at the end of those behind its keyword. -/
theorem clause_suffix (params : List Json) (t : Token) (c : Cursor) (selection : Select) :
    (Parser.clause params t c selection).2.rest <:+ c.rest := by
  unfold Parser.clause
  split
  · exact whereClause_suffix params c
  split
  · split
    · next by_ rest behind =>
      rw [behind]
      split
      · exact (orderClause_suffix ⟨rest, c.bound⟩).trans (List.suffix_cons _ _)
      · exact behind ▸ List.suffix_rfl
    · exact List.suffix_rfl
  split
  · exact limitClause_suffix params c selection
  split
  · exact countClause_suffix params c
  · exact List.suffix_rfl

theorem limitClause_filters (params : List Json) (c : Cursor) (selection : Select) :
    (Parser.limitClause params c selection).1.filters = selection.filters := by
  unfold Parser.limitClause
  dsimp only
  split <;> rfl

/-- Only a `WHERE` clause changes what is filtered by. -/
theorem clause_filters (params : List Json) {t : Token}
    (noWhere : t.isKeyword "WHERE" = false) (c : Cursor) (selection : Select) :
    (Parser.clause params t c selection).1.filters = selection.filters := by
  unfold Parser.clause
  rw [noWhere, if_neg Bool.false_ne_true]
  split
  · split
    · split <;> rfl
    · rfl
  split
  · exact limitClause_filters params c selection
  split <;> rfl

/-! ## Clauses in turn -/

/-- No `WHERE` stands among the tokens. -/
def NoWhere (ts : List Token) : Prop := ∀ t ∈ ts, t.isKeyword "WHERE" = false

instance (ts : List Token) : Decidable (NoWhere ts) :=
  inferInstanceAs (Decidable (∀ t ∈ ts, t.isKeyword "WHERE" = false))

/-- The clauses at a cursor complete a selection, and without a `WHERE` its filters stay. -/
theorem completes_exists (params : List Json) (c : Cursor) (selection : Select) :
    ∃ result, Completes params c selection result ∧
      (NoWhere c.rest → result.filters = selection.filters) := by
  obtain ⟨ts, k⟩ := c
  induction length : ts.length using Nat.strongRecOn generalizing ts k selection with
  | ind n ih =>
    cases ts with
    | nil => exact ⟨selection, completes_nil selection, fun _ => rfl⟩
    | cons t rest =>
      have suffix := clause_suffix params t ⟨rest, k⟩ selection
      cases reads : Parser.clause params t ⟨rest, k⟩ selection with
      | mk selection' c' =>
        rw [reads] at suffix
        have shorter : c'.rest.length < n := by
          have bound := suffix.length_le
          simp only [List.length_cons] at length bound
          omega
        obtain ⟨result, later, keeps⟩ := ih _ shorter selection' c'.rest c'.bound rfl
        refine ⟨result, later.clause reads suffix, fun noWhere => ?_⟩
        obtain ⟨notThis, notBehind⟩ := List.forall_mem_cons.mp noWhere
        have same := clause_filters params notThis ⟨rest, k⟩ selection
        rw [reads] at same
        exact (keeps fun t mem => notBehind t (suffix.subset mem)).trans same

/-- Reading a clause or skipping a token at a time leads from one cursor to another. -/
inductive Reaches (params : List Json) : Cursor → Select → Cursor → Select → Prop
  | here (c : Cursor) (selection : Select) : Reaches params c selection c selection
  | behind {t : Token} {rest : List Token} {k : Nat} {selection selection' last : Select}
    {c d : Cursor} (reads : Parser.clause params t ⟨rest, k⟩ selection = (selection', c))
    (later : Reaches params c selection' d last) :
    Reaches params ⟨t :: rest, k⟩ selection d last

variable {params : List Json}

theorem Reaches.completes {c d : Cursor} {selection last result : Select}
    (reaches : Reaches params c selection d last) (later : Completes params d last result) :
    Completes params c selection result := by
  induction reaches with
  | here => exact later
  | @behind t rest k selection _ _ _ _ reads _ ih =>
    have suffix := clause_suffix params t ⟨rest, k⟩ selection
    rw [reads] at suffix
    exact (ih later).clause reads suffix

/-- A text selects from a table, with its clauses from a cursor on. -/
inductive SelectsFrom (text : String) (table : Table) (start : Cursor) : Prop
  | intro {tokens rest : List Token} {quote : Option Char} {verb : String} {behindTable : Cursor}
    (scans : scan text = .ok tokens) (begins : dropSemicolons tokens = .word quote verb :: rest)
    (isSelect : Text.upperAscii verb = "SELECT")
    (reads : Parser.selectedTable.run ⟨rest, 0⟩ = .ok (table, behindTable))
    (skips : Parser.skipAlias.run behindTable = .ok ((), start))

theorem SelectsFrom.parse {text : String} {table : Table} {start : Cursor} {result : Select}
    (selects : SelectsFrom text table start)
    (completes : Completes params start (Select.all table) result) :
    parse text params = .ok (.select result) := by
  obtain ⟨scans, begins, isSelect, reads, skips⟩ := selects
  have parts : Parser.select params = (do
      let t ← Parser.selectedTable
      Parser.skipAlias
      let c ← get
      return .select (Parser.clauses params c.rest.length c (Select.all t))) := by
    simp only [Parser.select, Parser.selectedTable, bind_assoc]
  rw [parse_scanned params scans, begins, run_statement_word, isSelect]
  dsimp only
  rw [if_pos rfl, parts]
  refine (Parser.run'_then _ reads).trans ?_
  refine (Parser.run'_then _ skips).trans ?_
  exact congrArg (fun s => Except.ok (Statement.select s)) (completes _ (Nat.le_refl _))

/-- A text makes a selection whose clauses are read up to a `WHERE` in front of these tokens, with
so many parameters taken. -/
inductive ReadsToWhere (params : List Json) (text : String) (ts : List Token) (k : Nat) : Prop
  | intro {table : Table} {start : Cursor} {w : Token} {selection : Select}
    (selects : SelectsFrom text table start)
    (reaches : Reaches params start (Select.all table) ⟨w :: ts, k⟩ selection)
    (isWhere : w.isKeyword "WHERE" = true)

/-- What the clause gives that is read there the selection filters by, up to a further `WHERE`. -/
theorem ReadsToWhere.parse {text : String} {ts left : List Token} {k n : Nat}
    {filters : List Filter} (reads : ReadsToWhere params text ts k)
    (clause : Parser.whereClause params ⟨ts, k⟩ = (filters, ⟨left, n⟩)) :
    ∃ selection, parse text params = .ok (.select selection) ∧
      (NoWhere left → selection.filters = filters) := by
  cases reads with
  | @intro table start w selection selects reaches isWhere =>
    let filtered : Select := { selection with filters := filters }
    obtain ⟨result, later, keeps⟩ := completes_exists params ⟨left, n⟩ filtered
    have read : Parser.clause params w ⟨ts, k⟩ selection = (filtered, ⟨left, n⟩) := by
      rw [Parser.clause, if_pos isWhere, clause]
    have suffix := clause_suffix params w ⟨ts, k⟩ selection
    rw [read] at suffix
    exact ⟨result, selects.parse (reaches.completes (later.clause read suffix)), keeps⟩

/-- A `WHERE` clause is read as what its conditions mean. -/
theorem where_read_as_meant {text : String} {ts left : List Token} {k : Nat}
    {conditions : List (List Token)} (reads : ReadsToWhere params text ts k)
    (joined : Joined conditions left ts) (each : ∀ c ∈ conditions, IsCondition c)
    (ends : EndsConditions left) :
    ∃ filters, (∀ others, Meaning (valued params k conditions) others ↔ others = filters) ∧
      Parser.whereClause params ⟨ts, k⟩ =
        (filters, ⟨left, k + placeholders conditions.flatten⟩) ∧
      ∃ selection, parse text params = .ok (.select selection) ∧
        (NoWhere left → selection.filters = filters) := by
  have meaning := findFilters_meaning params k conditions
  have clause : Parser.whereClause params ⟨ts, k⟩ =
      ((findFilters params k conditions).filters,
        ⟨left, k + placeholders conditions.flatten⟩) := by
    have bound := findFilters_bound params ⟨false, none, none, none, k⟩ conditions
    rw [Parser.whereClause, splitConditions_of_joined joined each ends, ← bound]
    rfl
  refine ⟨_, fun others => ?_, clause, reads.parse clause⟩
  exact ⟨fun means => means.unique meaning, fun same => same ▸ meaning⟩

/-- A condition in parentheses with a parameter and a keyword inside, and a trailing limit. -/
theorem where_read_as_meant_nested :
    let text :=
      "SELECT * FROM pages p WHERE (a = ? LIMIT) AND p.Is_Active = 1 AND slug == ? LIMIT 2"
    let conditions : List (List Token) :=
      [[.leftParen, keyword "a", .equal, slot, keyword "LIMIT", .rightParen],
        [keyword "p", .period, keyword "Is_Active", .equal, .number "1" false],
        [keyword "slug", .doubleEqual, slot]]
    let left : List Token := [keyword "LIMIT", .number "2" false]
    let ts : List Token := separated (keyword "AND") conditions ++ left
    let params : List Json := [.null, .text "home"]
    ReadsToWhere params text ts 0 ∧ Joined conditions left ts ∧
      (∀ c ∈ conditions, IsCondition c) ∧ EndsConditions left ∧
        Meaning (valued params 0 conditions) [.isActive, .slug (.text "home")] ∧
        ∃ selection, parse text params = .ok (.select selection) ∧
          selection.filters = [.isActive, .slug (.text "home")] := by
  intro text conditions left ts params
  have reads : ReadsToWhere params text ts 0 := by
    have scans : scan text = .ok ([keyword "SELECT", .operator "*", keyword "FROM",
        keyword "pages", keyword "p", keyword "WHERE"] ++ ts) := by decide +kernel
    exact .intro (.intro scans rfl (by decide) rfl rfl) (.here _ _) rfl
  have joined : Joined conditions left ts := .more _ rfl (.more _ rfl (.last _ left))
  have each : ∀ c ∈ conditions, IsCondition c := by
    have inside : Nested (fun _ => false) [keyword "a", .equal, slot, keyword "LIMIT"] :=
      nested_plain (by decide)
    simp only [conditions, List.forall_mem_cons]
    exact ⟨.parens inside .nil, nested_plain (by decide), nested_plain (by decide), nofun⟩
  have ends : EndsConditions left := by
    rintro t ⟨⟩
    rfl
  obtain ⟨filters, means, clause, selection, parses, keeps⟩ :=
    where_read_as_meant reads joined each ends
  have found : [.isActive, .slug (.text "home")] = filters := congrArg Prod.fst clause
  exact ⟨reads, joined, each, ends, (means _).mpr found, selection, parses,
    (keeps (by decide)).trans found.symm⟩

end ContentStore.Sql
