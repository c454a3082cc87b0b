import ContentStore.Proofs.Sql.Rendering
import ContentStore.Proofs.Sql.Steady
/-!
# Written statements and their readers

Every reader of the grammar takes the tokens that are written for it, in front of what may follow
them, and binds each placeholder to the parameter that stands at its turn (`Supplied`).  So the
readers of an insertion, a change and a deletion give these statements back (`run'_insert`,
`run'_update`, `run'_delete`).
-/

namespace ContentStore.Sql

open Token (placeholders)

/-! ## The parameters of tokens -/

/-- From an index on, the parameters begin with these values. -/
def Supplied (params : List Json) (index : Nat) (values : List Json) : Prop :=
  values <+: params.drop index

section Supplied

variable {params : List Json} {index : Nat}

theorem supplied_append {front back : List Json} :
    Supplied params index (front ++ back) ↔
      Supplied params index front ∧ Supplied params (index + front.length) back := by
  unfold Supplied
  constructor
  · rintro ⟨rest, whole⟩
    refine ⟨⟨back ++ rest, by rw [← whole, List.append_assoc]⟩, rest, ?_⟩
    rw [← List.drop_drop, ← whole, List.append_assoc, List.drop_left]
  · rintro ⟨⟨rest, whole⟩, after, split⟩
    rw [← List.drop_drop, ← whole, List.drop_left] at split
    exact ⟨after, by rw [← whole, ← split, List.append_assoc]⟩

theorem Supplied.parameter {v : Json} {more : List Json}
    (supplied : Supplied params index (v :: more)) : parameter params index = v := by
  obtain ⟨rest, whole⟩ := supplied
  have first : params[index]? = some v := by
    rw [← Nat.add_zero index, ← List.getElem?_drop, ← whole]
    rfl
  rw [Sql.parameter, first]
  rfl

end Supplied

/-- There are at most as many items as tokens, and one more. -/
theorem length_le_separated (mark : Token) (items : List (List Token)) :
    items.length ≤ (separated mark items).length + 1 := by
  induction items with
  | nil => exact Nat.zero_le _
  | cons first others ih =>
    cases others with
    | nil => exact Nat.le_add_left 1 _
    | cons second more =>
      rw [separated, List.length_append, List.length_cons, List.length_cons (a := mark)]
      omega

namespace Parser

variable {α β : Type} {params : List Json}

/-! ## Readers of single tokens -/

/-- A reader that succeeds is followed by the next one. -/
theorem run_then {p : Parser α} (f : α → Parser β) {c c' : Cursor} {a : α}
    (reads : p.run c = .ok (a, c')) : (p >>= f).run c = (f a).run c' := by
  rw [StateT.run_bind, reads]
  rfl

/-- What the whole gives is what the next reader gives. -/
theorem run'_then {p : Parser α} (f : α → Parser β) {c c' : Cursor} {a : α}
    (reads : p.run c = .ok (a, c')) : (p >>= f).run' c = (f a).run' c' := by
  rw [StateT.run'_eq, run_then f reads, StateT.run'_eq]

theorem run_pure (a : α) (c : Cursor) : (pure a : Parser α).run c = .ok (a, c) := rfl

theorem isKeyword_keyword (name : String) : (keyword name).isKeyword name = true :=
  beq_self_eq_true _

theorem run_eatKeyword (name : String) (rest : List Token) (k : Nat) :
    (eatKeyword name).run ⟨keyword name :: rest, k⟩ = .ok (true, ⟨rest, k⟩) := by
  rw [eatKeyword, run_eatIf, if_pos (isKeyword_keyword name)]

theorem run_expectKeyword (name : String) (rest : List Token) (k : Nat) :
    (expectKeyword name).run ⟨keyword name :: rest, k⟩ = .ok ((), ⟨rest, k⟩) :=
  run_then _ (run_eatKeyword name rest k)

theorem run_eatToken (t : Token) (rest : List Token) (k : Nat) :
    (eatToken t).run ⟨t :: rest, k⟩ = .ok (true, ⟨rest, k⟩) := by
  rw [eatToken, run_eatIf, if_pos (beq_self_eq_true t)]

/-- Another token is left alone. -/
theorem run_eatToken_other {t : Token} {rest : List Token} (other : rest.head? ≠ some t) (k : Nat) :
    (eatToken t).run ⟨rest, k⟩ = .ok (false, ⟨rest, k⟩) := by
  cases rest with
  | nil => rfl
  | cons u rest =>
    have differ : (u == t) = false := beq_eq_false_iff_ne.mpr fun same => other (same ▸ rfl)
    rw [eatToken, run_eatIf, differ]
    rfl

theorem run_expectToken (t : Token) (rest : List Token) (k : Nat) :
    (expectToken t).run ⟨t :: rest, k⟩ = .ok ((), ⟨rest, k⟩) :=
  run_then _ (run_eatToken t rest k)

theorem run_expectEqual (rest : List Token) (k : Nat) :
    expectEqual.run ⟨.equal :: rest, k⟩ = .ok ((), ⟨rest, k⟩) := rfl

theorem run_expectEnd (k : Nat) : expectEnd.run ⟨[], k⟩ = .ok ((), ⟨[], k⟩) := rfl

/-- A word is a name where no period follows it. -/
theorem run_name (q : Option Char) (n : String) {rest : List Token}
    (noPeriod : rest.head? ≠ some .period) (k : Nat) :
    name.run ⟨.word q n :: rest, k⟩ = .ok (n, ⟨rest, k⟩) := by
  have parts : nameParts n rest = .ok (n, rest) := by
    unfold nameParts
    split
    · exact absurd rfl noPeriod
    · exact absurd rfl noPeriod
    · rfl
  rw [run_name_word, parts]
  rfl

theorem lookup?_name (t : Table) : Table.lookup? t.name = some t := by
  cases t <;> decide

theorem run_table (t : Table) {rest : List Token} (noPeriod : rest.head? ≠ some .period) (k : Nat) :
    table.run ⟨keyword t.name :: rest, k⟩ = .ok (t, ⟨rest, k⟩) := by
  refine (run_then _ (run_name none t.name noPeriod k)).trans ?_
  rw [lookup?_name]
  rfl

/-- Nothing is skipped as an alias in front of a word that may follow a table. -/
theorem run_skipAlias_stop {name : String} (stops : (keyword name).isOneOf aliasStops = true)
    (noAs : (keyword name).isKeyword "AS" = false) (rest : List Token) (k : Nat) :
    skipAlias.run ⟨keyword name :: rest, k⟩ = .ok ((), ⟨keyword name :: rest, k⟩) := by
  have skipped := run_skipAlias_word none name rest k noAs
  rwa [show (Token.word none name).isOneOf aliasStops = true from stops] at skipped

/-! ## Values and lists -/

theorem run_value_tokens {a : Assigned} {k : Nat} (supplied : Supplied params k a.values)
    (rest : List Token) :
    (value params).run ⟨a.tokens ++ rest, k⟩ = .ok (a, ⟨rest, k + a.values.length⟩) := by
  cases a with
  | value v =>
    have bound := supplied.parameter
    rw [← bound]
    rfl
  | now => rfl

/-- In front of anything but a period, what is written is read as an item of it, and takes its
parameters. -/
def ReadsItem (params : List Json) (item : Parser α) (spell : β → List Token) (read : β → α)
    (values : β → List Json) (written : β) : Prop :=
  ∀ rest k, rest.head? ≠ some .period → Supplied params k (values written) →
    item.run ⟨spell written ++ rest, k⟩ =
      .ok (read written, ⟨rest, k + (values written).length⟩)

section List

variable {item : Parser α} {spell : β → List Token} {read : β → α} {values : β → List Json}
  (rest : List Token) (noComma : rest.head? ≠ some .comma)
  (noPeriod : rest.head? ≠ some .period)
include noComma noPeriod

theorem run_commaSeparated {items : List β} (nonempty : items ≠ [])
    (each : ∀ a ∈ items, ReadsItem params item spell read values a) (fuel : Nat) {k : Nat}
    (enough : items.length ≤ fuel + 1) (supplied : Supplied params k (items.flatMap values)) :
    (commaSeparated item fuel).run ⟨separated .comma (items.map spell) ++ rest, k⟩ =
      .ok (items.map read, ⟨rest, k + (items.flatMap values).length⟩) := by
  induction items generalizing fuel k with
  | nil => exact absurd rfl nonempty
  | cons first others ih =>
    obtain ⟨eachFirst, eachOthers⟩ := List.forall_mem_cons.mp each
    rw [List.flatMap_cons] at supplied ⊢
    obtain ⟨suppliedFirst, suppliedOthers⟩ := supplied_append.mp supplied
    cases others with
    | nil =>
      have reads := eachFirst rest k noPeriod suppliedFirst
      rw [List.flatMap_nil, List.append_nil]
      cases fuel with
      | zero => exact run_then _ reads
      | succ fuel =>
        refine (run_then _ reads).trans ?_
        exact run_then _ (run_eatToken_other noComma _)
    | cons second more =>
      obtain ⟨fuel, rfl⟩ : ∃ n, fuel = n + 1 := ⟨fuel - 1, by simp at enough; omega⟩
      have later := ih (List.cons_ne_nil _ _) eachOthers fuel (Nat.le_of_succ_le_succ enough)
        suppliedOthers
      have reads := eachFirst (.comma :: (separated .comma ((second :: more).map spell) ++ rest)) k
        (by simp) suppliedFirst
      rw [List.map_cons, List.map_cons, separated, List.append_assoc, List.cons_append]
      refine (run_then _ reads).trans ?_
      refine (run_then _ (run_eatToken .comma _ _)).trans ?_
      refine (run_then _ later).trans ?_
      rw [List.length_append, ← Nat.add_assoc]
      rfl

/-- Items between commas are read with the parameters of all of them. -/
theorem run_list {items : List β} (nonempty : items ≠ [])
    (each : ∀ a ∈ items, ReadsItem params item spell read values a) {k : Nat}
    (supplied : Supplied params k (items.flatMap values)) :
    (list item).run ⟨separated .comma (items.map spell) ++ rest, k⟩ =
      .ok (items.map read, ⟨rest, k + (items.flatMap values).length⟩) := by
  refine run_commaSeparated rest noComma noPeriod nonempty each _ ?_ supplied
  have items_le := length_le_separated .comma (items.map spell)
  rw [List.length_map] at items_le
  rw [List.length_append]
  omega

end List

theorem reads_column (c : Column) :
    ReadsItem params name Column.tokens Column.name (fun _ => []) c :=
  fun _ k noPeriod _ => run_name (some c.quote) c.name noPeriod k

theorem reads_value (a : Assigned) :
    ReadsItem params (value params) Assigned.tokens id Assigned.values a :=
  fun rest _ _ supplied => run_value_tokens supplied rest

theorem reads_assignment (sp : Spelling) (a : Assignment) :
    ReadsItem params (assignment params) (Assignment.tokens sp) id (fun a => a.assigned.values)
      a := by
  intro rest k _ supplied
  refine (run_then _ (run_name (some sp.quote) a.field (by simp) k)).trans ?_
  refine (run_then _ (run_expectEqual _ k)).trans ?_
  exact run_then _ (run_value_tokens supplied rest)

/-! ## Insertions, changes and deletions -/

theorem run_whereId (sp : Spelling) (verb : String) {id : Json} {k : Nat}
    (supplied : Supplied params k [id]) :
    (whereId params verb).run ⟨idTokens sp, k⟩ = .ok (id, ⟨[], k + 1⟩) := by
  have reads : (value params).run ⟨[slot], k⟩ = .ok (.value id, ⟨[], k + 1⟩) :=
    run_value_tokens (a := .value id) supplied []
  refine (run_then _ (run_eatKeyword "WHERE" _ k)).trans ?_
  refine (run_then _ (run_name sp.ownQuote "id" (by simp) k)).trans ?_
  refine (run_then _ (run_expectEqual _ k)).trans ?_
  exact run_then _ reads

theorem run'_delete (sp : Spelling) (t : Table) {id : Json} {k : Nat}
    (supplied : Supplied params k [id]) :
    (delete params).run' ⟨keyword "FROM" :: keyword t.name :: idTokens sp, k⟩ =
      .ok (.delete t id) := by
  refine (run'_then _ (run_expectKeyword "FROM" _ k)).trans ?_
  refine (run'_then _ (run_table t (by simp [idTokens, keyword]) k)).trans ?_
  refine (run'_then _ (run_skipAlias_stop (by decide) (by decide) _ k)).trans ?_
  exact run'_then _ (run_whereId sp "DELETE" supplied)

theorem run'_update (sp : Spelling) (t : Table) {id : Json} {changes : List Assignment}
    (nonempty : changes ≠ []) {k : Nat}
    (supplied : Supplied params k (Statement.update t id changes).values) :
    (update params).run' ⟨keyword t.name :: keyword "SET" ::
        (separated .comma (changes.map (Assignment.tokens sp)) ++ idTokens sp), k⟩ =
      .ok (.update t id changes) := by
  obtain ⟨suppliedChanges, suppliedId⟩ := supplied_append.mp supplied
  have reads := run_list (idTokens sp) (by simp [idTokens, keyword])
    (by simp [idTokens, keyword]) nonempty (fun a _ => reads_assignment sp a) suppliedChanges
  rw [List.map_id] at reads
  refine (run'_then _ (run_table t (by simp [keyword]) k)).trans ?_
  refine (run'_then _ (run_skipAlias_stop (by decide) (by decide) _ k)).trans ?_
  refine (run'_then _ (run_expectKeyword "SET" _ k)).trans ?_
  refine (run'_then _ reads).trans ?_
  exact run'_then _ (run_whereId sp "UPDATE" suppliedId)

/-- An insertion of values under columns. -/
theorem run'_insertion (t : Table) {columns : List Column} {values : List Assigned}
    (nonempty : columns ≠ []) (count : columns.length = values.length) {k : Nat}
    (supplied : Supplied params k (values.flatMap Assigned.values)) :
    (insert params).run' ⟨keyword "INTO" :: keyword t.name :: .leftParen ::
      (separated .comma (columns.map Column.tokens) ++
        .rightParen :: keyword "VALUES" :: .leftParen ::
          (separated .comma (values.map Assigned.tokens) ++ [.rightParen])), k⟩ =
      .ok (.insert t ((columns.map Column.name).zipWith Assignment.mk values)) := by
  let behind : List Token := .rightParen :: keyword "VALUES" :: .leftParen ::
    (separated .comma (values.map Assigned.tokens) ++ [.rightParen])
  have noValues : columns.flatMap (fun _ => ([] : List Json)) = [] := by simp
  have noneSupplied : Supplied params k (columns.flatMap fun _ => []) := by
    rw [noValues]
    exact List.nil_prefix
  have readsNames := run_list behind (by simp [behind]) (by simp [behind]) nonempty
    (fun c _ => reads_column c) noneSupplied
  rw [noValues] at readsNames
  have someValues : values ≠ [] := by
    rintro rfl
    exact nonempty (List.eq_nil_of_length_eq_zero count)
  have readsValues := run_list [.rightParen] (by simp) (by simp) someValues
    (fun a _ => reads_value a) supplied
  rw [List.map_id] at readsValues
  refine (run'_then _ (run_expectKeyword "INTO" _ k)).trans ?_
  refine (run'_then _ (run_table t (by simp) k)).trans ?_
  refine (run'_then _ (run_eatToken .leftParen _ k)).trans ?_
  refine (run'_then _ readsNames).trans ?_
  refine (run'_then _ (run_expectToken .rightParen _ _)).trans ?_
  refine (run'_then _ (run_pure (some _) _)).trans ?_
  refine (run'_then _ (run_eatKeyword "VALUES" _ _)).trans ?_
  refine (run'_then _ (run_expectToken .leftParen _ _)).trans ?_
  refine (run'_then _ readsValues).trans ?_
  refine (run'_then _ (run_expectToken .rightParen _ _)).trans ?_
  refine (run'_then _ (run_expectEnd _)).trans ?_
  dsimp only
  rw [assign, if_pos (by rw [List.length_map, count])]
  rfl

/-- An insertion of assignments, with the same quote for all their fields. -/
theorem run'_insert (sp : Spelling) (t : Table) {assignments : List Assignment}
    (nonempty : assignments ≠ []) {k : Nat}
    (supplied : Supplied params k (Statement.insert t assignments).values) :
    (insert params).run' ⟨keyword "INTO" :: keyword t.name :: .leftParen ::
      (separated .comma (assignments.map fun a => [.word (some sp.quote) a.field]) ++
        .rightParen :: keyword "VALUES" :: .leftParen ::
          (separated .comma (assignments.map fun a => a.assigned.tokens) ++ [.rightParen])), k⟩ =
      .ok (.insert t assignments) := by
  let columns : List Column := assignments.map fun a => ⟨sp.quote, a.field⟩
  let assigned := assignments.map Assignment.assigned
  have suppliedValues : Supplied params k (assigned.flatMap Assigned.values) := by
    rwa [List.flatMap_map]
  have named : columns ≠ [] := mt List.map_eq_nil_iff.mp nonempty
  have count : columns.length = assigned.length := by simp [columns, assigned]
  have reads := run'_insertion t named count suppliedValues
  have parts : (columns.map Column.name).zipWith Assignment.mk assigned = assignments := by
    simp [columns, assigned, List.zipWith_map]
  rw [parts, List.map_map, List.map_map] at reads
  exact reads

end Parser

end ContentStore.Sql
