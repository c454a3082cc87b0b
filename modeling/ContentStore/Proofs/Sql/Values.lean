import ContentStore.Json.Reader
import ContentStore.Sql.Parse
/-!
# The values of a statement

Every value that an insertion or a change assigns is a parameter or a scalar, so a property that
scalars and the parameters have is one of the assigned values (`parse_assigns`).  `Yields` says what
a reader gives wherever it succeeds, and is proved along the composition of the readers.
-/

namespace ContentStore.Sql

open Json (Ordered depth)

/-- A value that a field is set to has a property. -/
def Assigned.Has (P : Json → Prop) : Assigned → Prop
  | value v => P v
  | now => True

/-- The values that a statement assigns have a property. -/
def Statement.Assigns (P : Json → Prop) : Statement → Prop
  | select _ => True
  | insert _ values => ∀ a ∈ values, a.assigned.Has P
  | update _ _ changes => ∀ a ∈ changes, a.assigned.Has P
  | delete _ _ => True

/-- Scalars have a property, and the parameters have it. -/
structure Covers (P : Json → Prop) (params : List Json) : Prop where
  scalar : ∀ v, depth v = 0 → P v
  given : ∀ v ∈ params, P v

theorem Covers.parameter {P : Json → Prop} {params : List Json} (covers : Covers P params)
    (index : Nat) : P (parameter params index) := by
  unfold Sql.parameter
  cases found : params[index]? with
  | none => exact covers.scalar _ rfl
  | some v => exact covers.given v (List.mem_of_getElem? found)

namespace Parser

variable {α β : Type}

/-- Wherever a reader succeeds, what it gives has a property. -/
def Yields (p : Parser α) (Good : α → Prop) : Prop :=
  ∀ c a c', p.run c = .ok (a, c') → Good a

variable {p : Parser α} {f : α → Parser β} {Good : α → Prop} {Fine : β → Prop}

theorem yields_pure {a : α} (good : Good a) : Yields (pure a) Good := by
  intro c b c' runs
  cases runs
  exact good

theorem yields_throw (e : StoreError) : Yields (throw e : Parser α) Good := by
  intro c a c' runs
  cases runs

theorem yields_any (p : Parser α) : Yields p fun _ => True := fun _ _ _ _ => trivial

theorem yields_bind (first : Yields p Good) (next : ∀ a, Good a → Yields (f a) Fine) :
    Yields (p >>= f) Fine := by
  intro c b c' runs
  rw [StateT.run_bind] at runs
  cases read : p.run c with
  | error e =>
    rw [read] at runs
    cases runs
  | ok found =>
    rw [read] at runs
    exact next found.1 (first c found.1 found.2 read) found.2 b c' runs

/-- What comes first does not matter. -/
theorem yields_after (next : ∀ a, Yields (f a) Fine) : Yields (p >>= f) Fine :=
  yields_bind (yields_any p) fun a _ => next a

theorem yields_commaSeparated (item : Yields p Good) (fuel : Nat) :
    Yields (commaSeparated p fuel) fun list => ∀ a ∈ list, Good a := by
  induction fuel with
  | zero =>
    exact yields_bind item fun a good => yields_pure (List.forall_mem_singleton.mpr good)
  | succ fuel ih =>
    refine yields_bind item fun a good => yields_after fun more => ?_
    split
    · refine yields_bind ih fun rest goodRest => ?_
      exact yields_pure (List.forall_mem_cons.mpr ⟨good, goodRest⟩)
    · exact yields_pure (List.forall_mem_singleton.mpr good)

theorem yields_list (item : Yields p Good) :
    Yields (list p) fun list => ∀ a ∈ list, Good a :=
  yields_after fun c => yields_commaSeparated item c.rest.length

/-! ## The readers of assigned values -/

variable {P : Json → Prop} {params : List Json}

theorem yields_takeParameter (covers : Covers P params) :
    Yields (takeParameter params) P :=
  yields_after fun c => yields_after fun _ => yields_pure (covers.parameter c.bound)

theorem yields_numberOf (covers : Covers P params) (digits : String) :
    Yields (numberOf digits) (Assigned.Has P) := by
  unfold numberOf numberValue?
  split
  · next v read =>
    split at read
    · cases read
      exact yields_pure (covers.scalar _ rfl)
    · cases read
  · exact yields_throw _

theorem yields_value (covers : Covers P params) :
    Yields (value params) (Assigned.Has P) := by
  refine yields_after fun t => ?_
  split
  · exact yields_bind (yields_takeParameter covers) fun v has => yields_pure has
  · exact yields_numberOf covers _
  · refine yields_after fun found => ?_
    split
    · exact yields_numberOf covers _
    · exact yields_throw _
  · exact yields_pure (covers.scalar _ rfl)
  · dsimp only
    split
    · exact yields_pure (covers.scalar _ rfl)
    split
    · exact yields_pure (covers.scalar _ rfl)
    split
    · exact yields_pure (covers.scalar _ rfl)
    split
    · refine yields_after fun opens => ?_
      split
      · exact yields_after fun _ => yields_pure trivial
      · exact yields_pure trivial
    · exact yields_throw _
  · exact yields_throw _

theorem yields_assign {columns : List String} {values : List Assigned}
    (has : ∀ v ∈ values, v.Has P) :
    Yields (assign columns values) fun list => ∀ a ∈ list, a.assigned.Has P := by
  unfold assign
  split
  · refine yields_pure fun a mem => ?_
    obtain ⟨i, h, rfl⟩ := List.mem_iff_getElem.mp mem
    rw [List.getElem_zipWith]
    exact has _ (List.getElem_mem _)
  · exact yields_throw _

/-- The values of an insertion, behind its columns. -/
theorem yields_insertValues (covers : Covers P params) (t : Table)
    (columns : Option (List String)) :
    Yields (do
      unless ← eatKeyword "VALUES" do throw (.unsupported .insertWithoutValues)
      expectToken .leftParen
      let values ← list (value params)
      expectToken .rightParen
      expectEnd
      match columns with
      | some names => return .insert t (← assign names values)
      | none => return .insert t ((columnlessFields.zip params).map fun (f, v) => ⟨f, .value v⟩))
      (Statement.Assigns P) := by
  have behind : Yields (do
      expectToken .leftParen
      let values ← list (value params)
      expectToken .rightParen
      expectEnd
      match columns with
      | some names => return .insert t (← assign names values)
      | none => return .insert t ((columnlessFields.zip params).map fun (f, v) => ⟨f, .value v⟩))
      (Statement.Assigns P) := by
    refine yields_after fun _ => ?_
    refine yields_bind (yields_list (yields_value covers)) fun values has => ?_
    refine yields_after fun _ => yields_after fun _ => ?_
    split
    · exact yields_bind (yields_assign has) fun list hasList => yields_pure hasList
    · refine yields_pure fun a mem => ?_
      obtain ⟨⟨field, v⟩, paired, rfl⟩ := List.mem_map.mp mem
      exact covers.given v (List.of_mem_zip paired).2
  refine yields_after fun found => ?_
  cases found with
  | true => exact behind
  | false => exact yields_bind (yields_throw _) fun _ (impossible : False) => impossible.elim

theorem yields_insert (covers : Covers P params) :
    Yields (insert params) (Statement.Assigns P) := by
  refine yields_after fun _ => yields_after fun t => yields_after fun opens => ?_
  dsimp only
  split
  · exact yields_after fun names => yields_after fun _ => yields_insertValues covers t (some names)
  · exact yields_insertValues covers t none

theorem yields_assignment (covers : Covers P params) :
    Yields (assignment params) fun a => a.assigned.Has P := by
  refine yields_after fun field => yields_after fun _ => ?_
  exact yields_bind (yields_value covers) fun v has => yields_pure has

theorem yields_update (covers : Covers P params) :
    Yields (update params) (Statement.Assigns P) := by
  refine yields_after fun t => yields_after fun _ => yields_after fun _ => ?_
  refine yields_bind (yields_list (yields_assignment covers)) fun changes has => ?_
  exact yields_after fun id => yields_pure has

theorem yields_statement (covers : Covers P params) :
    Yields (statement params) (Statement.Assigns P) := by
  refine yields_after fun t => ?_
  split
  · exact yields_throw _
  · dsimp only
    split
    · exact yields_after fun _ => yields_after fun _ => yields_after fun _ =>
        yields_after fun _ => yields_after fun _ => yields_pure trivial
    split
    · exact yields_insert covers
    split
    · exact yields_update covers
    split
    · exact yields_after fun _ => yields_after fun _ => yields_after fun _ =>
        yields_after fun _ => yields_pure trivial
    · exact yields_throw _
  · exact yields_throw _

end Parser

/-- The values that a statement assigns have what scalars and the parameters have. -/
theorem parse_assigns {P : Json → Prop} {text : String} {params : List Json} {st : Statement}
    (covers : Covers P params) (reads : parse text params = .ok st) : st.Assigns P := by
  unfold parse at reads
  split at reads
  · next tokens _ =>
    rw [ofTokens, StateT.run'_eq] at reads
    cases read : (Parser.statement params).run ⟨dropSemicolons tokens, 0⟩ with
    | error e =>
      rw [read] at reads
      cases reads
    | ok found =>
      rw [read] at reads
      cases reads
      exact Parser.yields_statement covers _ found.1 found.2 read
  · cases reads

/-- The keys of every object ascend in a scalar, which has none. -/
theorem covers_ordered {params : List Json} (ordered : ∀ v ∈ params, Ordered v) :
    Covers Ordered params := by
  refine ⟨fun v scalar => ?_, ordered⟩
  cases v <;> trivial

end ContentStore.Sql
