import ContentStore.Proofs.Sql.Alignment
import ContentStore.Proofs.Sql.Recognition
/-!
# Which statements are accepted

Tokens that begin with the verb of an insertion, a change or a deletion make a statement exactly if
they are one of the grammar (`accepted_iff`).  The parameters do not matter: a placeholder without
one takes null.  Where the grammar leaves a choice the reader does not: parentheses behind the
present time belong to it, and a word behind a table is an alias unless it may begin a clause.
-/

namespace ContentStore.Sql

open Grammar (listed mark one other)

namespace Parser

variable {α : Type} {p : Parser α} {Q : Language Token}

/-! ## Values -/

/-- The present time is assigned. -/
def isNow : Assigned → Bool
  | .now => true
  | .value _ => false

theorem numberValue?_iff (cs : List Char) :
    (∃ v, numberValue? cs = some v) ↔ Json.NumberText cs := by
  rw [← Json.readNumber?_iff]
  unfold numberValue?
  constructor
  · rintro ⟨v, reads⟩
    split at reads
    · next n whole => exact ⟨n, whole⟩
    · cases reads
  · rintro ⟨n, whole⟩
    rw [whole]
    exact ⟨_, rfl⟩

theorem sound_numberOf (digits : String) {c c' : Cursor} {a : Assigned}
    (reads : (numberOf digits).run c = .ok (a, c')) :
    Json.NumberText digits.toList ∧ isNow a = false ∧ c' = c := by
  unfold numberOf at reads
  split at reads
  · next v value =>
    cases reads
    exact ⟨(numberValue?_iff _).mp ⟨v, value⟩, rfl, rfl⟩
  · cases reads

theorem complete_numberOf {digits : String} (writes : Json.NumberText digits.toList) (c : Cursor) :
    ∃ v, (numberOf digits).run c = .ok (.value v, c) := by
  obtain ⟨v, value⟩ := (numberValue?_iff _).mpr writes
  unfold numberOf
  rw [value]
  exact ⟨v, rfl⟩

section Values

variable (params : List Json) {word : String}

theorem run_value_word (rest : List Token) (k : Nat) :
    (value params).run ⟨.word none word :: rest, k⟩ =
      (if Text.upperAscii word = "TRUE" then return .value (.bool true)
        else if Text.upperAscii word = "FALSE" then return .value (.bool false)
        else if Text.upperAscii word = "NULL" then return .value .null
        else if Text.upperAscii word = "NOW" ∨ Text.upperAscii word = "CURRENT_TIMESTAMP" then do
          if ← eatToken .leftParen then expectToken .rightParen
          return .now
        else fail (.unsupportedValue word) : Parser Assigned).run ⟨rest, k⟩ :=
  rfl

theorem run_value_constant
    (constant : (Token.word none word).isOneOf ["TRUE", "FALSE", "NULL"] = true)
    (rest : List Token) (k : Nat) :
    ∃ v, (value params).run ⟨.word none word :: rest, k⟩ = .ok (.value v, ⟨rest, k⟩) := by
  rw [run_value_word]
  rcases (Grammar.isConstant_iff word).mp constant with upper | upper | upper <;> rw [upper] <;>
    exact ⟨_, rfl⟩

theorem run_value_present
    (present : (Token.word none word).isOneOf ["NOW", "CURRENT_TIMESTAMP"] = true)
    (rest : List Token) (k : Nat) :
    (value params).run ⟨.word none word :: rest, k⟩ =
      (do if ← eatToken .leftParen then expectToken .rightParen
          return .now : Parser Assigned).run ⟨rest, k⟩ := by
  rw [run_value_word]
  rcases (Grammar.isPresent_iff word).mp present with upper | upper <;> rw [upper] <;> rfl

theorem run_value_other
    (constant : (Token.word none word).isOneOf ["TRUE", "FALSE", "NULL"] ≠ true)
    (present : (Token.word none word).isOneOf ["NOW", "CURRENT_TIMESTAMP"] ≠ true)
    (rest : List Token) (k : Nat) :
    (value params).run ⟨.word none word :: rest, k⟩ =
      .error (.malformed (.unsupportedValue word)) := by
  simp only [ne_eq, Grammar.isConstant_iff, Grammar.isPresent_iff, not_or] at constant present
  obtain ⟨noTrue, noFalse, noNull⟩ := constant
  rw [run_value_word, if_neg noTrue, if_neg noFalse, if_neg noNull,
    if_neg (not_or.mpr present)]
  rfl

/-- What follows the word for the present time. -/
theorem sound_parentheses {ts : List Token} {k : Nat} {a : Assigned} {c : Cursor}
    (reads : (do if ← eatToken .leftParen then expectToken .rightParen
                 return .now : Parser Assigned).run ⟨ts, k⟩ = .ok (a, c)) :
    a = .now ∧ (c.rest = ts ∨ .leftParen :: .rightParen :: c.rest = ts) := by
  obtain ⟨found, c₁, eats, later⟩ := run_bind_ok reads
  cases found with
  | false =>
    cases run_eatIf_false eats
    cases later
    exact ⟨rfl, .inl rfl⟩
  | true =>
    obtain ⟨_, c₂, closes, gives⟩ := run_bind_ok later
    cases gives
    obtain ⟨t, isLeft, opened⟩ := run_eatIf_true eats
    obtain ⟨_, ⟨u, isRight, rfl⟩, closed⟩ := (takes_expectToken .rightParen).sound closes
    cases eq_of_beq isLeft
    cases eq_of_beq isRight
    exact ⟨rfl, .inr ((congrArg (.leftParen :: ·) closed).trans opened.symm)⟩

theorem sound_value {ts : List Token} {k : Nat} {a : Assigned} {c : Cursor}
    (reads : (value params).run ⟨ts, k⟩ = .ok (a, c)) :
    ∃ taken ∈ cond (isNow a) Grammar.present Grammar.literal, taken ++ c.rest = ts := by
  cases ts with
  | nil => cases reads
  | cons t rest =>
    cases t with
    | placeholder n =>
      cases reads
      exact ⟨[.placeholder n], .placeholder n, rfl⟩
    | number digits long =>
      obtain ⟨writes, literal, rfl⟩ := sound_numberOf digits (c := ⟨rest, k⟩) reads
      rw [literal]
      exact ⟨[.number digits long], .number long writes, rfl⟩
    | minus =>
      cases rest with
      | nil => cases reads
      | cons u rest =>
        cases u with
        | number digits long =>
          obtain ⟨writes, literal, rfl⟩ :=
            sound_numberOf ("-" ++ digits) (c := ⟨rest, k⟩) reads
          rw [String.toList_append] at writes
          rw [literal]
          exact ⟨[.minus, .number digits long], .negative long writes, rfl⟩
        | _ => cases reads
    | text s =>
      cases reads
      exact ⟨[.text s], .text s, rfl⟩
    | word quote word =>
      cases quote with
      | some q => cases reads
      | none =>
        by_cases constant : (Token.word none word).isOneOf ["TRUE", "FALSE", "NULL"] = true
        · obtain ⟨v, gives⟩ := run_value_constant params constant rest k
          cases gives.symm.trans reads
          exact ⟨[.word none word], .constant constant, rfl⟩
        by_cases present : (Token.word none word).isOneOf ["NOW", "CURRENT_TIMESTAMP"] = true
        · rw [run_value_present params present] at reads
          obtain ⟨rfl, rfl | rfl⟩ := sound_parentheses reads
          · exact ⟨[.word none word], Grammar.mem_present.mpr ⟨_, present, .inl rfl⟩, rfl⟩
          · exact ⟨[.word none word, .leftParen, .rightParen],
              Grammar.mem_present.mpr ⟨_, present, .inr rfl⟩, rfl⟩
        · cases (run_value_other params constant present rest k).symm.trans reads
    | _ => cases reads

theorem complete_literal {taken : List Token} (mem : taken ∈ Grammar.literal)
    (rest : List Token) (k : Nat) :
    ∃ v k', (value params).run ⟨taken ++ rest, k⟩ = .ok (.value v, ⟨rest, k'⟩) := by
  cases mem with
  | placeholder n => exact ⟨_, k + 1, rfl⟩
  | number long writes =>
    obtain ⟨v, reads⟩ := complete_numberOf writes ⟨rest, k⟩
    exact ⟨v, k, reads⟩
  | @negative digits long writes =>
    have signed : Json.NumberText ("-" ++ digits).toList := by rwa [String.toList_append]
    obtain ⟨v, reads⟩ := complete_numberOf signed ⟨rest, k⟩
    exact ⟨v, k, reads⟩
  | text s => exact ⟨_, k, rfl⟩
  | @constant t names =>
    cases t with
    | word quote word =>
      cases quote with
      | none =>
        obtain ⟨v, reads⟩ := run_value_constant params names rest k
        exact ⟨v, k, reads⟩
      | some q => cases names
    | _ => cases names

theorem complete_present {taken rest : List Token} (mem : taken ∈ Grammar.present)
    (others : rest ∈ other (· == .leftParen)) (k : Nat) :
    (value params).run ⟨taken ++ rest, k⟩ = .ok (.now, ⟨rest, k⟩) := by
  obtain ⟨t, present, tokens⟩ := Grammar.mem_present.mp mem
  cases t with
  | word quote word =>
    cases quote with
    | none =>
      rcases tokens with rfl | rfl
      · refine (run_value_present params present rest k).trans ?_
        exact run_then _ (run_eatIf_other others k)
      · refine (run_value_present params present (.leftParen :: .rightParen :: rest) k).trans ?_
        refine (run_then _ (run_eatToken .leftParen _ k)).trans ?_
        exact run_then _ (run_expectToken .rightParen rest k)
    | some q => cases present
  | _ => cases present

/-- A value is read, and told from the present time. -/
theorem reads_assigned :
    Reads (value params) isNow (fun now => cond now Grammar.present Grammar.literal)
      fun now => cond now (other (· == .leftParen)) ⊤ where
  sound reads := sound_value params reads
  complete {now taken rest} mem follows k := by
    cases now with
    | false =>
      obtain ⟨v, k', reads⟩ := complete_literal params mem rest k
      exact ⟨.value v, k', rfl, reads⟩
    | true => exact ⟨.now, k, rfl, complete_present params mem follows k⟩

theorem takes_value : Takes (value params) Grammar.value (other (· == .leftParen)) := by
  have both : (⨆ now, cond now Grammar.present Grammar.literal) = Grammar.value := by
    rw [iSup_bool_eq]
    exact sup_comm _ _
  rw [← both]
  refine (reads_assigned params).takes fun now => ?_
  cases now with
  | false => exact le_top
  | true => exact le_rfl

end Values

/-! ## Aliases and conditions -/

open Grammar (isPlainWord)

theorem skipAlias_then (p : Parser α) :
    (do skipAlias; p) = (do
      if ← eatKeyword "AS" then do discard advance; p
      else do discard (eatIf isPlainWord); p) := by
  rw [skipAlias, bind_assoc]
  refine congrArg (eatKeyword "AS" >>= ·) (funext fun found => ?_)
  cases found with
  | true => rfl
  | false =>
    refine congrArg (fun skipped => do discard (eatIf skipped); p) (funext fun t => ?_)
    cases t <;> rfl

/-- An alias is skipped, if there is one, in front of a word that may follow a table. -/
theorem succeeds_behindAlias (succeeds : Succeeds p Q)
    (begins : Q ≤ one (·.isOneOf aliasStops) * ⊤) :
    Succeeds (do skipAlias; p) ((1 + Grammar.tableAlias) * Q) := by
  have behindAs : Succeeds (do discard advance; p) (one (fun _ => true) * Q) := by
    intro ts k
    cases ts with
    | nil =>
      refine (succeeds [] k).trans (iff_of_false (fun mem => ?_) Grammar.nil_not_mem_one_mul)
      exact Grammar.nil_not_mem_one_mul (begins mem)
    | cons t rest =>
      refine (succeeds rest k).trans ?_
      rw [Grammar.cons_mem_one_mul, eq_self, true_and]
  have behindWord : Succeeds (do discard (eatIf isPlainWord); p)
      (one isPlainWord * Q + Q ⊓ other isPlainWord) := by
    rw [Functor.discard, map_const, Function.comp_apply, bind_map_left]
    exact succeeds_eatIf (f := fun _ => p) succeeds succeeds
  rw [skipAlias_then, Grammar.optionalAlias_mul begins]
  exact succeeds_eatIf (f := fun found =>
    if found then do discard advance; p else do discard (eatIf isPlainWord); p) behindAs behindWord

/-- A value that must not be the present time; anything may follow it. -/
theorem succeeds_literal (params : List Json) (refusal : StoreError) :
    Succeeds (do
      match ← value params with
      | .value v => return v
      | .now => throw refusal : Parser Json) (Grammar.literal * ⊤) := by
  have each : ∀ a, Succeeds (match a with
      | .value v => return v
      | .now => throw refusal : Parser Json) (cond (isNow a) 0 ⊤) := by
    intro a
    cases a with
    | value v => exact succeeds_pure v
    | now => exact succeeds_throw refusal
  have ends : ∀ now, cond now (0 : Language Token) ⊤ ≤ cond now (other (· == .leftParen)) ⊤ := by
    intro now
    cases now with
    | false => exact le_rfl
    | true => exact bot_le
  have only : (⨆ now, cond now Grammar.present Grammar.literal * cond now 0 ⊤) =
      Grammar.literal * ⊤ := by
    rw [iSup_bool_eq]
    exact (congrArg (· ⊔ _) (mul_zero Grammar.present)).trans (bot_sup_eq _)
  rw [← only]
  exact (reads_assigned params).succeeds each ends

theorem succeeds_whereId (params : List Json) (verb : String) :
    Succeeds (whereId params verb) (Grammar.whereId * ⊤) := by
  rw [Grammar.whereId_mul]
  refine succeeds_required ?_ (succeeds_never fun _ => ⟨_, rfl⟩)
  refine succeeds_name (fun n isId => ?_) (fun n noId => ?_) Grammar.equal_mul_le_other_period
  · rw [isId]
    exact takes_expectEqual.succeeds (fun _ => succeeds_literal params _) le_top
  · rw [noId]
    exact succeeds_never fun _ => ⟨_, rfl⟩

/-! ## Statements -/

theorem takes_assignment (params : List Json) :
    Takes (assignment params) Grammar.assignment (other (· == .leftParen)) := by
  rw [Grammar.assignment, mul_assoc]
  refine takes_name.bind (fun field => ?_) ?_
  · exact takes_expectEqual.bind (fun _ => (takes_value params).map) le_top
  · rw [mul_assoc]
    exact Grammar.equal_mul_le_other_period

/-- The assignments of a change and its condition. -/
theorem succeeds_changes (params : List Json) (t : Table) :
    Succeeds (do
      let changes ← list (assignment params)
      return Statement.update t (← whereId params "UPDATE") changes)
      (⨆ n, listed Grammar.assignment n * (Grammar.whereId * ⊤)) := by
  refine (reads_list (takes_assignment params) ?_).succeeds (fun changes => ?_) fun n => ?_
  · exact Grammar.mark_mul_le_other rfl
  · exact (succeeds_whereId params "UPDATE").map
  · rw [Grammar.whereId_mul]
    exact le_inf (Grammar.keyword_mul_le_other rfl) (Grammar.keyword_mul_le_other rfl)

theorem succeeds_update (params : List Json) : Succeeds (update params) Grammar.change := by
  simp only [Grammar.change, mul_assoc, Language.iSup_mul]
  refine succeeds_table (fun t => ?_) ?_
  · refine succeeds_behindAlias ?_ (Grammar.keyword_mul_le_stops (by decide))
    exact (takes_expectKeyword "SET").succeeds (fun _ => succeeds_changes params t) le_top
  · exact Grammar.optionalAlias_mul_le_other (Grammar.keyword_mul_le_other rfl)

theorem succeeds_delete (params : List Json) : Succeeds (delete params) Grammar.deletion := by
  simp only [Grammar.deletion, mul_assoc]
  refine (takes_expectKeyword "FROM").succeeds (fun _ => ?_) le_top
  refine succeeds_table (fun t => ?_) ?_
  · refine succeeds_behindAlias (succeeds_whereId params "DELETE").map ?_
    rw [Grammar.whereId_mul]
    exact Grammar.keyword_mul_le_stops (by decide)
  · rw [Grammar.whereId_mul]
    exact Grammar.optionalAlias_mul_le_other (Grammar.keyword_mul_le_other rfl)

/-- Nothing may be left for what comes last. -/
theorem succeeds_expectEnd {f : Unit → Parser α} {P : Prop} [Decidable P]
    (next : Succeeds (f ()) (if P then ⊤ else 0)) :
    Succeeds (expectEnd >>= f) (if P then 1 else 0) := by
  intro ts k
  cases ts with
  | nil =>
    rw [run_then f (run_expectEnd k), next [] k]
    split
    · exact iff_of_true trivial Language.nil_mem_one
    · exact Iff.rfl
  | cons t rest =>
    refine iff_of_false nofun ?_
    split
    · exact nofun
    · exact Language.notMem_zero _

/-- The values of an insertion in front of its end; what comes last decides how many may be. -/
theorem succeeds_values (params : List Json) {last : List Assigned → Parser Statement}
    {P : Nat → Prop} [DecidablePred P]
    (next : ∀ values, Succeeds (last values) (if P values.length then ⊤ else 0)) :
    Succeeds (do
      unless ← eatKeyword "VALUES" do throw (.unsupported .insertWithoutValues)
      expectToken .leftParen
      let values ← list (value params)
      expectToken .rightParen
      expectEnd
      last values)
      (⨆ n, ⨆ _ : P n, Grammar.valueClause n) := by
  have grouped : (⨆ n, ⨆ _ : P n, Grammar.valueClause n) =
      Grammar.keyword "VALUES" * (mark .leftParen * ⨆ n, listed Grammar.value n *
        (mark .rightParen * if P n then 1 else 0)) := by
    rw [Language.mul_iSup, Language.mul_iSup]
    refine iSup_congr fun n => ?_
    split
    · next fits => rw [iSup_pos fits, mul_one, Grammar.valueClause, mul_assoc, mul_assoc]
    · next differs => simp only [iSup_neg differs, mul_zero]; rfl
  rw [grouped]
  refine succeeds_required ?_ (succeeds_never fun _ => ⟨_, rfl⟩)
  refine (takes_expectToken .leftParen).succeeds (fun _ => ?_) le_top
  refine (reads_list (takes_value params) ?_).succeeds (fun values => ?_) fun n => ?_
  · exact Grammar.mark_mul_le_other rfl
  · exact (takes_expectToken .rightParen).succeeds
      (fun _ => succeeds_expectEnd (next values)) le_top
  · exact le_inf (Grammar.mark_mul_le_other rfl) (Grammar.mark_mul_le_other rfl)

theorem succeeds_assign (columns : List String) (values : List Assigned) :
    Succeeds (assign columns values) (if columns.length = values.length then ⊤ else 0) := by
  unfold assign
  split
  · exact succeeds_pure _
  · exact succeeds_never fun _ => ⟨_, rfl⟩

theorem succeeds_insert (params : List Json) : Succeeds (insert params) Grammar.insertion := by
  rw [Grammar.insertion, mul_assoc]
  refine (takes_expectKeyword "INTO").succeeds (fun _ => ?_) le_top
  refine succeeds_table (fun t => ?_) ?_
  · rw [Grammar.optionalColumns_eq]
    refine succeeds_eatIf ?_ ?_
    · refine (reads_list takes_name ?_).succeeds (fun names => ?_) fun n => ?_
      · exact Grammar.mark_mul_le_other rfl
      · refine (takes_expectToken .rightParen).succeeds (fun _ => ?_) le_top
        rw [← iSup_iSup_eq_right (f := fun n (_ : names.length = n) => Grammar.valueClause n)]
        exact succeeds_values params fun values => (succeeds_assign names values).map
      · exact le_inf (Grammar.mark_mul_le_other rfl) (Grammar.mark_mul_le_other rfl)
    · have any : (⨆ n, ⨆ _ : True, Grammar.valueClause n) = ⨆ n, Grammar.valueClause n :=
        iSup_congr fun n => iSup_pos trivial
      rw [← any]
      refine succeeds_values params fun values => ?_
      rw [if_pos trivial]
      exact succeeds_pure _
  · rw [Grammar.optionalColumns_eq]
    refine sup_le (Grammar.mark_mul_le_other rfl) (inf_le_left.trans ?_)
    exact iSup_le (Grammar.valueClause_le_other rfl)

/-- A statement with the verb of an insertion, a change or a deletion. -/
theorem succeeds_statement (params : List Json) {quote : Option Char} {word : String}
    {rest : List Token} (verb : Text.upperAscii word = "INSERT" ∨
      Text.upperAscii word = "UPDATE" ∨ Text.upperAscii word = "DELETE") :
    (∃ st, (statement params).run' ⟨.word quote word :: rest, 0⟩ = .ok st) ↔
      .word quote word :: rest ∈ Grammar.modification := by
  rw [run_statement_word, Grammar.cons_mem_modification]
  rcases verb with upper | upper | upper
  · rw [upper]
    refine ((succeeds_insert params).run' rest 0).trans ?_
    simp
  · rw [upper]
    refine ((succeeds_update params).run' rest 0).trans ?_
    simp
  · rw [upper]
    refine ((succeeds_delete params).run' rest 0).trans ?_
    simp

end Parser

/-- Tokens that begin with the verb of an insertion, a change or a deletion make a statement exactly
if they are one of the grammar, whatever the parameters are. -/
theorem accepted_iff {tokens : List Token} (params : List Json)
    (begins : dropSemicolons tokens ∈
      (Grammar.verb "INSERT" + Grammar.verb "UPDATE" + Grammar.verb "DELETE") * ⊤) :
    ((∃ st, ofTokens tokens params = .ok st) ↔ dropSemicolons tokens ∈ Grammar.modification) ∧
      ∀ text, scan text = .ok tokens →
        ((∃ st, parse text params = .ok st) ↔ dropSemicolons tokens ∈ Grammar.modification) := by
  have accepted : (∃ st, ofTokens tokens params = .ok st) ↔
      dropSemicolons tokens ∈ Grammar.modification := by
    obtain ⟨quote, word, rest, verb, split⟩ := Grammar.mem_verbs.mp begins
    rw [ofTokens, split]
    exact Parser.succeeds_statement params verb
  refine ⟨accepted, fun text scans => ?_⟩
  rw [parse_scanned params scans]
  exact accepted

/-- An alias, a qualified identifier and a clause behind the condition are accepted in a deletion;
another field is not. -/
theorem accepted_iff_deletions :
    (∃ tokens, scan "DELETE FROM pages p WHERE p.ID == -2 LIMIT 1;" = .ok tokens ∧
      dropSemicolons tokens ∈
        (Grammar.verb "INSERT" + Grammar.verb "UPDATE" + Grammar.verb "DELETE") * ⊤ ∧
      dropSemicolons tokens ∈ Grammar.modification) ∧
    ∃ tokens, scan "DELETE FROM pages WHERE slug = ?" = .ok tokens ∧
      dropSemicolons tokens ∈
        (Grammar.verb "INSERT" + Grammar.verb "UPDATE" + Grammar.verb "DELETE") * ⊤ ∧
      dropSemicolons tokens ∉ Grammar.modification := by
  have begins : ∀ rest, .word none "DELETE" :: rest ∈
      (Grammar.verb "INSERT" + Grammar.verb "UPDATE" + Grammar.verb "DELETE") * ⊤ :=
    fun rest => Grammar.mem_verbs.mpr ⟨none, "DELETE", rest, .inr (.inr rfl), rfl⟩
  refine ⟨⟨_, rfl, begins _, ?_⟩, _, rfl, begins _, fun mem => ?_⟩
  · refine (accepted_iff [] ?_).1.mp ?_
    · exact begins _
    · exact ⟨_, rfl⟩
  · refine nomatch (accepted_iff [] ?_).1.mpr mem
    exact begins _

end ContentStore.Sql
