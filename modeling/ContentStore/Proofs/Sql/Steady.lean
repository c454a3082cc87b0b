import ContentStore.Proofs.Sql.Placed
/-!
# Readers that take no parameter

A reader is steady if it does the same at every count of parameters and counts exactly the
placeholders among the tokens that it takes.  Steady readers compose, and on placed tokens they read
what they read on tokens alone (`run_plain`).  Every reader of the grammar is steady that takes no
parameter, apart from the one that skips an alias: that one takes a placeholder behind `AS` without
counting it (`run_skipAlias`).
-/

namespace ContentStore.Sql

open Token (placeholders)

theorem splitBefore_append (stop : Token → Bool) (depth : Nat) (ts : List Token) :
    (splitBefore stop depth ts).1 ++ (splitBefore stop depth ts).2 = ts := by
  induction ts generalizing depth with
  | nil => rfl
  | cons t rest ih =>
    rw [splitBefore]
    split
    · rfl
    · exact congrArg (t :: ·) (ih _)

namespace Parser

variable {α β : Type}

/-- At these tokens a reader does the same at every count and counts the placeholders it takes. -/
def SteadyAt (p : Parser α) (ts : List Token) : Prop :=
  (∃ e, ∀ k, p.run ⟨ts, k⟩ = .error e) ∨
    ∃ a taken left, ts = taken ++ left ∧
      ∀ k, p.run ⟨ts, k⟩ = .ok (a, ⟨left, k + placeholders taken⟩)

/-- A reader that is steady at all tokens. -/
def Steady (p : Parser α) : Prop := ∀ ts, p.SteadyAt ts

/-! ## Composition -/

theorem steady_pure (a : α) : Steady (pure a : Parser α) :=
  fun ts => .inr ⟨a, [], ts, rfl, fun _ => rfl⟩

theorem steady_throw (e : StoreError) : Steady (throw e : Parser α) :=
  fun _ => .inl ⟨e, fun _ => rfl⟩

theorem SteadyAt.bind {p : Parser α} {f : α → Parser β} {ts : List Token} (first : p.SteadyAt ts)
    (next : ∀ a, Steady (f a)) : (p >>= f).SteadyAt ts := by
  rcases first with ⟨e, fails⟩ | ⟨a, taken, left, split, reads⟩
  · refine .inl ⟨e, fun k => ?_⟩
    rw [StateT.run_bind, fails]
    rfl
  have later : ∀ k, (p >>= f).run ⟨ts, k⟩ = (f a).run ⟨left, k + placeholders taken⟩ := by
    intro k
    rw [StateT.run_bind, reads]
    rfl
  rcases next a left with ⟨e, fails⟩ | ⟨b, taken', left', split', reads'⟩
  · exact .inl ⟨e, fun k => (later k).trans (fails _)⟩
  · refine .inr ⟨b, taken ++ taken', left', by rw [split, split', List.append_assoc], fun k => ?_⟩
    rw [later, reads', placeholders_append, Nat.add_assoc]

theorem steady_bind {p : Parser α} {f : α → Parser β} (first : Steady p)
    (next : ∀ a, Steady (f a)) : Steady (p >>= f) :=
  fun ts => (first ts).bind next

/-! ## The readers of the grammar -/

theorem steady_peek : Steady peek :=
  fun ts => .inr ⟨ts.head?, [], ts, rfl, fun _ => rfl⟩

theorem steady_fail (reason : Malformed) : Steady (fail reason : Parser α) := steady_throw _

theorem run_eatIf (accept : Token → Bool) (t : Token) (rest : List Token) (k : Nat) :
    (eatIf accept).run ⟨t :: rest, k⟩ =
      if accept t then .ok (true, ⟨rest, k⟩) else .ok (false, ⟨t :: rest, k⟩) := by
  have unfolded : (eatIf accept).run ⟨t :: rest, k⟩ =
      (if accept t then (do set (Cursor.mk rest k); return true) else return false :
        Parser Bool).run ⟨t :: rest, k⟩ := rfl
  rw [unfolded]
  split <;> rfl

/-- A token that is no placeholder may be read where it comes next. -/
theorem steady_eatIf {accept : Token → Bool} (noParameter : ∀ n, accept (.placeholder n) = false) :
    Steady (eatIf accept) := by
  intro ts
  cases ts with
  | nil => exact .inr ⟨false, [], [], rfl, fun _ => rfl⟩
  | cons t rest =>
    cases accepted : accept t with
    | false =>
      refine .inr ⟨false, [], t :: rest, rfl, fun k => ?_⟩
      rw [run_eatIf, accepted]
      rfl
    | true =>
      have noPlaceholder : placeholders [t] = 0 := by
        cases t with
        | placeholder n => exact absurd accepted (by simp [noParameter])
        | _ => rfl
      refine .inr ⟨true, [t], rest, rfl, fun k => ?_⟩
      rw [run_eatIf, accepted, noPlaceholder]
      rfl

theorem steady_eatKeyword (keyword : String) : Steady (eatKeyword keyword) :=
  steady_eatIf fun _ => rfl

theorem steady_expectKeyword (keyword : String) : Steady (expectKeyword keyword) := by
  refine steady_bind (steady_eatKeyword keyword) fun found => ?_
  cases found with
  | true => exact steady_pure ()
  | false => exact steady_bind steady_peek fun t => steady_fail _

theorem steady_eatToken {token : Token} (noParameter : token.isPlaceholder = false) :
    Steady (eatToken token) := by
  refine steady_eatIf fun n => ?_
  rw [beq_eq_false_iff_ne]
  rintro rfl
  cases noParameter

theorem steady_expectToken {token : Token} (noParameter : token.isPlaceholder = false) :
    Steady (expectToken token) := by
  refine steady_bind (steady_eatToken noParameter) fun found => ?_
  cases found with
  | true => exact steady_pure ()
  | false => exact steady_bind steady_peek fun t => steady_fail _

theorem steady_expectEqual : Steady expectEqual := by
  refine steady_bind (steady_eatIf fun n => rfl) fun found => ?_
  cases found with
  | true => exact steady_pure ()
  | false => exact steady_bind steady_peek fun t => steady_fail _

theorem steady_expectEnd : Steady expectEnd := by
  intro ts
  cases ts with
  | nil => exact .inr ⟨(), [], [], rfl, fun _ => rfl⟩
  | cons t rest => exact .inl ⟨.malformed (.trailing (t :: rest)), fun _ => rfl⟩

theorem nameParts_split {first last : String} {ts left : List Token}
    (reads : nameParts first ts = .ok (last, left)) :
    ∃ taken, ts = taken ++ left ∧ placeholders taken = 0 := by
  induction first, ts using nameParts.induct with
  | case1 first q part rest ih =>
    obtain ⟨taken, rfl, none⟩ := ih reads
    exact ⟨.period :: .word q part :: taken, rfl, none⟩
  | case2 first rest noWord =>
    rw [nameParts.eq_2 _ _ noWord] at reads
    cases reads
  | case3 first ts noPart noPeriod =>
    rw [nameParts.eq_3 _ _ noPart noPeriod] at reads
    cases reads
    exact ⟨[], rfl, rfl⟩

theorem run_name_word (q : Option Char) (first : String) (rest : List Token) (k : Nat) :
    name.run ⟨.word q first :: rest, k⟩ =
      (nameParts first rest).map fun (last, left) => (last, ⟨left, k⟩) := by
  have unfolded : name.run ⟨.word q first :: rest, k⟩ =
      (do
        let (last, left) ← (nameParts first rest : Parser (String × List Token))
        set (Cursor.mk left k)
        return last : Parser String).run ⟨.word q first :: rest, k⟩ := rfl
  rw [unfolded]
  cases nameParts first rest <;> rfl

theorem steady_name : Steady name := by
  intro ts
  cases ts with
  | nil => exact .inl ⟨.malformed (.expected .identifier none), fun _ => rfl⟩
  | cons t rest =>
    cases t with
    | word q first =>
      cases reads : nameParts first rest with
      | error e =>
        refine .inl ⟨e, fun k => ?_⟩
        rw [run_name_word, reads]
        rfl
      | ok found =>
        obtain ⟨last, left⟩ := found
        obtain ⟨taken, rfl, none⟩ := nameParts_split reads
        refine .inr ⟨last, .word q first :: taken, left, rfl, fun k => ?_⟩
        rw [run_name_word, reads, placeholders_cons, none]
        rfl
    | _ => exact .inl ⟨_, fun _ => rfl⟩

theorem steady_table : Steady table := by
  refine steady_bind steady_name fun n => ?_
  cases Table.lookup? n with
  | some t => exact steady_pure t
  | none => exact steady_throw _

theorem steady_skipBefore (stop : Token → Bool) : Steady (modify (skipBefore stop)) :=
  fun ts => .inr ⟨(), (splitBefore stop 0 ts).1, (splitBefore stop 0 ts).2,
    (splitBefore_append stop 0 ts).symm, fun _ => rfl⟩

theorem steady_commaSeparated {item : Parser α} (steady : Steady item) (fuel : Nat) :
    Steady (commaSeparated item fuel) := by
  induction fuel with
  | zero => exact steady_bind steady fun a => steady_pure _
  | succ fuel ih =>
    refine steady_bind steady fun a => steady_bind (steady_eatToken rfl) fun more => ?_
    cases more with
    | true => exact steady_bind ih fun rest => steady_pure _
    | false => exact steady_pure _

theorem steady_list {item : Parser α} (steady : Steady item) : Steady (list item) :=
  fun ts => steady_commaSeparated steady ts.length ts

theorem steady_assign (columns : List String) (values : List Assigned) :
    Steady (assign columns values) := by
  unfold assign
  split
  · exact steady_pure _
  · exact steady_fail _

/-! ## Values that are no parameters -/

/-- What is steady behind a token is steady at the token. -/
theorem SteadyAt.behind {p q : Parser α} {t : Token} {rest : List Token}
    (noParameter : placeholders [t] = 0) (steady : q.SteadyAt rest)
    (same : ∀ k, p.run ⟨t :: rest, k⟩ = q.run ⟨rest, k⟩) : p.SteadyAt (t :: rest) := by
  rcases steady with ⟨e, fails⟩ | ⟨a, taken, left, split, reads⟩
  · exact .inl ⟨e, fun k => (same k).trans (fails k)⟩
  · refine .inr ⟨a, t :: taken, left, by rw [split, List.cons_append], fun k => ?_⟩
    rw [same, reads, placeholders_cons t taken, noParameter, Nat.zero_add]

theorem steady_numberOf (digits : String) : Steady (numberOf digits) := by
  unfold numberOf
  split
  · exact steady_pure _
  · exact steady_fail _

/-- Reads the value of a word, behind the word. -/
def valueWord (word : String) : Parser Assigned := do
  let upper := Text.upperAscii word
  if upper = "TRUE" then return .value (.bool true)
  else if upper = "FALSE" then return .value (.bool false)
  else if upper = "NULL" then return .value .null
  else if upper = "NOW" ∨ upper = "CURRENT_TIMESTAMP" then
    if ← eatToken .leftParen then expectToken .rightParen
    return .now
  else fail (.unsupportedValue word)

theorem steady_valueWord (word : String) : Steady (valueWord word) := by
  unfold valueWord
  dsimp only
  split
  · exact steady_pure _
  split
  · exact steady_pure _
  split
  · exact steady_pure _
  split
  · refine steady_bind (steady_eatToken rfl) fun opens => ?_
    cases opens with
    | true => exact steady_bind (steady_expectToken rfl) fun _ => steady_pure _
    | false => exact steady_pure _
  · exact steady_fail _

/-- A value that does not begin with a placeholder is read at every count. -/
theorem steadyAt_value (params : List Json) {ts : List Token}
    (noParameter : ∀ n rest, ts ≠ .placeholder n :: rest) : (value params).SteadyAt ts := by
  cases ts with
  | nil => exact .inl ⟨.malformed (.expected .value none), fun _ => rfl⟩
  | cons t rest =>
    cases t with
    | placeholder n => exact absurd rfl (noParameter n rest)
    | number digits long => exact (steady_numberOf digits rest).behind rfl fun _ => rfl
    | text s => exact (steady_pure (Assigned.value (.text s)) rest).behind rfl fun _ => rfl
    | word quote word =>
      cases quote with
      | none => exact (steady_valueWord word rest).behind rfl fun _ => rfl
      | some q => exact .inl ⟨_, fun _ => rfl⟩
    | minus =>
      cases rest with
      | nil => exact .inl ⟨.malformed (.expected .numberAfterMinus none), fun _ => rfl⟩
      | cons u rest =>
        cases u with
        | number digits long =>
          have number : SteadyAt (do discard advance; numberOf ("-" ++ digits))
              (.number digits long :: rest) :=
            (steady_numberOf ("-" ++ digits) rest).behind rfl fun _ => rfl
          exact number.behind rfl fun _ => rfl
        | _ => exact .inl ⟨_, fun _ => rfl⟩
    | _ => exact .inl ⟨_, fun _ => rfl⟩

theorem run_value (params : List Json) {ts : List Token}
    (noParameter : ∀ n rest, ts ≠ .placeholder n :: rest) (k : Nat) :
    (value params).run ⟨ts, k⟩ = (value []).run ⟨ts, k⟩ := by
  cases ts with
  | nil => rfl
  | cons t rest =>
    cases t with
    | placeholder n => exact absurd rfl (noParameter n rest)
    | word quote word => cases quote <;> rfl
    | _ => rfl

/-! ## Aliases -/

end Parser

/-- The tokens behind a table begin with `AS` and a placeholder. -/
def startsWithAliasPlaceholder : List Token → Bool
  | t :: .placeholder _ :: _ => t.isKeyword "AS"
  | _ => false

theorem placeholders_keyword {t : Token} {keyword : String}
    (isKeyword : t.isKeyword keyword = true) : placeholders [t] = 0 := by
  cases t with
  | placeholder n => cases isKeyword
  | _ => rfl

theorem startsWithAliasPlaceholder_other {t : Token} (rest : List Token)
    (noKeyword : t.isKeyword "AS" = false) : startsWithAliasPlaceholder (t :: rest) = false := by
  unfold startsWithAliasPlaceholder
  split
  · next same =>
    cases same
    exact noKeyword
  · rfl

theorem toNat_startsWithAliasPlaceholder {t : Token} (u : Token) (rest : List Token)
    (isKeyword : t.isKeyword "AS" = true) :
    (startsWithAliasPlaceholder (t :: u :: rest)).toNat = placeholders [u] := by
  cases u with
  | placeholder n => exact congrArg Bool.toNat isKeyword
  | _ => rfl

namespace Parser

/-- Without `AS` a word is skipped that begins no clause. -/
theorem run_skipAlias_word (quote : Option Char) (word : String) (rest : List Token) (k : Nat)
    (noKeyword : (Token.word quote word).isKeyword "AS" = false) :
    skipAlias.run ⟨.word quote word :: rest, k⟩ =
      if (Token.word quote word).isOneOf aliasStops then .ok ((), ⟨.word quote word :: rest, k⟩)
      else .ok ((), ⟨rest, k⟩) := by
  rw [skipAlias, StateT.run_bind, eatKeyword, run_eatIf, noKeyword]
  change ((eatIf _).run ⟨.word quote word :: rest, k⟩ >>= fun found => .ok ((), found.2)) = _
  rw [run_eatIf]
  cases (Token.word quote word).isOneOf aliasStops <;> rfl

theorem run_skipAlias_as {t : Token} (rest : List Token) (k : Nat)
    (isKeyword : t.isKeyword "AS" = true) :
    skipAlias.run ⟨t :: rest, k⟩ = .ok ((), ⟨rest.tail, k⟩) := by
  rw [skipAlias, StateT.run_bind, eatKeyword, run_eatIf, isKeyword]
  rfl

/-- An alias is skipped at every count, and the count stays, also where a placeholder stands behind
`AS`. -/
theorem run_skipAlias (ts : List Token) :
    ∃ taken left, ts = taken ++ left ∧
      placeholders taken = (startsWithAliasPlaceholder ts).toNat ∧
      ∀ k, skipAlias.run ⟨ts, k⟩ = .ok ((), ⟨left, k⟩) := by
  cases ts with
  | nil => exact ⟨[], [], rfl, rfl, fun _ => rfl⟩
  | cons t rest =>
    cases isKeyword : t.isKeyword "AS" with
    | false =>
      rw [startsWithAliasPlaceholder_other rest isKeyword]
      cases t with
      | word quote word =>
        cases stops : (Token.word quote word).isOneOf aliasStops with
        | false =>
          refine ⟨[.word quote word], rest, rfl, rfl, fun k => ?_⟩
          rw [run_skipAlias_word quote word rest k isKeyword, stops]
          rfl
        | true =>
          refine ⟨[], .word quote word :: rest, rfl, rfl, fun k => ?_⟩
          rw [run_skipAlias_word quote word rest k isKeyword, stops]
          rfl
      | _ => exact ⟨[], _, rfl, rfl, fun _ => rfl⟩
    | true =>
      cases rest with
      | nil =>
        exact ⟨[t], [], rfl, placeholders_keyword isKeyword,
          fun k => run_skipAlias_as [] k isKeyword⟩
      | cons u rest =>
        refine ⟨[t, u], rest, rfl, ?_, fun k => run_skipAlias_as _ k isKeyword⟩
        rw [toNat_startsWithAliasPlaceholder u rest isKeyword, placeholders_cons,
          placeholders_keyword isKeyword, Nat.zero_add]

end Parser

/-! ## On placed tokens -/

/-- Behind some of its tokens the others carry what they carry when they begin a statement after
as many placeholders. -/
theorem remaining_place (value : Nat → Json) (k : Nat) (taken left : List Token) :
    Placed.remaining (place value k (taken ++ left)) left =
      place value (k + placeholders taken) left := by
  have skipped : (place value k taken ++ place value (k + placeholders taken) left).length -
      left.length = (place value k taken).length := by
    rw [List.length_append, length_place, length_place, Nat.add_sub_cancel]
  rw [place_append, Placed.remaining, skipped, List.drop_left]

/-- A steady reader reads placed tokens as it reads tokens. -/
theorem run_plain {α : Type} (value : Nat → Json) {p : Parser α} {c : Cursor}
    (steady : p.SteadyAt c.rest) :
    (Placed.plain p).run (c.placed value) = (p.run c).map (Prod.map id (Cursor.placed value)) := by
  have plain : (Placed.plain p).run (c.placed value) = (p.run ⟨c.rest, 0⟩).map
      (Prod.map id fun c' => Placed.remaining (c.placed value) c'.rest) := by
    rw [StateT.run, Placed.plain, tokens_placed]
    cases p.run ⟨c.rest, 0⟩ <;> rfl
  rcases steady with ⟨e, fails⟩ | ⟨a, taken, left, split, reads⟩
  · rw [plain, fails, fails c.bound]
    rfl
  · rw [plain, reads, reads c.bound]
    dsimp only [Except.map, Prod.map]
    rw [Cursor.placed, split, remaining_place]
    rfl

end ContentStore.Sql
