import ContentStore.Proofs.Sql.Grammar
import ContentStore.Proofs.Sql.Steady
/-!
# Readers of tokens that differ in letter case

Two lists of tokens are the same but for case if their tokens agree one by one, apart from the case
of the ASCII letters in words without quotes.  Two readers are alike if at such tokens they give
related results and leave such tokens again, or fail with alike errors (`Parser.Alike`).  Alike
readers compose (`alike_bind`), and every reader of single tokens, names, values and lists is alike
to itself: keywords and tables are compared in any case, and every other token that a reader asks
for is no word.
-/

namespace ContentStore

/-! ## Letters -/

namespace Text

variable {a b : String}

theorem sameLetters_refl (a : String) : sameLetters a a = true := beq_self_eq_true _

theorem sameLetters_iff : sameLetters a b = true ↔ upperAscii a = upperAscii b := by
  rw [sameLetters, beq_iff_eq, upperAscii, upperAscii, String.ofList_inj]

theorem sameLetters_symm (same : sameLetters a b = true) : sameLetters b a = true :=
  sameLetters_iff.mpr (sameLetters_iff.mp same).symm

/-- Texts with the same letters are compared alike with a third one. -/
theorem sameLetters_congr (same : sameLetters a b = true) (c : String) :
    sameLetters a c = sameLetters b c := by
  rw [Bool.eq_iff_iff, sameLetters_iff, sameLetters_iff, sameLetters_iff.mp same]

end Text

namespace Table

/-- A character is a quote exactly if its upper case is one. -/
theorem isQuote_toUpper (c : Char) : isQuote c.toUpper = isQuote c := by
  by_cases lower : c.isLower
  · have letter : c.isAlpha = true := by simp [Char.isAlpha, lower]
    have upper : c.toUpper.isAlpha = true := by simpa using letter
    have noQuote : ∀ d : Char, d.isAlpha = true → isQuote d = false := by
      intro d isAlpha
      rw [isQuote, Bool.or_eq_false_iff, beq_eq_false_iff_ne, beq_eq_false_iff_ne]
      constructor <;> rintro rfl <;> cases isAlpha
    rw [noQuote _ letter, noQuote _ upper]
  · rw [Char.toUpper_eq_of_not_isLower lower]

/-- The quotes of a name are those of the name in upper case. -/
theorem unquote_toUpper (cs : List Char) :
    unquote (cs.map Char.toUpper) = (unquote cs).map Char.toUpper := by
  have quotes : isQuote ∘ Char.toUpper = isQuote := funext isQuote_toUpper
  simp only [unquote, List.dropWhile_map, ← List.map_reverse, quotes]

/-- A table is found in any case of the letters of its name. -/
theorem lookup?_sameLetters {a b : String} (same : Text.sameLetters a b = true) :
    lookup? a = lookup? b := by
  have plain : ∀ s : String, (unquote s.toList).map Char.toLower =
      (unquote (s.toList.map Char.toUpper)).map Char.toLower := by
    intro s
    rw [unquote_toUpper, List.map_map]
    exact List.map_congr_left fun c _ => (Char.toLower_toUpper_eq_toLower c).symm
  rw [lookup?, lookup?, plain a, plain b, eq_of_beq same]

end Table

namespace Sql

/-! ## Tokens -/

/-- Two tokens are one, or two words without quotes that differ in letter case. -/
inductive Token.SameButCase : Token → Token → Prop
  | refl (t : Token) : SameButCase t t
  | word {a b : String} (same : Text.sameLetters a b = true) :
    SameButCase (.word none a) (.word none b)

/-- Tokens agree one by one, apart from the case of words. -/
abbrev SameButCase : List Token → List Token → Prop := List.Forall₂ Token.SameButCase

/-- Two names differ at most in letter case. -/
abbrev SameName (a b : String) : Prop := Text.sameLetters a b = true

/-- A test does not see the case of words. -/
def Insensitive (accept : Token → Bool) : Prop := ∀ t u, t.SameButCase u → accept t = accept u

section Tokens

variable {t u : Token} {ts us : List Token}

theorem Token.SameButCase.symm (same : t.SameButCase u) : u.SameButCase t := by
  cases same with
  | refl => exact .refl t
  | word same => exact .word (Text.sameLetters_symm same)

theorem SameButCase.refl (ts : List Token) : SameButCase ts ts :=
  List.forall₂_same.mpr fun t _ => .refl t

theorem SameButCase.symm (same : SameButCase ts us) : SameButCase us ts :=
  (same.imp fun _ _ => Token.SameButCase.symm).flip

theorem insensitive_isKeyword (keyword : String) : Insensitive (·.isKeyword keyword) := by
  intro t u same
  cases same with
  | refl => rfl
  | word same => exact Text.sameLetters_congr same keyword

theorem insensitive_isOneOf (keywords : List String) : Insensitive (·.isOneOf keywords) := by
  intro t u same
  have each : (t.isKeyword ·) = (u.isKeyword ·) :=
    funext fun k => insensitive_isKeyword k t u same
  show (keywords.any fun k => t.isKeyword k) = keywords.any fun k => u.isKeyword k
  rw [each]

/-- A token that is no word is told from others in any case of these. -/
theorem insensitive_mark {mark : Token} (noWord : Grammar.isWord mark = false) :
    Insensitive (· == mark) := by
  intro t u same
  cases same with
  | refl => rfl
  | @word a b =>
    have differ : ∀ w, (Token.word none w == mark) = false := by
      intro w
      rw [beq_eq_false_iff_ne]
      rintro rfl
      cases noWord
    exact (differ a).trans (differ b).symm

theorem insensitive_isPlaceholder : Insensitive Token.isPlaceholder := by
  intro t u same
  cases same <;> rfl

theorem depthAfter_sameButCase (same : t.SameButCase u) (depth : Nat) :
    depthAfter depth t = depthAfter depth u := by
  cases same <;> rfl

theorem placeholders_sameButCase (same : SameButCase ts us) :
    Token.placeholders ts = Token.placeholders us := by
  induction same with
  | nil => rfl
  | cons first _ ih =>
    rw [Token.placeholders, List.countP_cons, insensitive_isPlaceholder _ _ first,
      ← Token.placeholders, ih, Token.placeholders, Token.placeholders, List.countP_cons]

end Tokens

/-! ## Cursors, errors and results -/

/-- Two cursors have taken as many parameters and stand at tokens that are the same but for case. -/
structure Cursor.SameButCase (c d : Cursor) : Prop where
  rest : Sql.SameButCase c.rest d.rest
  bound : c.bound = d.bound

/-- Two misfits are one, or differ in the case of the words that they show. -/
inductive Malformed.SameButCase : Malformed → Malformed → Prop
  | refl (reason : Malformed) : SameButCase reason reason
  | expected (what : Expectation) {found found' : Option Token}
    (same : Option.Rel Token.SameButCase found found') :
    SameButCase (.expected what found) (.expected what found')
  | unsupportedValue {word word' : String} (same : Text.sameLetters word word' = true) :
    SameButCase (.unsupportedValue word) (.unsupportedValue word')
  | trailing {ts us : List Token} (same : Sql.SameButCase ts us) :
    SameButCase (.trailing ts) (.trailing us)

/-- Two errors are of one kind and differ at most in the case of the words that they show. -/
inductive SameError : StoreError → StoreError → Prop
  | unknownTable {a b : String} (same : Text.sameLetters a b = true) :
    SameError (.unknownTable a) (.unknownTable b)
  | unsupported (reason : Unsupported) : SameError (.unsupported reason) (.unsupported reason)
  | malformed {reason reason' : Malformed} (same : reason.SameButCase reason') :
    SameError (.malformed reason) (.malformed reason')

/-- Both succeed with related values, or both fail with the same error but for case. -/
inductive SameOutcome {α β : Type} (R : α → β → Prop) :
    Except StoreError α → Except StoreError β → Prop
  | ok {a : α} {b : β} (related : R a b) : SameOutcome R (.ok a) (.ok b)
  | error {e e' : StoreError} (same : SameError e e') : SameOutcome R (.error e) (.error e')

namespace Parser

variable {α β : Type} {R : α → α → Prop} {S : β → β → Prop} {p q : Parser α}

/-- At cursors that are the same but for case two readers give related values and leave such
cursors, or fail with the same error but for case. -/
def Alike (R : α → α → Prop) (p q : Parser α) : Prop :=
  ∀ c d, c.SameButCase d →
    SameOutcome (fun x y => R x.1 y.1 ∧ x.2.SameButCase y.2) (p.run c) (q.run d)

/-! ## Composition -/

theorem alike_pure {a b : α} (related : R a b) : Alike R (pure a) (pure b) :=
  fun _ _ same => .ok ⟨related, same⟩

theorem alike_throw {e e' : StoreError} (same : SameError e e') :
    Alike R (throw e) (throw e') :=
  fun _ _ _ => .error same

theorem alike_fail {reason reason' : Malformed} (same : reason.SameButCase reason') :
    Alike R (fail reason) (fail reason') :=
  alike_throw (.malformed same)

theorem alike_bind {f g : α → Parser β} (first : Alike R p q)
    (next : ∀ a b, R a b → Alike S (f a) (g b)) : Alike S (p >>= f) (q >>= g) := by
  intro c d same
  rw [StateT.run_bind, StateT.run_bind]
  have both := first c d same
  generalize p.run c = x at both ⊢
  generalize q.run d = y at both ⊢
  cases both with
  | error same => exact .error same
  | @ok x y related => exact next x.1 y.1 related.1 x.2 y.2 related.2

/-- A reader of one value goes on alike on both sides. -/
theorem alike_then {f g : α → Parser β} (first : Alike Eq p q)
    (next : ∀ a, Alike S (f a) (g a)) : Alike S (p >>= f) (q >>= g) :=
  alike_bind first fun a _ same => same ▸ next a

/-- The results alone are related. -/
theorem Alike.run' (alike : Alike R p q) {c d : Cursor} (same : c.SameButCase d) :
    SameOutcome R (p.run' c) (q.run' d) := by
  rw [StateT.run'_eq, StateT.run'_eq]
  have both := alike c d same
  generalize p.run c = x at both ⊢
  generalize q.run d = y at both ⊢
  cases both with
  | error same => exact .error same
  | ok related => exact .ok related.1

/-! ## Single tokens -/

theorem alike_peek : Alike (Option.Rel Token.SameButCase) peek peek := by
  rintro ⟨ts, k⟩ ⟨us, l⟩ ⟨rest, bound⟩
  cases rest with
  | nil => exact .ok ⟨.none, .nil, bound⟩
  | cons first rest => exact .ok ⟨.some first, .cons first rest, bound⟩

theorem alike_advance : Alike (Option.Rel Token.SameButCase) advance advance := by
  rintro ⟨ts, k⟩ ⟨us, l⟩ ⟨rest, bound⟩
  cases rest with
  | nil => exact .ok ⟨.none, .nil, bound⟩
  | cons first rest => exact .ok ⟨.some first, rest, bound⟩

theorem alike_takeParameter (params : List Json) :
    Alike Eq (takeParameter params) (takeParameter params) := by
  rintro ⟨ts, k⟩ ⟨us, l⟩ ⟨rest, bound⟩
  cases bound
  exact .ok ⟨rfl, rest, rfl⟩

theorem alike_eatIf {accept : Token → Bool} (insensitive : Insensitive accept) :
    Alike Eq (eatIf accept) (eatIf accept) := by
  rintro ⟨ts, k⟩ ⟨us, l⟩ ⟨rest, bound⟩
  cases rest with
  | nil => exact .ok ⟨rfl, .nil, bound⟩
  | @cons t u ts us first rest =>
    rw [run_eatIf, run_eatIf, insensitive t u first]
    split
    · exact .ok ⟨rfl, rest, bound⟩
    · exact .ok ⟨rfl, .cons first rest, bound⟩

theorem alike_eatKeyword (keyword : String) : Alike Eq (eatKeyword keyword) (eatKeyword keyword) :=
  alike_eatIf (insensitive_isKeyword keyword)

theorem alike_eatToken {mark : Token} (noWord : Grammar.isWord mark = false) :
    Alike Eq (eatToken mark) (eatToken mark) :=
  alike_eatIf (insensitive_mark noWord)

/-- A token that must come: what stands there instead is shown. -/
theorem alike_required {eat : Parser Bool} (eats : Alike Eq eat eat) (what : Expectation) :
    Alike Eq (do unless ← eat do fail (.expected what (← peek)))
      (do unless ← eat do fail (.expected what (← peek))) := by
  refine alike_then eats fun found => ?_
  cases found with
  | true => exact alike_pure rfl
  | false => exact alike_bind alike_peek fun t u same => alike_fail (.expected what same)

theorem alike_expectKeyword (keyword : String) :
    Alike Eq (expectKeyword keyword) (expectKeyword keyword) :=
  alike_required (alike_eatKeyword keyword) _

theorem alike_expectToken {mark : Token} (noWord : Grammar.isWord mark = false) :
    Alike Eq (expectToken mark) (expectToken mark) :=
  alike_required (alike_eatToken noWord) _

theorem alike_expectEqual : Alike Eq expectEqual expectEqual := by
  refine alike_required (alike_eatIf fun t u same => ?_) _
  have single : (t == .equal) = (u == .equal) := insensitive_mark rfl t u same
  have double : (t == .doubleEqual) = (u == .doubleEqual) := insensitive_mark rfl t u same
  rw [single, double]

theorem alike_expectEnd : Alike Eq expectEnd expectEnd := by
  rintro ⟨ts, k⟩ ⟨us, l⟩ ⟨rest, bound⟩
  cases rest with
  | nil => exact .ok ⟨rfl, .nil, bound⟩
  | cons first rest => exact .error (.malformed (.trailing (.cons first rest)))

/-! ## Names -/

/-- The words between the periods may differ in case, and so may the last one. -/
theorem nameParts_sameButCase {a b : String} {ts us : List Token}
    (first : Text.sameLetters a b = true) (same : SameButCase ts us) :
    SameOutcome (fun x y => SameName x.1 y.1 ∧ SameButCase x.2 y.2)
      (nameParts a ts) (nameParts b us) := by
  induction a, ts using nameParts.induct generalizing b us with
  | case1 a q part rest ih =>
    obtain _ | ⟨⟨_⟩, _ | ⟨word, behind⟩⟩ := same
    cases word with
    | refl =>
      rw [nameParts, nameParts]
      exact ih (Text.sameLetters_refl part) behind
    | word same =>
      rw [nameParts, nameParts]
      exact ih same behind
  | case2 a rest noWord =>
    obtain _ | ⟨⟨_⟩, behind⟩ := same
    rw [nameParts.eq_2 _ _ noWord]
    cases behind with
    | nil => exact .error (.malformed (.refl _))
    | @cons t u ts us first behind =>
      cases first with
      | word => exact absurd rfl (noWord none _ ts)
      | refl =>
        rw [nameParts.eq_2 _ _ fun q part rest h => noWord q part ts (by cases h; rfl)]
        exact .error (.malformed (.refl _))
  | case3 a ts noPart noPeriod =>
    have others : ∀ rest, us ≠ .period :: rest := by
      rintro rest rfl
      obtain _ | ⟨⟨_⟩, _⟩ := same
      exact noPeriod _ rfl
    rw [nameParts.eq_3 _ _ noPart noPeriod,
      nameParts.eq_3 _ _ (fun q part rest => others _) others]
    exact .ok ⟨first, same⟩

theorem alike_name : Alike SameName name name := by
  rintro ⟨ts, k⟩ ⟨us, l⟩ ⟨rest, bound⟩
  cases bound
  cases rest with
  | nil => exact .error (.malformed (.refl _))
  | @cons t u ts us first rest =>
    have parts : ∀ {q : Option Char} {a b : String}, SameName a b →
        SameOutcome (fun x y => SameName x.1 y.1 ∧ x.2.SameButCase y.2)
          (name.run ⟨.word q a :: ts, k⟩) (name.run ⟨.word q b :: us, k⟩) := by
      intro q a b same
      rw [run_name_word, run_name_word]
      have both := nameParts_sameButCase same rest
      generalize nameParts a ts = x at both ⊢
      generalize nameParts b us = y at both ⊢
      cases both with
      | error same => exact .error same
      | ok related => exact .ok ⟨related.1, related.2, rfl⟩
    cases first with
    | word same => exact parts same
    | refl =>
      cases t with
      | word q a => exact parts (Text.sameLetters_refl a)
      | _ => exact .error (.malformed (.refl _))

theorem alike_table : Alike Eq table table := by
  refine alike_bind alike_name fun a b same => ?_
  rw [Table.lookup?_sameLetters same]
  cases Table.lookup? b with
  | some t => exact alike_pure rfl
  | none => exact alike_throw (.unknownTable same)

theorem alike_skipAlias : Alike Eq skipAlias skipAlias := by
  refine alike_then (alike_eatKeyword "AS") fun found => ?_
  cases found with
  | true => exact alike_bind alike_advance fun _ _ _ => alike_pure rfl
  | false =>
    refine alike_then (alike_eatIf fun t u same => ?_) fun _ => alike_pure rfl
    cases same with
    | refl => rfl
    | word same => exact congrArg not (insensitive_isOneOf aliasStops _ _ (.word same))

/-! ## Values and lists -/

theorem alike_numberOf (digits : String) : Alike Eq (numberOf digits) (numberOf digits) := by
  unfold numberOf
  split
  · exact alike_pure rfl
  · exact alike_fail (.refl _)

/-- A word stands for a value in any letter case. -/
theorem alike_valueWord {a b : String} (same : SameName a b) :
    Alike Eq (valueWord a) (valueWord b) := by
  have upper : Text.upperAscii a = Text.upperAscii b := Text.sameLetters_iff.mp same
  unfold valueWord
  dsimp only
  rw [upper]
  split
  · exact alike_pure rfl
  split
  · exact alike_pure rfl
  split
  · exact alike_pure rfl
  split
  · refine alike_then (alike_eatToken rfl) fun opens => ?_
    cases opens with
    | true => exact alike_then (alike_expectToken rfl) fun _ => alike_pure rfl
    | false => exact alike_pure rfl
  · exact alike_fail (.unsupportedValue same)

theorem alike_value (params : List Json) : Alike Eq (value params) (value params) := by
  refine alike_bind alike_advance fun t u same => ?_
  cases same with
  | none => exact alike_fail (.refl _)
  | @some t u same =>
    cases same with
    | word same => exact alike_valueWord same
    | refl =>
      cases t with
      | placeholder n => exact alike_then (alike_takeParameter params) fun v => alike_pure rfl
      | number digits long => exact alike_numberOf digits
      | text s => exact alike_pure rfl
      | word quote w =>
        cases quote with
        | none => exact alike_valueWord (Text.sameLetters_refl w)
        | some q => exact alike_fail (.refl _)
      | minus =>
        refine alike_bind alike_advance fun t u same => ?_
        cases same with
        | none => exact alike_fail (.refl _)
        | @some t u same =>
          cases same with
          | word same => exact alike_fail (.expected _ (.some (.word same)))
          | refl =>
            cases t with
            | number digits long => exact alike_numberOf ("-" ++ digits)
            | _ => exact alike_fail (.refl _)
      | _ => exact alike_fail (.refl _)

section List

variable {item : Parser α} (alike : Alike R item item)
include alike

theorem alike_commaSeparated (fuel : Nat) :
    Alike (List.Forall₂ R) (commaSeparated item fuel) (commaSeparated item fuel) := by
  induction fuel with
  | zero => exact alike_bind alike fun a b related => alike_pure (.cons related .nil)
  | succ fuel ih =>
    refine alike_bind alike fun a b related => ?_
    refine alike_then (alike_eatToken rfl) fun more => ?_
    cases more with
    | true => exact alike_bind ih fun as bs others => alike_pure (.cons related others)
    | false => exact alike_pure (.cons related .nil)

theorem alike_list : Alike (List.Forall₂ R) (list item) (list item) := by
  intro c d same
  have fuel : c.rest.length = d.rest.length := same.rest.length_eq
  show SameOutcome _ ((commaSeparated item c.rest.length).run c)
    ((commaSeparated item d.rest.length).run d)
  rw [fuel]
  exact alike_commaSeparated alike _ c d same

end List

end Parser

end Sql

end ContentStore
