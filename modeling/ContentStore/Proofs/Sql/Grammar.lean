import Mathlib
import ContentStore.Proofs.Json.NumberText
import ContentStore.Sql.Parse
/-!
# The grammar of insertions, changes and deletions

The tokens of an insertion, a change and a deletion as formal languages: a product stands for one
thing behind another, a sum for a choice, a power for a repetition, and the largest language for any
tokens.  Nothing here says how a statement is read, only which tokens make one.
-/

namespace ContentStore.Sql.Grammar

open Computability

variable {accept : Token → Bool} {t : Token} {ts : List Token} {L M : Language Token}

/-! ## Tokens -/

/-- A single token of a kind. -/
def one (accept : Token → Bool) : Language Token := {ts | ∃ t, accept t = true ∧ ts = [t]}

/-- A single given token. -/
def mark (t : Token) : Language Token := one (· == t)

/-- A keyword, in any letter case and without quotes. -/
def keyword (name : String) : Language Token := one (·.isKeyword name)

/-- Tokens of which the first, if any, is not of a kind. -/
def other (accept : Token → Bool) : Language Token := {ts | ∀ t ∈ ts.head?, accept t = false}

/-- A word, with or without quotes. -/
def isWord : Token → Bool
  | .word _ _ => true
  | _ => false

@[simp]
theorem nil_not_mem_one_mul : [] ∉ one accept * L := by
  rintro ⟨_, ⟨t, _, rfl⟩, rest, _, empty⟩
  cases empty

@[simp]
theorem cons_mem_one_mul : t :: ts ∈ one accept * L ↔ accept t = true ∧ ts ∈ L := by
  constructor
  · rintro ⟨_, ⟨u, accepted, rfl⟩, rest, mem, same⟩
    cases same
    exact ⟨accepted, mem⟩
  · rintro ⟨accepted, mem⟩
    exact Language.append_mem_mul (a := [t]) ⟨t, accepted, rfl⟩ mem

@[simp]
theorem nil_mem_other : [] ∈ other accept := nofun

@[simp]
theorem cons_mem_other : t :: ts ∈ other accept ↔ accept t = false :=
  ⟨fun mem => mem t rfl, fun refused _ same => Option.some.inj same ▸ refused⟩

/-- What begins with a token of one kind does not begin with one of another. -/
theorem one_mul_le_other {refuse : Token → Bool}
    (differ : ∀ t, accept t = true → refuse t = false) : one accept * L ≤ other refuse := by
  rintro ts mem
  cases ts with
  | nil => exact nil_mem_other
  | cons t ts => exact cons_mem_other.mpr (differ t (cons_mem_one_mul.mp mem).1)

theorem mark_mul_le_other {u : Token} (differ : (t == u) = false) :
    mark t * L ≤ other (· == u) :=
  one_mul_le_other fun _ same => eq_of_beq same ▸ differ

/-! ## Keywords -/

theorem keyword_mul_le_other {keyword : String} {u : Token} (noWord : isWord u = false) :
    Grammar.keyword keyword * L ≤ other (· == u) := by
  refine one_mul_le_other fun t isKeyword => beq_eq_false_iff_ne.mpr ?_
  rintro rfl
  cases t with
  | word quote word => cases noWord
  | _ => cases isKeyword

/-- A clause that may follow a table. -/
theorem keyword_mul_le_stops {keyword : String} (stops : keyword ∈ Parser.aliasStops) :
    Grammar.keyword keyword * L ≤ one (·.isOneOf Parser.aliasStops) * ⊤ := by
  rintro _ ⟨_, ⟨t, isKeyword, rfl⟩, rest, _, rfl⟩
  exact cons_mem_one_mul.mpr ⟨List.any_eq_true.mpr ⟨keyword, stops, isKeyword⟩, trivial⟩

theorem isOneOf_iff {word : String} {keywords : List String} :
    (Token.word none word).isOneOf keywords = true ↔
      ∃ k ∈ keywords, Text.upperAscii word = Text.upperAscii k := by
  have one : ∀ k, (Token.word none word).isKeyword k = true ↔
      Text.upperAscii word = Text.upperAscii k := by
    intro k
    rw [Token.isKeyword, Text.sameLetters, beq_iff_eq, Text.upperAscii, Text.upperAscii,
      String.ofList_inj]
  simp only [Token.isOneOf, List.any_eq_true, one]

theorem isConstant_iff (word : String) :
    (Token.word none word).isOneOf ["TRUE", "FALSE", "NULL"] = true ↔
      Text.upperAscii word = "TRUE" ∨ Text.upperAscii word = "FALSE" ∨
        Text.upperAscii word = "NULL" := by
  simp only [isOneOf_iff, List.mem_cons, List.not_mem_nil, or_false, exists_eq_or_imp,
    exists_eq_left]
  exact Iff.rfl

theorem isPresent_iff (word : String) :
    (Token.word none word).isOneOf ["NOW", "CURRENT_TIMESTAMP"] = true ↔
      Text.upperAscii word = "NOW" ∨ Text.upperAscii word = "CURRENT_TIMESTAMP" := by
  simp only [isOneOf_iff, List.mem_cons, List.not_mem_nil, or_false, exists_eq_or_imp,
    exists_eq_left]
  exact Iff.rfl

/-- A word that may follow a table is not the word in front of an alias. -/
theorem isKeyword_as_of_stop {t : Token} (stops : t.isOneOf Parser.aliasStops = true) :
    t.isKeyword "AS" = false := by
  cases t with
  | word quote word =>
    cases quote with
    | none =>
      obtain ⟨k, mem, same⟩ := isOneOf_iff.mp stops
      have noAs : ∀ k ∈ Parser.aliasStops, Text.upperAscii k ≠ Text.upperAscii "AS" := by decide
      refine Bool.eq_false_iff.mpr fun isAs => noAs k mem ?_
      rw [← same]
      exact congrArg String.ofList (eq_of_beq isAs)
    | some q => cases stops
  | _ => cases stops

/-! ## Names -/

/-- Words with a period between two of them. -/
def name : Language Token := one isWord * (mark .period * one isWord)∗

/-- A name whose last word is accepted; the words before it do not count. -/
def nameWith (accept : String → Bool) : Language Token :=
  name ⊓ {ts | ∃ quote last, ts.getLast? = some (.word quote last) ∧ accept last = true}

/-- What is accepted behind the names of an accepted last word, and nothing behind the others. -/
theorem iSup_nameWith_mul {accept : String → Bool} :
    (⨆ n, nameWith (· == n) * (if accept n then L else 0)) = nameWith accept * L := by
  ext ts
  rw [Language.mem_iSup]
  constructor
  · rintro ⟨n, front, ⟨mem, q, last, lastWord, same⟩, back, memBack, rfl⟩
    cases eq_of_beq same
    split at memBack
    · next accepted => exact Language.append_mem_mul ⟨mem, q, _, lastWord, accepted⟩ memBack
    · exact (Language.notMem_zero back memBack).elim
  · rintro ⟨front, ⟨mem, q, last, lastWord, accepted⟩, back, memBack, rfl⟩
    refine ⟨last, Language.append_mem_mul ⟨mem, q, last, lastWord, beq_self_eq_true last⟩ ?_⟩
    rwa [if_pos accepted]

/-- A further word of a name. -/
theorem cons_mem_parts {parts : List Token} (quote : Option Char) (word : String)
    (mem : parts ∈ (mark .period * one isWord)∗) :
    .period :: .word quote word :: parts ∈ (mark .period * one isWord)∗ := by
  have part : [.period, .word quote word] ∈ mark .period * one isWord :=
    cons_mem_one_mul.mpr ⟨rfl, .word quote word, rfl, rfl⟩
  rw [← Language.one_add_self_mul_kstar_eq_kstar]
  exact .inr (Language.append_mem_mul part mem)

/-- The name of a table of the site. -/
def tableName : Language Token := nameWith fun n => (Table.lookup? n).isSome

/-- A word that begins no clause. -/
def isPlainWord : Token → Bool
  | .word quote word => !(Token.word quote word).isOneOf Parser.aliasStops
  | _ => false

/-- An alias of a table: `AS` and any token, or a word that begins no clause. -/
def tableAlias : Language Token :=
  keyword "AS" * one (fun _ => true) + one fun t => isPlainWord t && !t.isKeyword "AS"

/-- In front of a word that begins a clause there is an alias exactly if one can be skipped. -/
theorem optionalAlias_mul (begins : L ≤ one (·.isOneOf Parser.aliasStops) * ⊤) :
    (1 + tableAlias) * L = one (·.isKeyword "AS") * (one (fun _ => true) * L) +
      (one isPlainWord * L + L ⊓ other isPlainWord) ⊓ other (·.isKeyword "AS") := by
  have nonempty : [] ∉ L := fun mem => nil_not_mem_one_mul (begins mem)
  ext ts
  rw [add_mul, one_mul, tableAlias, add_mul, mul_assoc, keyword, Language.mem_add,
    Language.mem_add, Language.mem_add, Language.mem_inf, Language.mem_add, Language.mem_inf]
  cases ts with
  | nil => simp only [nil_not_mem_one_mul, nonempty, false_and, or_false]
  | cons t rest =>
    simp only [cons_mem_one_mul, cons_mem_other]
    by_cases mem : t :: rest ∈ L
    · have stops := (cons_mem_one_mul.mp (begins mem)).1
      have plain : isPlainWord t = false := by
        cases t with
        | word quote word => exact congrArg not stops
        | _ => rfl
      simp [mem, plain, isKeyword_as_of_stop stops]
    · cases isAs : t.isKeyword "AS" <;> simp [mem]

theorem optionalAlias_mul_le_other (ends : L ≤ other (· == .period)) :
    (1 + tableAlias) * L ≤ other (· == .period) := by
  rw [add_mul, one_mul, tableAlias, add_mul, mul_assoc]
  refine sup_le ends (sup_le (keyword_mul_le_other rfl) (one_mul_le_other fun t plain => ?_))
  cases t with
  | period => cases plain
  | _ => rfl

/-! ## Values -/

/-- The tokens of a parameter, a number, a text, a truth value or null.  A number together with its
sign is the text of a number of JSON. -/
inductive Literal : List Token → Prop
  | placeholder (name : String) : Literal [.placeholder name]
  | number {digits : String} (long : Bool) (writes : Json.NumberText digits.toList) :
    Literal [.number digits long]
  | negative {digits : String} (long : Bool) (writes : Json.NumberText ('-' :: digits.toList)) :
    Literal [.minus, .number digits long]
  | text (value : String) : Literal [.text value]
  | constant {t : Token} (names : t.isOneOf ["TRUE", "FALSE", "NULL"] = true) : Literal [t]

/-- A value other than the present time. -/
def literal : Language Token := {ts | Literal ts}

/-- The present time. -/
def present : Language Token :=
  one (·.isOneOf ["NOW", "CURRENT_TIMESTAMP"]) * (1 + mark .leftParen * mark .rightParen)

theorem mem_present {ts : List Token} :
    ts ∈ present ↔ ∃ t, t.isOneOf ["NOW", "CURRENT_TIMESTAMP"] = true ∧
      (ts = [t] ∨ ts = [t, .leftParen, .rightParen]) := by
  constructor
  · rintro ⟨_, ⟨t, names, rfl⟩, _, rfl | ⟨_, ⟨u, left, rfl⟩, _, ⟨v, right, rfl⟩, rfl⟩, rfl⟩
    · exact ⟨t, names, .inl rfl⟩
    · cases eq_of_beq left
      cases eq_of_beq right
      exact ⟨t, names, .inr rfl⟩
  · rintro ⟨t, names, rfl | rfl⟩
    · exact cons_mem_one_mul.mpr ⟨names, .inl rfl⟩
    · exact cons_mem_one_mul.mpr ⟨names, .inr (cons_mem_one_mul.mpr ⟨rfl, .rightParen, rfl, rfl⟩)⟩

/-- A value. -/
def value : Language Token := literal + present

/-! ## Statements -/

/-- So many items, with a comma between two of them. -/
def listed (item : Language Token) : Nat → Language Token
  | 0 => 0
  | n + 1 => item * (mark .comma * item) ^ n

theorem listed_one (item : Language Token) : listed item 1 = item := mul_one item

theorem listed_succ (item : Language Token) (n : Nat) :
    listed item (n + 2) = item * (mark .comma * listed item (n + 1)) := by
  rw [listed, listed, pow_succ', mul_assoc]

/-- An equals sign, single or double. -/
def equal : Language Token := mark .equal + mark .doubleEqual

/-- A field and the value that it is assigned. -/
def assignment : Language Token := name * equal * value

/-- The condition on the identifier. -/
def whereId : Language Token :=
  keyword "WHERE" * nameWith (Text.sameLetters · "id") * equal * literal

theorem equal_mul_le_other_period : equal * L ≤ other (· == .period) := by
  rw [equal, add_mul]
  exact sup_le (mark_mul_le_other rfl) (mark_mul_le_other rfl)

theorem whereId_mul :
    whereId * L =
      keyword "WHERE" * (nameWith (Text.sameLetters · "id") * (equal * (literal * L))) := by
  rw [whereId, mul_assoc, mul_assoc, mul_assoc]

/-- So many values of an insertion. -/
def valueClause (n : Nat) : Language Token :=
  keyword "VALUES" * mark .leftParen * listed value n * mark .rightParen

theorem valueClause_le_other {u : Token} (noWord : isWord u = false) (n : Nat) :
    valueClause n ≤ other (· == u) := by
  rw [valueClause, mul_assoc, mul_assoc]
  exact keyword_mul_le_other noWord

/-- The columns in front of the values, if any: no parenthesis begins the values themselves. -/
theorem optionalColumns_eq :
    (⨆ n, (1 + mark .leftParen * listed name n * mark .rightParen) * valueClause n) =
      mark .leftParen * (⨆ n, listed name n * (mark .rightParen * valueClause n)) +
        (⨆ n, valueClause n) ⊓ other (· == .leftParen) := by
  rw [inf_eq_left.mpr (iSup_le (valueClause_le_other rfl)), Language.mul_iSup, add_comm]
  refine Eq.trans (iSup_congr fun n => ?_) iSup_sup_eq
  rw [add_mul, one_mul, mul_assoc, mul_assoc]
  rfl

/-- An insertion behind its verb: as many values as columns, or any number without columns. -/
def insertion : Language Token :=
  keyword "INTO" * tableName *
    ⨆ n, (1 + mark .leftParen * listed name n * mark .rightParen) * valueClause n

/-- A change behind its verb; what follows its condition does not count. -/
def change : Language Token :=
  tableName * (1 + tableAlias) * keyword "SET" * (⨆ n, listed assignment n) * whereId * ⊤

/-- A deletion behind its verb; what follows its condition does not count. -/
def deletion : Language Token :=
  keyword "FROM" * tableName * (1 + tableAlias) * whereId * ⊤

/-- The verb of a statement, in any letter case. -/
def verb (upper : String) : Language Token :=
  one fun t => match t with
    | .word _ word => Text.upperAscii word == upper
    | _ => false

/-- An insertion, a change or a deletion. -/
def modification : Language Token :=
  verb "INSERT" * insertion + verb "UPDATE" * change + verb "DELETE" * deletion

theorem mem_verb {upper : String} :
    ts ∈ verb upper ↔ ∃ quote word, Text.upperAscii word = upper ∧ ts = [.word quote word] := by
  constructor
  · rintro ⟨t, same, rfl⟩
    cases t with
    | word quote word => exact ⟨quote, word, eq_of_beq same, rfl⟩
    | _ => cases same
  · rintro ⟨quote, word, rfl, rfl⟩
    exact ⟨.word quote word, beq_self_eq_true _, rfl⟩

/-- What begins with one of the verbs. -/
theorem mem_verbs :
    ts ∈ (verb "INSERT" + verb "UPDATE" + verb "DELETE") * ⊤ ↔ ∃ quote word rest,
      (Text.upperAscii word = "INSERT" ∨ Text.upperAscii word = "UPDATE" ∨
        Text.upperAscii word = "DELETE") ∧ ts = .word quote word :: rest := by
  simp only [Language.mem_mul, Language.mem_add, mem_verb]
  constructor
  · rintro ⟨_, (⟨quote, word, upper, rfl⟩ | ⟨quote, word, upper, rfl⟩) |
      ⟨quote, word, upper, rfl⟩, rest, _, rfl⟩
    · exact ⟨quote, word, rest, .inl upper, rfl⟩
    · exact ⟨quote, word, rest, .inr (.inl upper), rfl⟩
    · exact ⟨quote, word, rest, .inr (.inr upper), rfl⟩
  · rintro ⟨quote, word, rest, upper | upper | upper, rfl⟩
    · exact ⟨[.word quote word], .inl (.inl ⟨quote, word, upper, rfl⟩), rest, trivial, rfl⟩
    · exact ⟨[.word quote word], .inl (.inr ⟨quote, word, upper, rfl⟩), rest, trivial, rfl⟩
    · exact ⟨[.word quote word], .inr ⟨quote, word, upper, rfl⟩, rest, trivial, rfl⟩

/-- The verb decides which statement the tokens behind it have to make. -/
theorem cons_mem_modification {quote : Option Char} {word : String} :
    .word quote word :: ts ∈ modification ↔
      Text.upperAscii word = "INSERT" ∧ ts ∈ insertion ∨
        Text.upperAscii word = "UPDATE" ∧ ts ∈ change ∨
          Text.upperAscii word = "DELETE" ∧ ts ∈ deletion := by
  simp only [modification, verb, Language.mem_add, cons_mem_one_mul, beq_iff_eq, or_assoc]

end ContentStore.Sql.Grammar
