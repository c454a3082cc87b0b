import ContentStore.Proofs.Json.Number
import ContentStore.Proofs.Sql.Rendering
import ContentStore.Sql.Scan
/-!
# Tokens that are read from their texts

A token whose text is written between blanks is read back as itself (`Token.IsRead`): a word of
letters, a number of digits, and each mark that begins no longer one.  So the texts of such tokens
with a blank between two of them are cut into the tokens again (`scan_render`).
-/

namespace ContentStore.Sql

open Scan
open Text (isDigit)

/-- What follows a token that stands by itself: nothing or a blank. -/
inductive Parted : List Char → Prop
  | atEnd : Parted []
  | blank (more : List Char) : Parted (' ' :: more)

/-- A token is read from its text, where this stands by itself. -/
def Token.IsRead (t : Token) : Prop :=
  ∀ rest, Parted rest → lexeme (t.toText.toList ++ rest) = .ok (some t, rest)

/-! ## One lexeme -/

/-- The letters that begin a literal in front of a quote. -/
def literalLetters : List Char := ['b', 'B', 'r', 'R', 'n', 'N', 'x', 'X', 'e', 'E']

/-- A character that begins neither a comment nor a text nor a literal. -/
theorem lexeme_general {c : Char} {rest : List Char} (minus : c ≠ '-') (slash : c ≠ '/')
    (quote : c ≠ '\'')
    (plain : c ∉ literalLetters ∨ rest.head? ≠ some '\'' ∧ rest.head? ≠ some '"') :
    lexeme (c :: rest) = lexeme.general (c :: rest) := by
  have other : ∀ d ∈ literalLetters, rest.head? = some '\'' ∨ rest.head? = some '"' → c ≠ d := by
    rintro d listed quoted rfl
    rcases plain with unlisted | ⟨single, double⟩
    · exact unlisted listed
    · exact quoted.elim single double
  simp only [literalLetters, List.forall_mem_cons, List.not_mem_nil, false_implies,
    implies_true, and_true] at other
  unfold lexeme
  split
  · next same => cases same
  · next same => exact absurd (List.cons.inj same).1 minus
  · next same => exact absurd (List.cons.inj same).1 slash
  · next same => exact absurd (List.cons.inj same).1 quote
  · next same =>
    obtain ⟨rfl, rfl⟩ := List.cons.inj same
    simp [other]
  · next same =>
    obtain ⟨rfl, rfl⟩ := List.cons.inj same
    simp [other]
  · rfl

/-- A blank gives no token. -/
theorem lexeme_blank (more : List Char) : lexeme (' ' :: more) = .ok (none, more) := by
  rw [lexeme_general (by decide) (by decide) (by decide) (.inl (by decide))]
  rfl

/-! ## Words -/

theorem toNat_letter {c : Char} (letter : c.isAlpha = true) : 65 ≤ c.toNat ∧ c.toNat ≤ 122 := by
  have kinds : c.isUpper = true ∨ c.isLower = true := Bool.or_eq_true_iff.mp letter
  rcases kinds with upper | lower
  · obtain ⟨first, last⟩ := of_decide_eq_true upper
    have below : c.toNat ≤ 90 := UInt32.le_iff_toNat_le.mp last
    exact ⟨UInt32.le_iff_toNat_le.mp first, below.trans (by decide)⟩
  · obtain ⟨first, last⟩ := Bool.and_eq_true_iff.mp lower
    have above : 97 ≤ c.toNat := UInt32.le_iff_toNat_le.mp (of_decide_eq_true first)
    exact ⟨Nat.le_trans (by decide) above, UInt32.le_iff_toNat_le.mp (of_decide_eq_true last)⟩

theorem isAlphabetic_letter {c : Char} (letter : c.isAlpha = true) :
    Text.isAlphabetic c = true := by
  have bounds := toNat_letter letter
  rw [Text.isAlphabetic, if_pos (by omega), letter]

theorem isDigit_letter {c : Char} (letter : c.isAlpha = true) : isDigit c = false := by
  have bounds := toNat_letter letter
  rw [Bool.eq_false_iff, Ne, Json.isDigit_iff]
  omega

/-- No operator begins with a letter. -/
theorem operator?_letter {c : Char} (letter : c.isAlpha = true) (rest : List Char) :
    operator? (c :: rest) = none := by
  have begin : ∀ p ∈ operators, p.1.toList.head?.any (!·.isAlpha) = true := by decide +kernel
  rw [operator?, List.find?_eq_none.mpr, Option.map_none]
  intro p listed fits
  obtain ⟨more, split⟩ := List.isPrefixOf_iff_prefix.mp fits
  have other := begin p listed
  rcases spelling : p.1.toList with _ | ⟨d, ds⟩
  · rw [spelling] at other
    cases other
  · rw [spelling] at other split
    obtain ⟨rfl, -⟩ := List.cons.inj split
    rw [List.head?_cons, Option.any_some, letter] at other
    cases other

theorem Parted.wordEnds {rest : List Char} (parted : Parted rest) :
    rest.takeWhile isWordPart = [] ∧ rest.dropWhile isWordPart = rest := by
  have blank : isWordPart ' ' = false := by decide
  cases parted with
  | atEnd => exact ⟨rfl, rfl⟩
  | blank more =>
    exact ⟨List.takeWhile_cons_of_neg (by simp [blank]),
      List.dropWhile_cons_of_neg (by simp [blank])⟩

/-- A word that begins with a letter is read. -/
theorem isRead_word {c : Char} {more : List Char} (letter : c.isAlpha = true)
    (parts : ∀ d ∈ more, isWordPart d = true) :
    (Token.word none (String.ofList (c :: more))).IsRead := by
  intro rest parted
  have isNot : ∀ d : Char, d.isAlpha = false → c ≠ d := by
    rintro d other rfl
    rw [letter] at other
    cases other
  have noQuote : ∀ q : Char, isWordPart q = false → q ≠ ' ' → (more ++ rest).head? ≠ some q := by
    intro q noPart noBlank first
    cases more with
    | nil =>
      cases parted with
      | atEnd => cases first
      | blank => exact noBlank (Option.some.inj first).symm
    | cons d ds =>
      have part := parts d List.mem_cons_self
      rw [Option.some.inj first, noPart] at part
      cases part
  obtain ⟨taken, left⟩ := parted.wordEnds
  rw [Token.toText, String.toList_ofList, List.cons_append,
    lexeme_general (isNot _ (by decide)) (isNot _ (by decide)) (isNot _ (by decide))
      (.inr ⟨noQuote _ (by decide) (by decide), noQuote _ (by decide) (by decide)⟩)]
  unfold lexeme.general
  dsimp only
  rw [if_neg (by simp [isNot '"' (by decide), isNot '`' (by decide)]),
    if_neg (by simp [isDigit_letter letter, isNot '.' (by decide)]), operator?_letter letter]
  dsimp only
  rw [if_neg (isNot _ (by decide)), if_neg (isNot _ (by decide)), if_neg (isNot _ (by decide)),
    if_pos (by rw [beginsWord, isAlphabetic_letter letter]; rfl), word, token]
  simp only [List.drop_succ_cons, List.drop_zero, List.take_succ_cons, List.take_zero,
    List.takeWhile_append_of_pos parts, List.dropWhile_append_of_pos parts, taken, left,
    List.append_nil, List.singleton_append]

/-- Characters of a word without quotes that begins with a letter. -/
def isBareWord : List Char → Bool
  | [] => false
  | c :: more => c.isAlpha && more.all isWordPart

theorem isRead_keyword {name : String} (bare : isBareWord name.toList = true) :
    (keyword name).IsRead := by
  rcases spelling : name.toList with _ | ⟨c, more⟩
  · rw [spelling] at bare
    cases bare
  · rw [spelling] at bare
    obtain ⟨letter, parts⟩ := Bool.and_eq_true_iff.mp bare
    obtain rfl : name = String.ofList (c :: more) := by rw [← spelling, String.ofList_toList]
    exact isRead_word letter (List.all_eq_true.mp parts)

/-! ## Numbers and marks -/

theorem Parted.digitsEnd {rest : List Char} (parted : Parted rest) : Json.DigitsEnd rest := by
  rintro c first
  cases parted with
  | atEnd => cases first
  | blank more =>
    cases first
    rfl

/-- Digits that stand by themselves are a number. -/
theorem number_digits {digits rest : List Char} (all : ∀ c ∈ digits, isDigit c = true)
    (parted : Parted rest) :
    number (digits ++ rest) = (.number (String.ofList digits) false, rest) := by
  have noPoint : digits ≠ ['.'] := by
    rintro rfl
    exact absurd (all '.' List.mem_cons_self) (by decide)
  rw [number, Json.spanDigits_digits all parted.digitsEnd]
  cases parted with
  | atEnd =>
    simp [noPoint, exponentPart]
  | blank more =>
    simp [noPoint, exponentPart]

/-- A number of digits is read. -/
theorem isRead_number {digits : List Char} (nonempty : digits ≠ [])
    (all : ∀ c ∈ digits, isDigit c = true) :
    (Token.number (String.ofList digits) false).IsRead := by
  intro rest parted
  have text : (Token.number (String.ofList digits) false).toText.toList = digits := by
    simp [Token.toText]
  obtain ⟨c, more, split⟩ := List.exists_cons_of_ne_nil nonempty
  have digit := all c (split ▸ List.mem_cons_self)
  have isNot : ∀ d : Char, isDigit d = false → c ≠ d := by
    rintro d other rfl
    rw [digit] at other
    cases other
  have unlisted : c ∉ literalLetters := fun listed => by
    have noDigits : literalLetters.all (!isDigit ·) = true := by decide
    have noDigit := List.all_eq_true.mp noDigits c listed
    rw [digit] at noDigit
    cases noDigit
  have general : lexeme.general (digits ++ rest) = token (number (digits ++ rest)) := by
    rw [split, List.cons_append, lexeme.general,
      if_neg (by simp [isNot '"' (by decide), isNot '`' (by decide)]), if_pos (.inl digit)]
  rw [number_digits all parted] at general
  rw [text]
  refine Eq.trans ?_ general
  rw [split, List.cons_append]
  exact lexeme_general (isNot _ (by decide)) (isNot _ (by decide)) (isNot _ (by decide))
    (.inl unlisted)

theorem isRead_slot : slot.IsRead := by
  rintro _ (_ | more) <;> rfl

theorem isRead_equal : Token.equal.IsRead := by
  rintro _ (_ | more) <;> rfl

theorem isRead_star : (Token.operator "*").IsRead := by
  rintro _ (_ | more) <;> rfl

/-! ## Whole statements -/

theorem tokensWithin_lexeme {fuel : Nat} {cs after : List Char} {t : Option Token}
    {tokens : List Token} (nonempty : cs ≠ []) (reads : lexeme cs = .ok (t, after))
    (others : tokensWithin fuel after = .ok tokens) :
    tokensWithin (fuel + 1) cs = .ok (t.toList ++ tokens) := by
  obtain ⟨c, rest, rfl⟩ := List.exists_cons_of_ne_nil nonempty
  rw [tokensWithin, reads]
  change (tokensWithin fuel after >>= _) = _
  rw [others]
  rfl

theorem Token.IsRead.text_ne_nil {t : Token} (read : t.IsRead) : t.toText.toList ≠ [] := by
  intro empty
  have nothing := read [] .atEnd
  rw [empty] at nothing
  cases nothing

/-- The characters of tokens with a blank in front of each of them. -/
def blanked (tokens : List Token) : List Char := tokens.flatMap fun t => ' ' :: t.toText.toList

theorem parted_blanked (tokens : List Token) : Parted (blanked tokens) := by
  cases tokens with
  | nil => exact .atEnd
  | cons t rest => exact .blank _

/-- A token and what is read behind it. -/
theorem tokensWithin_token {t : Token} (read : t.IsRead) {rest : List Char} (parted : Parted rest)
    {fuel : Nat} {tokens : List Token} (enough : (t.toText.toList ++ rest).length ≤ fuel)
    (others : ∀ left, rest.length ≤ left → tokensWithin left rest = .ok tokens) :
    tokensWithin fuel (t.toText.toList ++ rest) = .ok (t :: tokens) := by
  have nonempty : 0 < t.toText.toList.length := List.length_pos_iff.mpr read.text_ne_nil
  rw [List.length_append] at enough
  obtain ⟨left, rfl⟩ : ∃ left, fuel = left + 1 := ⟨fuel - 1, by omega⟩
  refine tokensWithin_lexeme ?_ (read rest parted) (others left (by omega))
  exact List.append_ne_nil_of_left_ne_nil read.text_ne_nil rest

theorem tokensWithin_blanked {tokens : List Token} (read : ∀ t ∈ tokens, t.IsRead) {fuel : Nat}
    (enough : (blanked tokens).length ≤ fuel) :
    tokensWithin fuel (blanked tokens) = .ok tokens := by
  induction tokens generalizing fuel with
  | nil => cases fuel <;> rfl
  | cons t rest ih =>
    obtain ⟨here, later⟩ := List.forall_mem_cons.mp read
    have split : blanked (t :: rest) = ' ' :: (t.toText.toList ++ blanked rest) := rfl
    rw [split, List.length_cons] at enough
    obtain ⟨left, rfl⟩ : ∃ left, fuel = left + 1 := ⟨fuel - 1, by omega⟩
    rw [split]
    exact tokensWithin_lexeme (List.cons_ne_nil _ _) (lexeme_blank _)
      (tokensWithin_token here (parted_blanked rest) (by omega) fun _ => ih later)

theorem toList_render (t : Token) (rest : List Token) :
    (Token.render (t :: rest)).toList = t.toText.toList ++ blanked rest := by
  rw [Token.render, String.toList_intercalate, List.map_map]
  induction rest generalizing t with
  | nil => exact List.intercalate_singleton.trans (List.append_nil _).symm
  | cons next others ih =>
    rw [List.map_cons, List.map_cons, List.intercalate_cons_cons, ← List.map_cons, ih,
      List.append_assoc]
    rfl

/-- The texts of tokens with a blank between two of them are cut into the tokens. -/
theorem scan_render {tokens : List Token} (read : ∀ t ∈ tokens, t.IsRead) :
    scan (Token.render tokens) = .ok tokens := by
  cases tokens with
  | nil => rfl
  | cons t rest =>
    obtain ⟨here, later⟩ := List.forall_mem_cons.mp read
    have cut := tokensWithin_token here (parted_blanked rest) (Nat.le_refl _)
      fun _ => tokensWithin_blanked later
    rw [← toList_render] at cut
    rw [scan]
    simp only [cut]

/-! ## Counts and tables -/

theorem isRead_countToken (n : Nat) : (countToken n).IsRead :=
  isRead_number Nat.toDigits_ne_nil fun _ => Json.toDigits_isDigit

theorem isRead_table (t : Table) : (keyword t.name).IsRead := by
  cases t <;> exact isRead_keyword (by decide +kernel)

end ContentStore.Sql
