import ContentStore.Binary64.Reading
import ContentStore.Proofs.Binary64.Value
import ContentStore.Proofs.Json.NumberText
/-!
# The numbers of texts

A text denotes a number if it is a decimal or a word for the infinity, behind a sign or none
(`ExtendedRat.ofText?_iff`).  It is read as the double nearest to that number; the word for what is
not a number denotes none, but is read (`standsFor_ofText?`).
-/

namespace ContentStore

open Text (isDigit spanDigits digitsValue)
open Json (Numeral)
open ExtendedRat (signed infinite)

/-! ## The number of a text -/

/-- The decimal of the digits before and behind a point and the text of an exponent. -/
def Decimal.ofParts? (whole fraction power : List Char) : Option Decimal :=
  if whole.isEmpty ∧ fraction.isEmpty then none
  else (Binary64.readExponent? power).map fun exponent =>
    ⟨digitsValue (whole ++ fraction), exponent - fraction.length⟩

/-- The decimal of a text of digits, a point and an exponent. -/
def Decimal.ofText? (cs : List Char) : Option Decimal :=
  match (spanDigits cs).2 with
  | '.' :: rest => ofParts? (spanDigits cs).1 (spanDigits rest).1 (spanDigits rest).2
  | rest => ofParts? (spanDigits cs).1 [] rest

namespace ExtendedRat

/-- The infinity of one of its two words. -/
def ofWord? (negative : Bool) (cs : List Char) : Option ExtendedRat :=
  let word := String.ofList (cs.map Char.toLower)
  if word = "inf" ∨ word = "infinity" then some (infinite negative) else none

/-- The number that a text behind its sign denotes. -/
def ofUnsigned? (negative : Bool) (cs : List Char) : Option ExtendedRat :=
  ((Decimal.ofText? cs).map fun d => signed negative d.value).or (ofWord? negative cs)

/-- The number that a numeric text denotes. -/
def ofText? (cs : List Char) : Option ExtendedRat :=
  match cs with
  | '-' :: rest => ofUnsigned? true rest
  | '+' :: rest => ofUnsigned? false rest
  | rest => ofUnsigned? false rest

end ExtendedRat

namespace Binary64

theorem ofParts?_map (negative : Bool) (whole fraction power : List Char) :
    ((Decimal.ofParts? whole fraction power).map fun d => ofDecimal negative d.digits d.exponent) =
      if whole.isEmpty ∧ fraction.isEmpty then none
      else (readExponent? power).bind fun exponent =>
        some (ofDecimal negative (digitsValue (whole ++ fraction))
          (exponent - fraction.length)) := by
  unfold Decimal.ofParts?
  split
  · rfl
  · cases readExponent? power <;> rfl

theorem ofDigitsText?_eq (negative : Bool) (cs : List Char) :
    ofDigitsText? negative cs =
      (Decimal.ofText? cs).map fun d => ofDecimal negative d.digits d.exponent := by
  unfold ofDigitsText?
  dsimp only
  by_cases point : ∃ rest, (spanDigits cs).2 = '.' :: rest
  · obtain ⟨rest, behind⟩ := point
    have decimal : Decimal.ofText? cs =
        Decimal.ofParts? (spanDigits cs).1 (spanDigits rest).1 (spanDigits rest).2 := by
      rw [Decimal.ofText?, behind]
      rfl
    rw [decimal, ofParts?_map, behind]
    rfl
  · have decimal : Decimal.ofText? cs =
        Decimal.ofParts? (spanDigits cs).1 [] (spanDigits cs).2 := by
      unfold Decimal.ofText?
      split
      · next behind => exact absurd ⟨_, behind⟩ point
      · rfl
    rw [decimal, ofParts?_map]
    split
    · next behind => exact absurd ⟨_, behind⟩ point
    · rfl

/-- The sign in front of a text decides how the rest of it is taken. -/
theorem ofText?_signed (cs : List Char) : ∃ negative sign unsigned,
    cs = sign ++ unsigned ∧ Numeral.SignText negative sign ∧
      ofText? cs = (ofDigitsText? negative unsigned).or (ofWord? negative unsigned) ∧
      ExtendedRat.ofText? cs = ExtendedRat.ofUnsigned? negative unsigned := by
  by_cases minus : ∃ rest, cs = '-' :: rest
  · obtain ⟨rest, rfl⟩ := minus
    exact ⟨true, ['-'], rest, rfl, .minus, rfl, rfl⟩
  by_cases plus : ∃ rest, cs = '+' :: rest
  · obtain ⟨rest, rfl⟩ := plus
    exact ⟨false, ['+'], rest, rfl, .plus, rfl, rfl⟩
  have noMinus : ∀ rest, cs = '-' :: rest → False := fun rest same => minus ⟨rest, same⟩
  have noPlus : ∀ rest, cs = '+' :: rest → False := fun rest same => plus ⟨rest, same⟩
  refine ⟨false, [], cs, rfl, .none, ?_, ExtendedRat.ofText?.eq_3 cs noMinus noPlus⟩
  unfold ofText?
  split
  next negative unsigned parts =>
    split at parts
    · exact (noMinus _ rfl).elim
    · exact (noPlus _ rfl).elim
    · cases parts
      rfl

/-- What a text is read as stands for the number that it denotes, or for zero if it denotes none. -/
theorem standsFor_ofText? (cs : List Char) :
    ((ofText? cs).getD zero).StandsFor ((ExtendedRat.ofText? cs).getD 0) := by
  obtain ⟨negative, sign, unsigned, -, -, reads, denotes⟩ := ofText?_signed cs
  rw [reads, ofDigitsText?_eq, denotes, ExtendedRat.ofUnsigned?]
  cases Decimal.ofText? unsigned with
  | some d => exact .nearest (nearest_ofDecimal negative d)
  | none =>
    rw [Option.map_none, Option.map_none, Option.none_or, Option.none_or, ofWord?,
      ExtendedRat.ofWord?]
    split
    · exact .nearest (.infinite negative)
    split
    · exact .notANumber negative
    · exact .nearest nearest_zero

end Binary64

/-! ## The grammar of numeric texts -/

namespace Decimal

/-- A text of digits, at least one, with a point among them or none, and an exponent or none. -/
inductive Writes : Decimal → List Char → Prop
  | mk {whole point fraction power : List Char} {exponent : Option Int}
    (digits : ∀ c ∈ whole ++ fraction, isDigit c = true) (nonempty : whole ++ fraction ≠ [])
    (pointed : point = ['.'] ∨ point = [] ∧ fraction = [])
    (writes : Numeral.ExponentText exponent power) :
    Writes ⟨digitsValue (whole ++ fraction), exponent.getD 0 - fraction.length⟩
      (whole ++ (point ++ (fraction ++ power)))

/-- An exponent that ends a text is read as an exponent in front of any rest is. -/
theorem readExponent?_iff {cs : List Char} {e : Int} :
    Binary64.readExponent? cs = some e ↔
      ∃ exponent, Numeral.ExponentText exponent cs ∧ exponent.getD 0 = e := by
  have letter : ∀ (negative : Bool) (digits after : List Char),
      (if digits.isEmpty = true ∨ after ≠ [] then none
        else some (if negative then -(digitsValue digits : Int) else digitsValue digits)) =
          some e ↔
      ∃ exponent, (if digits.isEmpty = true then none
        else some (some (if negative then -(digitsValue digits : Int) else digitsValue digits),
          after)) = some (exponent, []) ∧ exponent.getD 0 = e := by
    intro negative digits after
    cases digits <;> cases after <;> simp
  have same : Binary64.readExponent? cs = some e ↔
      ∃ exponent, Json.Token.readExponent? cs = some (exponent, []) ∧ exponent.getD 0 = e := by
    unfold Binary64.readExponent? Json.Token.readExponent?
    cases cs with
    | nil => simp
    | cons c rest =>
      dsimp only
      split
      · exact letter _ _ _
      · simp
  rw [same]
  refine exists_congr fun exponent => and_congr_left fun _ => Iff.intro (fun reads => ?_) ?_
  · obtain ⟨power, rfl, writes⟩ := Json.Token.readExponent?_sound reads
    rwa [List.append_nil]
  · intro writes
    have reads := Json.Token.readExponent?_text writes Json.numberEnds_nil
    rwa [List.append_nil] at reads

theorem ofParts?_iff {whole fraction power : List Char} {d : Decimal} :
    ofParts? whole fraction power = some d ↔ whole ++ fraction ≠ [] ∧
      ∃ exponent, Numeral.ExponentText exponent power ∧
        d = ⟨digitsValue (whole ++ fraction), exponent.getD 0 - fraction.length⟩ := by
  unfold ofParts?
  split
  · next empty =>
    obtain ⟨noWhole, noFraction⟩ := empty
    cases List.isEmpty_iff.mp noWhole
    cases List.isEmpty_iff.mp noFraction
    simp
  · next nonempty =>
    have some : whole ++ fraction ≠ [] := by simpa using nonempty
    rw [Option.map_eq_some_iff, and_iff_right some]
    constructor
    · rintro ⟨e, reads, rfl⟩
      obtain ⟨exponent, writes, rfl⟩ := readExponent?_iff.mp reads
      exact ⟨exponent, writes, rfl⟩
    · rintro ⟨exponent, writes, rfl⟩
      exact ⟨_, readExponent?_iff.mpr ⟨exponent, writes, rfl⟩, rfl⟩

/-- A decimal is read exactly from the texts that write it. -/
theorem ofText?_iff {cs : List Char} {d : Decimal} : ofText? cs = some d ↔ d.Writes cs := by
  constructor
  · intro reads
    have front := Text.spanDigits_append cs
    have digits := @Json.Token.isDigit_of_mem_spanDigits cs
    unfold ofText? at reads
    generalize spanDigits cs = parts at reads front digits
    obtain ⟨whole, after⟩ := parts
    subst front
    dsimp only at reads digits ⊢
    split at reads
    · next rest =>
      have back := Text.spanDigits_append rest
      have behind := @Json.Token.isDigit_of_mem_spanDigits rest
      generalize spanDigits rest = parts at reads back behind
      obtain ⟨fraction, power⟩ := parts
      subst back
      obtain ⟨nonempty, exponent, writes, rfl⟩ := ofParts?_iff.mp reads
      exact .mk (fun c mem => (List.mem_append.mp mem).elim digits behind) nonempty (.inl rfl)
        writes
    · obtain ⟨nonempty, exponent, writes, rfl⟩ := ofParts?_iff.mp reads
      exact .mk (fun c mem => digits (List.append_nil whole ▸ mem)) nonempty (.inr ⟨rfl, rfl⟩)
        writes
  · rintro @⟨whole, point, fraction, power, exponent, digits, nonempty, pointed, writes⟩
    have parts := ofParts?_iff.mpr ⟨nonempty, exponent, writes, rfl⟩
    rw [List.forall_mem_append] at digits
    have stop := Json.Token.exponentText_stop writes Json.numberEnds_nil
    rw [List.append_nil] at stop
    unfold ofText?
    rcases pointed with rfl | ⟨rfl, rfl⟩
    · have behind := Json.spanDigits_digits digits.2 fun c head => (stop c head).1
      have front : spanDigits (whole ++ '.' :: (fraction ++ power)) =
          (whole, '.' :: (fraction ++ power)) :=
        Json.spanDigits_digits digits.1 (by rintro c ⟨⟩; decide)
      rw [List.singleton_append, front]
      change ofParts? whole (spanDigits (fraction ++ power)).1
        (spanDigits (fraction ++ power)).2 = _
      rw [behind]
      exact parts
    · have front := Json.spanDigits_digits digits.1 fun c head => (stop c head).1
      rw [List.nil_append, List.nil_append, front]
      dsimp only
      split
      · exact absurd rfl (stop '.' rfl).2
      · exact parts

/-- A written decimal begins with a digit or a point. -/
theorem Writes.head {d : Decimal} {cs : List Char} (writes : d.Writes cs) :
    ∃ c, cs.head? = some c ∧ (isDigit c = true ∨ c = '.') := by
  obtain @⟨whole, point, fraction, power, exponent, digits, nonempty, pointed, -⟩ := writes
  cases whole with
  | cons c whole => exact ⟨c, rfl, .inl (digits c List.mem_cons_self)⟩
  | nil =>
    rcases pointed with rfl | ⟨rfl, rfl⟩
    · exact ⟨'.', rfl, .inr rfl⟩
    · exact absurd rfl nonempty

end Decimal

namespace ExtendedRat

/-- A numeric text of a number: a decimal or a word for the infinity, behind a sign or none. -/
inductive NumericText : List Char → ExtendedRat → Prop
  | decimal {negative : Bool} {sign cs : List Char} {d : Decimal}
    (behind : Numeral.SignText negative sign) (writes : d.Writes cs) :
    NumericText (sign ++ cs) (signed negative d.value)
  | word {negative : Bool} {sign cs : List Char} (behind : Numeral.SignText negative sign)
    (isWord : String.ofList (cs.map Char.toLower) = "inf" ∨
      String.ofList (cs.map Char.toLower) = "infinity") :
    NumericText (sign ++ cs) (infinite negative)

/-- What stands before the letters has no other case. -/
theorem toLower_eq {c : Char} (before : c.val < 'A'.val) : c.toLower = c :=
  dif_neg fun upper => absurd upper.1 (UInt32.not_le.mpr before)

theorem before_letters {c : Char} (begins : isDigit c = true ∨ c = '.') : c.val < 'A'.val := by
  rcases begins with digit | rfl
  · rw [isDigit, Bool.and_eq_true, decide_eq_true_eq, decide_eq_true_eq] at digit
    exact UInt32.lt_of_le_of_lt digit.2 (by decide)
  · decide

/-- A word for the infinity begins with its letter. -/
theorem word_head {cs : List Char} (isWord : String.ofList (cs.map Char.toLower) = "inf" ∨
    String.ofList (cs.map Char.toLower) = "infinity") :
    ∃ c, cs.head? = some c ∧ ¬c.val < 'A'.val := by
  have letters : cs.map Char.toLower = "inf".toList ∨ cs.map Char.toLower = "infinity".toList :=
    isWord.imp (fun h => String.ofList_injective h) fun h => String.ofList_injective h
  cases cs with
  | nil => rcases letters with h | h <;> cases h
  | cons c cs =>
    have lower : c.toLower = 'i' := by
      rcases letters with h | h <;> exact (List.cons.inj h).1
    refine ⟨c, rfl, fun before => ?_⟩
    rw [toLower_eq before] at lower
    subst lower
    exact absurd before (by decide)

/-- A sign is taken off where the text behind it begins with none. -/
theorem ofText?_sign {negative : Bool} {sign cs : List Char}
    (behind : Numeral.SignText negative sign)
    (plain : ∀ c, cs.head? = some c → c ≠ '-' ∧ c ≠ '+') :
    ofText? (sign ++ cs) = ofUnsigned? negative cs := by
  cases behind with
  | plus => rfl
  | minus => rfl
  | none =>
    refine ofText?.eq_3 cs ?_ ?_
    · rintro rest rfl
      exact (plain _ rfl).1 rfl
    · rintro rest rfl
      exact (plain _ rfl).2 rfl

/-- The number of a text is found exactly if it is a numeric text of the number. -/
theorem ofText?_iff {cs : List Char} {v : ExtendedRat} :
    ofText? cs = some v ↔ NumericText cs v := by
  constructor
  · intro denotes
    obtain ⟨negative, sign, unsigned, rfl, behind, -, same⟩ := Binary64.ofText?_signed cs
    rw [same, ofUnsigned?] at denotes
    cases digits : Decimal.ofText? unsigned with
    | some d =>
      rw [digits] at denotes
      cases denotes
      exact .decimal behind (Decimal.ofText?_iff.mp digits)
    | none =>
      rw [digits, Option.map_none, Option.none_or, ofWord?] at denotes
      split at denotes
      · next isWord =>
        cases denotes
        exact .word behind isWord
      · cases denotes
  · intro numeric
    cases numeric with
    | @decimal negative sign cs d behind writes =>
      obtain ⟨c, head, begins⟩ := writes.head
      have plain : ∀ c, cs.head? = some c → c ≠ '-' ∧ c ≠ '+' := by
        intro c' head'
        cases head.symm.trans head'
        rcases begins with digit | rfl
        · constructor <;> (rintro rfl; cases digit)
        · decide
      rw [ofText?_sign behind plain, ofUnsigned?, Decimal.ofText?_iff.mpr writes]
      rfl
    | @word negative sign cs behind isWord =>
      obtain ⟨c, head, letter⟩ := word_head isWord
      have plain : ∀ c, cs.head? = some c → c ≠ '-' ∧ c ≠ '+' := by
        intro c' head'
        cases head.symm.trans head'
        constructor <;> (rintro rfl; exact letter (by decide))
      have noDigits : Decimal.ofText? cs = none := by
        refine Option.eq_none_iff_forall_ne_some.mpr fun d digits => ?_
        obtain ⟨c', head', begins⟩ := (Decimal.ofText?_iff.mp digits).head
        cases head.symm.trans head'
        exact letter (before_letters begins)
      rw [ofText?_sign behind plain, ofUnsigned?, noDigits, Option.map_none, Option.none_or,
        ofWord?]
      exact if_pos isWord

end ExtendedRat

end ContentStore
