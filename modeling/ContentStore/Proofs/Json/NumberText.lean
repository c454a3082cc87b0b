import ContentStore.Proofs.Json.Number
/-!
# Which texts are numbers

A text is read as a number, to its end, exactly if it is a sign or none, an integer without a
needless zero in front, a fraction or none and an exponent or none, and the double that its
significand and its power of ten make is finite (`readNumber?_iff`).  An integer of 64 bits is no
exception: it is not read as a double, but its double is finite.
-/

namespace ContentStore.Json

open Text (isDigit spanDigits digitsValue wordLimit)

/-- The text of a number that is read as a finite double, or as an integer. -/
inductive NumberText : List Char → Prop
  | mk (negative : Bool) {n : Numeral} (wellFormed : n.WellFormed) {power : List Char}
    (writes : Numeral.ExponentText n.exponent power)
    (finite : n.magnitude < Binary64.infiniteMagnitude) :
    NumberText ((if negative then ['-'] else []) ++
      (n.whole ++ (Numeral.pointText n.fraction ++ power)))

/-! ## Finite values -/

/-- What 64 bits hold has a finite double. -/
theorem magnitudeOfRatio_word {n : Nat} (small : n < wordLimit) :
    Binary64.magnitudeOfRatio n 1 < Binary64.infiniteMagnitude := by
  have word : 1 * Binary64.powerOfTwo (64 : Nat) = wordLimit := by decide
  exact Binary64.magnitudeOfRatio_finite one_pos (by decide) (word ▸ small)

/-- What 64 bits hold is read as an integer, or as a double behind a minus sign. -/
theorem ofInt?_isSome {i : Int} (small : i.natAbs < wordLimit) : (Number.ofInt? i).isSome := by
  unfold Number.ofInt?
  split
  · rfl
  · split
    · rfl
    · next infinite => exact absurd (magnitudeOfRatio_word small) infinite

theorem ofBinary64?_isSome_iff (x : Binary64) : (Number.ofBinary64? x).isSome ↔ x.IsFinite := by
  unfold Number.ofBinary64?
  split
  · next finite => exact iff_of_true rfl finite
  · next infinite => exact iff_of_false Bool.false_ne_true infinite

/-- A numeral makes a number exactly if the double that it is read as is finite. -/
theorem numberOf?_isSome_iff (negative : Bool) (n : Numeral) :
    (Token.numberOf? negative n).isSome ↔ n.magnitude < Binary64.infiniteMagnitude := by
  obtain ⟨whole, fraction, exponent⟩ := n
  have small : (Token.significand whole fraction).1 < wordLimit :=
    takeDigits_lt fraction (takeDigits_lt whole (by decide))
  unfold Token.numberOf? Token.assembleNumber? Numeral.magnitude
  generalize Token.significand whole fraction = parts at small
  obtain ⟨digits, power⟩ := parts
  dsimp only at small ⊢
  split
  · next integer =>
    obtain ⟨-, noExponent, rfl⟩ := integer
    cases Option.isNone_iff_eq_none.mp noExponent
    have finite := magnitudeOfRatio_word small
    refine iff_of_true ?_ ((Binary64.magnitudeOfSignificand_zero finite).symm ▸ finite)
    split
    · split
      · rfl
      · exact ofInt?_isSome (by rwa [Int.natAbs_neg])
    · exact ofInt?_isSome small
  · exact ofBinary64?_isSome_iff _

/-! ## Reading takes a number -/

namespace Token

theorem isDigit_of_mem_spanDigits {cs : List Char} {c : Char} (mem : c ∈ (spanDigits cs).1) :
    isDigit c = true :=
  List.all_eq_true.mp List.all_takeWhile c mem

/-- What is read as a fraction is a fraction behind its point, or nothing. -/
theorem readFraction?_sound {cs fraction after : List Char}
    (reads : readFraction? cs = some (fraction, after)) :
    cs = Numeral.pointText fraction ++ after ∧ ∀ c ∈ fraction, isDigit c = true := by
  unfold readFraction? at reads
  split at reads
  · next rest =>
    have whole := Text.spanDigits_append rest
    have digits := @isDigit_of_mem_spanDigits rest
    generalize spanDigits rest = parts at reads whole digits
    obtain ⟨taken, left⟩ := parts
    dsimp only at reads
    split at reads
    · cases reads
    · next nonempty =>
      cases reads
      rw [pointText_of_ne_nil (mt List.isEmpty_iff.mpr nonempty), ← whole]
      exact ⟨rfl, fun c => digits⟩
  · cases reads
    exact ⟨rfl, nofun⟩

/-- What is read as an exponent is the text of one. -/
theorem readExponent?_sound {cs after : List Char} {exponent : Option Int}
    (reads : readExponent? cs = some (exponent, after)) :
    ∃ power, cs = power ++ after ∧ Numeral.ExponentText exponent power := by
  cases cs with
  | nil =>
    cases reads
    exact ⟨[], rfl, .none⟩
  | cons letter rest =>
    by_cases isLetter : letter = 'e' ∨ letter = 'E'
    · obtain ⟨negative, sign, body, rfl, signed, same⟩ : ∃ negative sign body,
          rest = sign ++ body ∧ Numeral.SignText negative sign ∧
          readExponent? (letter :: rest) =
            if (spanDigits body).1.isEmpty then none
            else
              let size : Int := digitsValue (spanDigits body).1
              some (some (if negative then -size else size), (spanDigits body).2) := by
        by_cases minus : ∃ r, rest = '-' :: r
        · obtain ⟨r, rfl⟩ := minus
          exact ⟨true, ['-'], r, rfl, .minus,
            (readExponent?.eq_1 letter r).trans (if_pos isLetter)⟩
        by_cases plus : ∃ r, rest = '+' :: r
        · obtain ⟨r, rfl⟩ := plus
          exact ⟨false, ['+'], r, rfl, .plus,
            (readExponent?.eq_2 letter r).trans (if_pos isLetter)⟩
        · have unsigned := readExponent?.eq_3 letter rest (fun r h => minus ⟨r, h⟩)
            fun r h => plus ⟨r, h⟩
          exact ⟨false, [], rest, rfl, .none, unsigned.trans (if_pos isLetter)⟩
      rw [same] at reads
      split at reads
      · cases reads
      · next nonempty =>
        cases reads
        refine ⟨letter :: (sign ++ (spanDigits body).1), ?_, .some isLetter signed
          (mt List.isEmpty_iff.mpr nonempty) fun c => isDigit_of_mem_spanDigits⟩
        rw [List.cons_append, List.append_assoc, Text.spanDigits_append]
    · have other : readExponent? (letter :: rest) = some (none, letter :: rest) := by
        unfold readExponent?
        exact if_neg isLetter
      rw [other] at reads
      cases reads
      exact ⟨[], rfl, .none⟩

/-- What is read as a numeral is the text of one. -/
theorem readNumeral?_sound {cs after : List Char} {n : Numeral}
    (reads : readNumeral? cs = some (n, after)) :
    ∃ power, n.WellFormed ∧ Numeral.ExponentText n.exponent power ∧
      cs = n.whole ++ (Numeral.pointText n.fraction ++ (power ++ after)) := by
  unfold readNumeral? at reads
  have split := Text.spanDigits_append cs
  have wholeDigits := @isDigit_of_mem_spanDigits cs
  generalize spanDigits cs = parts at reads split wholeDigits
  obtain ⟨whole, afterWhole⟩ := parts
  dsimp only at reads split wholeDigits
  split at reads
  · cases reads
  · next lead =>
    rw [not_or, not_and, Nat.not_lt] at lead
    obtain ⟨nonempty, noNeedlessZero⟩ := lead
    obtain ⟨⟨fraction, afterFraction⟩, readsFraction, reads⟩ := Option.bind_eq_some_iff.mp reads
    obtain ⟨⟨exponent, after⟩, readsExponent, reads⟩ := Option.bind_eq_some_iff.mp reads
    cases reads
    obtain ⟨rfl, fractionDigits⟩ := readFraction?_sound readsFraction
    obtain ⟨power, rfl, writes⟩ := readExponent?_sound readsExponent
    have nonempty : whole ≠ [] := mt List.isEmpty_iff.mpr nonempty
    refine ⟨power, ⟨fun c => wholeDigits, fractionDigits, nonempty, fun zero => ?_⟩, writes,
      split.symm⟩
    exact Nat.le_antisymm (noNeedlessZero zero) (List.length_pos_of_ne_nil nonempty)

/-- What is read as a number, to its end, is the text of one. -/
theorem readNumber?_sound {cs : List Char} {n : Number} (reads : readNumber? cs = some (n, [])) :
    NumberText cs := by
  obtain ⟨negative, unsigned, rfl, behind⟩ : ∃ (negative : Bool) (unsigned : List Char),
      cs = (if negative then ['-'] else []) ++ unsigned ∧
        readUnsigned? negative unsigned = some (n, []) := by
    cases cs with
    | nil => exact ⟨false, [], rfl, reads⟩
    | cons first rest =>
      by_cases minus : first = '-'
      · subst minus
        exact ⟨true, rest, rfl, (readNumber?_minus rest).symm.trans reads⟩
      · exact ⟨false, first :: rest, rfl, (readNumber?_sign false rest minus).symm.trans reads⟩
  obtain ⟨⟨numeral, after⟩, reads, behind⟩ := Option.bind_eq_some_iff.mp behind
  obtain ⟨number, makes, same⟩ := Option.bind_eq_some_iff.mp behind
  cases same
  obtain ⟨power, wellFormed, writes, rfl⟩ := readNumeral?_sound reads
  have finite := (numberOf?_isSome_iff negative numeral).mp (Option.isSome_of_eq_some makes)
  rw [List.append_nil]
  exact .mk negative wellFormed writes finite

end Token

/-- A text is read as a number, to its end, exactly if it is the text of one. -/
theorem readNumber?_iff (cs : List Char) :
    (∃ n, Token.readNumber? cs = some (n, [])) ↔ NumberText cs := by
  refine ⟨fun ⟨n, reads⟩ => Token.readNumber?_sound reads, ?_⟩
  rintro @⟨negative, n, wellFormed, power, writes, finite⟩
  obtain ⟨number, assembled⟩ :=
    Option.isSome_iff_exists.mp ((numberOf?_isSome_iff negative n).mpr finite)
  have reads := Token.readNumber?_numeral wellFormed negative writes numberEnds_nil
  rw [List.append_nil, assembled] at reads
  exact ⟨number, reads⟩

end ContentStore.Json
