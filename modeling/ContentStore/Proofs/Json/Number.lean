import ContentStore.Json.Printer
import ContentStore.Proofs.Binary64.Shortest
/-!
# Reading the text of a number

The text of a number is a *numeral*: digits, a fraction or none, an exponent or none.  A numeral is
read part by part (`readNumber?_numeral`), so its text tells its parts (`readNumeral?_text`), and
reading stops where the text stops (`readNumber?_numberText`).  An integer is read as it was written
(`reread?_integer`).  A double need not be: its text is the shortest decimal for which it is the
nearest double (`layoutNumeral_value`), but a reader that rounds at every step may find another
double for this decimal, or none.
-/

namespace ContentStore.Json

open Text (isDigit spanDigits takeDigits digitsValue wordLimit)

/-! ## Digits -/

theorem isDigit_eq (c : Char) : isDigit c = c.isDigit := by
  simp only [isDigit, Char.isDigit, Char.le_def, UInt32.le_iff_toNat_le]

theorem isDigit_iff {c : Char} : isDigit c = true ↔ 48 ≤ c.toNat ∧ c.toNat ≤ 57 := by
  simp [isDigit, Char.le_def, UInt32.le_iff_toNat_le]

theorem digitsValue_eq (digits : List Char) :
    digitsValue digits = Nat.ofDigitChars 10 digits 0 := rfl

theorem toDigits_isDigit {n : Nat} {c : Char} (h : c ∈ Nat.toDigits 10 n) : isDigit c = true := by
  rw [isDigit_eq]
  exact Nat.isDigit_of_mem_toDigits (by decide) (by decide) h

@[simp] theorem digitsValue_toDigits (n : Nat) : digitsValue (Nat.toDigits 10 n) = n :=
  Nat.ofDigitChars_ten_toDigits

/-- Zeros behind digits move them to the left. -/
theorem digitsValue_append_zeros (digits : List Char) (n : Nat) :
    digitsValue (digits ++ List.replicate n '0') = digitsValue digits * 10 ^ n := by
  rw [digitsValue_eq, Nat.ofDigitChars_append, Nat.ofDigitChars_replicate_zero, Nat.mul_comm]
  rfl

/-- Zeros in front of digits do not count. -/
theorem digitsValue_zeros_append (n : Nat) (digits : List Char) :
    digitsValue (List.replicate n '0' ++ digits) = digitsValue digits := by
  rw [digitsValue_eq, Nat.ofDigitChars_append, Nat.ofDigitChars_replicate_zero, Nat.mul_zero]
  rfl

theorem digitChar_ne_zero : ∀ n < 10, n ≠ 0 → n.digitChar ≠ '0' := by decide

/-- No number but zero begins with a zero. -/
theorem toDigits_head {n : Nat} (h : n ≠ 0) : (Nat.toDigits 10 n).head? ≠ some '0' := by
  induction n using Nat.strongRecOn with
  | ind n ih =>
    rw [Nat.toDigits_eq_if (by decide)]
    split
    · next small =>
      intro zero
      exact digitChar_ne_zero n small h (Option.some.inj zero)
    · next large =>
      rw [List.head?_append_of_ne_nil _ Nat.toDigits_ne_nil]
      exact ih (n / 10) (by omega) (by omega)

/-- The text goes on with something that is no digit, or ends. -/
def DigitsEnd (rest : List Char) : Prop := ∀ c, rest.head? = some c → isDigit c = false

theorem spanDigits_digits {digits rest : List Char} (all : ∀ c ∈ digits, isDigit c = true)
    (stop : DigitsEnd rest) : spanDigits (digits ++ rest) = (digits, rest) := by
  rw [spanDigits, List.takeWhile_append_of_pos all, List.dropWhile_append_of_pos all]
  cases rest with
  | nil => simp
  | cons c rest => simp [stop c rfl]

theorem le_ofDigitChars (digits : List Char) (n : Nat) : n ≤ Nat.ofDigitChars 10 digits n := by
  induction digits generalizing n with
  | nil => exact Nat.le_refl n
  | cons c rest ih =>
    rw [Nat.ofDigitChars_cons]
    exact Nat.le_trans (by omega) (ih _)

/-- All digits are taken where 64 bits hold the number that they write. -/
theorem takeDigits_of_lt {digits : List Char} {n : Nat}
    (fits : Nat.ofDigitChars 10 digits n < wordLimit) :
    takeDigits n digits = (Nat.ofDigitChars 10 digits n, []) := by
  induction digits generalizing n with
  | nil => rfl
  | cons c rest ih =>
    rw [Nat.ofDigitChars_cons] at fits ⊢
    rw [takeDigits]
    exact (if_pos (Nat.lt_of_le_of_lt (le_ofDigitChars _ _) fits)).trans (ih fits)

/-- What is taken from digits stays within 64 bits. -/
theorem takeDigits_lt (digits : List Char) {n : Nat} (small : n < wordLimit) :
    (takeDigits n digits).1 < wordLimit := by
  induction digits generalizing n with
  | nil => exact small
  | cons c rest ih =>
    rw [takeDigits]
    split
    · next fits => exact ih fits
    · exact small

/-! ## Numerals -/

/-- The parts of the text of a number without its sign. -/
structure Numeral where
  whole : List Char
  fraction : List Char
  exponent : Option Int

namespace Numeral

/-- A fraction behind its point. -/
def pointText : List Char → List Char
  | [] => []
  | c :: rest => '.' :: c :: rest

/-- An exponent behind its letter. -/
def powerText : Option Int → List Char
  | none => []
  | some e => 'e' :: Binary64.exponentText .always e

/-- A sign in front of an exponent, a minus or not. -/
inductive SignText : Bool → List Char → Prop
  | none : SignText false []
  | plus : SignText false ['+']
  | minus : SignText true ['-']

/-- The texts of an exponent: nothing for none, or the letter in either case, a sign or none, and at
least one digit. -/
inductive ExponentText : Option Int → List Char → Prop
  | none : ExponentText none []
  | some {letter : Char} {negative : Bool} {sign digits : List Char}
    (isLetter : letter = 'e' ∨ letter = 'E') (signed : SignText negative sign)
    (nonempty : digits ≠ []) (all : ∀ c ∈ digits, isDigit c = true) :
    ExponentText (some (if negative then -(digitsValue digits : Int) else digitsValue digits))
      (letter :: (sign ++ digits))

theorem exponentText_powerText (exponent : Option Int) :
    ExponentText exponent (powerText exponent) := by
  cases exponent with
  | none => exact .none
  | some e =>
    by_cases negative : e < 0
    · have value : e = if true then -(digitsValue (Nat.toDigits 10 e.natAbs) : Int)
          else digitsValue (Nat.toDigits 10 e.natAbs) := by
        rw [digitsValue_toDigits, if_pos rfl]
        omega
      rw [powerText, Binary64.exponentText, if_pos negative]
      nth_rewrite 1 [value]
      exact .some (.inl rfl) .minus Nat.toDigits_ne_nil fun _ => toDigits_isDigit
    · have value : e = if false then -(digitsValue (Nat.toDigits 10 e.natAbs) : Int)
          else digitsValue (Nat.toDigits 10 e.natAbs) := by
        rw [digitsValue_toDigits, if_neg Bool.false_ne_true]
        omega
      rw [powerText, Binary64.exponentText, if_neg negative]
      nth_rewrite 1 [value]
      exact .some (.inl rfl) .plus Nat.toDigits_ne_nil fun _ => toDigits_isDigit

/-- The text of a numeral. -/
def text (n : Numeral) : List Char := n.whole ++ (pointText n.fraction ++ powerText n.exponent)

/-- The digits are digits, and no needless zero stands in front. -/
structure WellFormed (n : Numeral) : Prop where
  wholeDigits : ∀ c ∈ n.whole, isDigit c = true
  fractionDigits : ∀ c ∈ n.fraction, isDigit c = true
  nonempty : n.whole ≠ []
  noNeedlessZero : n.whole.head? = some '0' → n.whole.length = 1

/-- The magnitude of the double that the numeral is read as, where it is read as a double. -/
def magnitude (n : Numeral) : Nat :=
  let (digits, power) := Token.significand n.whole n.fraction
  Binary64.magnitudeOfSignificand digits (power + n.exponent.getD 0)

/-- The magnitude of the double nearest to what the numeral writes. -/
def nearest (n : Numeral) : Nat :=
  Binary64.magnitudeOfDecimal (digitsValue (n.whole ++ n.fraction))
    (n.exponent.getD 0 - n.fraction.length)

end Numeral

/-- What may follow a number: nothing that would go on with it. -/
def NumberEnds (rest : List Char) : Prop :=
  ∀ c, rest.head? = some c → isDigit c = false ∧ c ≠ '.' ∧ c ≠ 'e' ∧ c ≠ 'E'

theorem NumberEnds.digitsEnd {rest : List Char} (h : NumberEnds rest) : DigitsEnd rest :=
  fun c hc => (h c hc).1

theorem numberEnds_nil : NumberEnds [] := nofun

theorem numberEnds_cons {c : Char} {rest : List Char} (digit : isDigit c = false) (point : c ≠ '.')
    (lower : c ≠ 'e') (upper : c ≠ 'E') : NumberEnds (c :: rest) := by
  intro d hd
  cases hd
  exact ⟨digit, point, lower, upper⟩

namespace Token

/-- A sign in front of digits is taken for itself. -/
theorem readExponent?_signed {letter : Char} (isLetter : letter = 'e' ∨ letter = 'E')
    {negative : Bool} {sign : List Char} (signed : Numeral.SignText negative sign)
    {first : Char} (digit : isDigit first = true) (cs : List Char) :
    readExponent? (letter :: (sign ++ first :: cs)) =
      if (spanDigits (first :: cs)).1.isEmpty then none
      else
        let size : Int := digitsValue (spanDigits (first :: cs)).1
        some (some (if negative then -size else size), (spanDigits (first :: cs)).2) := by
  cases signed with
  | plus => exact (readExponent?.eq_2 letter (first :: cs)).trans (if_pos isLetter)
  | minus => exact (readExponent?.eq_1 letter (first :: cs)).trans (if_pos isLetter)
  | none =>
    have noMinus : ∀ r, first :: cs = '-' :: r → False := by
      rintro r ⟨⟩
      cases digit
    have noPlus : ∀ r, first :: cs = '+' :: r → False := by
      rintro r ⟨⟩
      cases digit
    exact (readExponent?.eq_3 letter (first :: cs) noMinus noPlus).trans (if_pos isLetter)

/-- An exponent is read to its end. -/
theorem readExponent?_text {exponent : Option Int} {text rest : List Char}
    (writes : Numeral.ExponentText exponent text) (stop : NumberEnds rest) :
    readExponent? (text ++ rest) = some (exponent, rest) := by
  cases writes with
  | none =>
    cases rest with
    | nil => rfl
    | cons c rest =>
      obtain ⟨-, -, lower, upper⟩ := stop c rfl
      simp [readExponent?, lower, upper]
  | @some letter negative sign digits isLetter signed nonempty all =>
    have span : spanDigits (digits ++ rest) = (digits, rest) :=
      spanDigits_digits all stop.digitsEnd
    obtain ⟨first, others, rfl⟩ := List.exists_cons_of_ne_nil nonempty
    rw [List.cons_append, List.append_assoc, List.cons_append,
      readExponent?_signed isLetter signed (all first List.mem_cons_self), ← List.cons_append, span]
    rfl

/-- A fraction is read to its end. -/
theorem readFraction?_pointText {fraction rest : List Char}
    (all : ∀ c ∈ fraction, isDigit c = true)
    (stop : ∀ c, rest.head? = some c → isDigit c = false ∧ c ≠ '.') :
    readFraction? (Numeral.pointText fraction ++ rest) = some (fraction, rest) := by
  cases fraction with
  | nil =>
    cases rest with
    | nil => rfl
    | cons c rest =>
      have point := (stop c rfl).2
      rw [Numeral.pointText, List.nil_append, readFraction?]
      intro _ h
      exact point (List.cons.inj h).1
  | cons c fraction =>
    have digits : spanDigits (c :: fraction ++ rest) = (c :: fraction, rest) :=
      spanDigits_digits all fun c hc => (stop c hc).1
    rw [Numeral.pointText, List.cons_append, readFraction?, digits]
    rfl

/-- What follows the digits before the point is no digit. -/
theorem digitsEnd_pointText {fraction rest : List Char} (stop : DigitsEnd rest) :
    DigitsEnd (Numeral.pointText fraction ++ rest) := by
  cases fraction with
  | nil => exact stop
  | cons c fraction =>
    intro d hd
    cases hd
    decide

/-- What follows the digits behind the point is neither a digit nor a point. -/
theorem exponentText_stop {exponent : Option Int} {text rest : List Char}
    (writes : Numeral.ExponentText exponent text) (stop : NumberEnds rest) :
    ∀ c, (text ++ rest).head? = some c → isDigit c = false ∧ c ≠ '.' := by
  intro c hc
  cases writes with
  | none => exact ⟨(stop c hc).1, (stop c hc).2.1⟩
  | some isLetter signed nonempty all =>
    cases hc
    rcases isLetter with rfl | rfl <;> exact ⟨by decide, by decide⟩

/-- The numeral at the front of a text without a sign, and what follows it. -/
def readNumeral? (cs : List Char) : Option (Numeral × List Char) :=
  let (whole, afterWhole) := spanDigits cs
  if whole.isEmpty ∨ (whole.head? = some '0' ∧ 1 < whole.length) then none
  else do
    let (fraction, afterFraction) ← readFraction? afterWhole
    let (exponent, after) ← readExponent? afterFraction
    some (⟨whole, fraction, exponent⟩, after)

/-- The number that a numeral behind a sign makes. -/
def numberOf? (negative : Bool) (n : Numeral) : Option Number :=
  assembleNumber? negative n.whole n.fraction n.exponent

/-- The part of `readNumber?` behind the sign. -/
def readUnsigned? (negative : Bool) (cs : List Char) : Option (Number × List Char) := do
  let (numeral, after) ← readNumeral? cs
  let n ← numberOf? negative numeral
  some (n, after)

theorem readUnsigned?_eq (negative : Bool) (cs : List Char) :
    readUnsigned? negative cs =
      (let (whole, afterWhole) := spanDigits cs
      if whole.isEmpty ∨ (whole.head? = some '0' ∧ 1 < whole.length) then none
      else do
        let (fraction, afterFraction) ← readFraction? afterWhole
        let (exponent, after) ← readExponent? afterFraction
        let n ← assembleNumber? negative whole fraction exponent
        some (n, after)) := by
  unfold readUnsigned? readNumeral?
  dsimp only
  split
  · rfl
  · simp only [Option.bind_eq_bind, Option.bind_assoc, Option.bind_some]
    rfl

theorem readNumber?_minus (cs : List Char) : readNumber? ('-' :: cs) = readUnsigned? true cs :=
  (readUnsigned?_eq true cs).symm

theorem readNumber?_sign (negative : Bool) {first : Char} (cs : List Char) (plain : first ≠ '-') :
    readNumber? ((if negative then ['-'] else []) ++ first :: cs) =
      readUnsigned? negative (first :: cs) := by
  cases negative with
  | true => exact readNumber?_minus _
  | false =>
    rw [readUnsigned?_eq]
    unfold readNumber?
    split
    next negative unsigned sign =>
      split at sign
      · next h => exact absurd (List.cons.inj h).1 plain
      · cases sign
        rfl

/-- A numeral is read to its end, however its exponent is written. -/
theorem readNumeral?_text {numeral : Numeral} (wellFormed : numeral.WellFormed)
    {power rest : List Char} (writes : Numeral.ExponentText numeral.exponent power)
    (stop : NumberEnds rest) :
    readNumeral? (numeral.whole ++ (Numeral.pointText numeral.fraction ++ (power ++ rest))) =
      some (numeral, rest) := by
  obtain ⟨whole, fraction, exponent⟩ := numeral
  obtain ⟨wholeDigits, fractionDigits, nonempty, noNeedlessZero⟩ := wellFormed
  dsimp only at wholeDigits fractionDigits nonempty noNeedlessZero writes ⊢
  have span : spanDigits (whole ++ (Numeral.pointText fraction ++ (power ++ rest))) =
      (whole, Numeral.pointText fraction ++ (power ++ rest)) :=
    spanDigits_digits wholeDigits
      (digitsEnd_pointText fun c hc => (exponentText_stop writes stop c hc).1)
  have lead : ¬(whole.isEmpty ∨ (whole.head? = some '0' ∧ 1 < whole.length)) := by
    rintro (empty | ⟨zero, long⟩)
    · exact nonempty (List.isEmpty_iff.mp empty)
    · exact absurd (noNeedlessZero zero) (Nat.ne_of_gt long)
  rw [readNumeral?]
  simp only [span, lead, if_false, readFraction?_pointText fractionDigits
    (exponentText_stop writes stop), readExponent?_text writes stop, Option.bind_eq_bind,
    Option.bind_some]

theorem whole_eq_cons {numeral : Numeral} (wellFormed : numeral.WellFormed) :
    ∃ first others, numeral.whole = first :: others ∧ first ≠ '-' := by
  obtain ⟨first, others, whole⟩ := List.exists_cons_of_ne_nil wellFormed.nonempty
  refine ⟨first, others, whole, ?_⟩
  rintro rfl
  exact absurd (wellFormed.wholeDigits '-' (by rw [whole]; exact List.mem_cons_self)) (by decide)

/-- A numeral behind a sign is read to its end, however its exponent is written. -/
theorem readNumber?_numeral {numeral : Numeral} (wellFormed : numeral.WellFormed) (negative : Bool)
    {power rest : List Char} (writes : Numeral.ExponentText numeral.exponent power)
    (stop : NumberEnds rest) :
    readNumber? ((if negative then ['-'] else []) ++
        (numeral.whole ++ (Numeral.pointText numeral.fraction ++ (power ++ rest)))) =
      (numberOf? negative numeral).map fun n => (n, rest) := by
  have reads := readNumeral?_text wellFormed writes stop
  obtain ⟨first, others, whole, plain⟩ := whole_eq_cons wellFormed
  rw [whole, List.cons_append] at reads ⊢
  rw [readNumber?_sign negative _ plain, readUnsigned?, reads]
  simp only [Option.bind_eq_bind, Option.bind_some]
  cases numberOf? negative numeral <;> rfl

end Token

/-! ## The layout of a double -/

/-- The numeral that `Binary64.layout` writes. -/
def layoutNumeral (digits : List Char) (k : Int) : Numeral :=
  if 0 < k ∧ k ≤ 16 then
    ⟨digits.take k.toNat ++ List.replicate (k.toNat - (digits.take k.toNat).length) '0',
      if (digits.drop k.toNat).isEmpty then ['0'] else digits.drop k.toNat, none⟩
  else if -5 < k ∧ k ≤ 0 then ⟨['0'], List.replicate (-k).toNat '0' ++ digits, none⟩
  else ⟨digits.take 1, digits.drop 1, some (k - 1)⟩

theorem pointText_of_ne_nil {fraction : List Char} (h : fraction ≠ []) :
    Numeral.pointText fraction = '.' :: fraction := by
  obtain ⟨c, rest, rfl⟩ := List.exists_cons_of_ne_nil h
  rfl

theorem layout_eq_text {digits : List Char} (nonempty : digits ≠ []) (k : Int) :
    Binary64.layout .always digits k = (layoutNumeral digits k).text := by
  unfold Binary64.layout layoutNumeral Numeral.text
  dsimp only
  split
  · rw [pointText_of_ne_nil, Numeral.powerText, List.append_nil]
    split <;> simp_all
  · split
    · rw [pointText_of_ne_nil (by simp [nonempty]), Numeral.powerText, List.append_nil]
      rfl
    · obtain ⟨first, others, rfl⟩ := List.exists_cons_of_ne_nil nonempty
      cases others <;> simp [Numeral.pointText, Numeral.powerText]

theorem layoutNumeral_wellFormed {digits : List Char} (all : ∀ c ∈ digits, isDigit c = true)
    (nonempty : digits ≠ []) (lead : digits.head? ≠ some '0') (k : Int) :
    (layoutNumeral digits k).WellFormed := by
  have zeros : ∀ {n : Nat} {c : Char}, c ∈ List.replicate n '0' → isDigit c = true := by
    intro n c h
    rw [List.eq_of_mem_replicate h]
    decide
  unfold layoutNumeral
  split
  · next range =>
    have pos : k.toNat ≠ 0 := by omega
    refine ⟨?_, ?_, by simp [nonempty, pos], ?_⟩
    · intro c h
      rcases List.mem_append.mp h with h | h
      · exact all c (List.mem_of_mem_take h)
      · exact zeros h
    · intro c h
      dsimp only at h
      split at h
      · exact zeros (n := 1) h
      · exact all c (List.mem_of_mem_drop h)
    · intro zero
      obtain ⟨first, others, rfl⟩ := List.exists_cons_of_ne_nil nonempty
      obtain ⟨n, hn⟩ := Nat.exists_eq_succ_of_ne_zero pos
      rw [hn] at zero
      exact absurd zero lead
  · split
    · refine ⟨fun c h => zeros (n := 1) h, ?_, List.cons_ne_nil _ _, fun _ => rfl⟩
      intro c h
      rcases List.mem_append.mp h with h | h
      · exact zeros h
      · exact all c h
    · refine ⟨fun c h => all c (List.mem_of_mem_take h), fun c h => all c (List.mem_of_mem_drop h),
        by simp [nonempty], ?_⟩
      intro _
      obtain ⟨first, others, rfl⟩ := List.exists_cons_of_ne_nil nonempty
      rfl

/-- Every layout of the digits of `0.d₁d₂…dₙ * 10 ^ k` writes this value. -/
theorem layoutNumeral_value {digits : List Char} (nonempty : digits ≠ []) (k : Int) :
    (layoutNumeral digits k).nearest =
      Binary64.magnitudeOfDecimal (digitsValue digits) (k - digits.length) := by
  unfold layoutNumeral Numeral.nearest
  split
  · next range =>
    dsimp only
    split
    · next short =>
      have fits : digits.length ≤ k.toNat := List.drop_eq_nil_iff.mp (List.isEmpty_iff.mp short)
      have zeros : (['0'] : List Char) = List.replicate 1 '0' := rfl
      rw [List.take_of_length_le fits, List.append_assoc, zeros, List.replicate_append_replicate,
        digitsValue_append_zeros, Binary64.magnitudeOfDecimal_shift]
      congr 1
      simp only [Option.getD_none, List.length_replicate]
      omega
    · next long =>
      have more : k.toNat < digits.length := by
        rw [List.isEmpty_iff, List.drop_eq_nil_iff] at long
        omega
      have full : (digits.take k.toNat).length = k.toNat := List.length_take_of_le (by omega)
      rw [full, Nat.sub_self, List.replicate_zero, List.append_nil, List.take_append_drop]
      congr 1
      simp only [Option.getD_none, List.length_drop]
      omega
  · split
    · next range =>
      dsimp only
      have zeros : (['0'] : List Char) = List.replicate 1 '0' := rfl
      rw [zeros, digitsValue_zeros_append, digitsValue_zeros_append]
      congr 1
      simp only [Option.getD_none, List.length_append, List.length_replicate]
      omega
    · dsimp only
      have positive := List.length_pos_of_ne_nil nonempty
      rw [List.take_append_drop]
      congr 1
      simp only [Option.getD_some, List.length_drop]
      omega

/-! ## Numbers -/

/-- A negative integer is read from its digits. -/
theorem ofInt?_integer {i : Int} (inRange : InWord i) :
    Number.ofInt? i = some (.integer i inRange) := by
  rw [Number.ofInt?, dif_pos inRange]

theorem ofBinary64?_finite {x : Binary64} (finite : x.IsFinite) :
    Number.ofBinary64? x = some (.double x finite) := by
  rw [Number.ofBinary64?, dif_pos finite]

/-- The numeral of the text of a number without its sign. -/
def Number.numeral : Number → Numeral
  | .integer i _ => ⟨Nat.toDigits 10 i.natAbs, [], none⟩
  | .double x _ =>
    if x.magnitude = 0 then ⟨['0'], ['0'], none⟩
    else
      let d := Decimal.shortest x.magnitude
      let digits := Nat.toDigits 10 d.digits
      layoutNumeral digits (d.exponent + digits.length)

/-- The number is written with a minus sign. -/
def Number.isNegative : Number → Bool
  | .integer i _ => decide (i < 0)
  | .double x _ => x.negative

theorem numberText_eq_numeral (n : Number) :
    numberText n = (if n.isNegative then ['-'] else []) ++ n.numeral.text := by
  cases n with
  | integer i inRange =>
    simp only [numberText, Number.text, Number.isNegative, Number.numeral, Numeral.text,
      Numeral.pointText, Numeral.powerText, List.append_nil, decide_eq_true_eq]
  | double x finite =>
    unfold numberText Number.text Binary64.text Number.isNegative Number.numeral
    dsimp only
    congr 1
    split
    · rfl
    · rw [layout_eq_text Nat.toDigits_ne_nil]

theorem numeral_wellFormed (n : Number) : n.numeral.WellFormed := by
  cases n with
  | integer i inRange =>
    refine ⟨fun c h => toDigits_isDigit h, nofun, Nat.toDigits_ne_nil, ?_⟩
    intro zero
    by_cases h : i.natAbs = 0
    · simp [Number.numeral, h]
    · exact absurd zero (toDigits_head h)
  | double x finite =>
    unfold Number.numeral
    dsimp only
    split
    · exact ⟨List.forall_mem_singleton.mpr rfl, List.forall_mem_singleton.mpr rfl, nofun,
        fun _ => rfl⟩
    · next nonzero =>
      have digits := (Decimal.shortest_reads_back (Nat.pos_of_ne_zero nonzero) finite).1
      exact layoutNumeral_wellFormed (fun c h => toDigits_isDigit h) Nat.toDigits_ne_nil
        (toDigits_head digits) _

/-- A double is written with a point or an exponent. -/
theorem layoutNumeral_isDouble {digits : List Char} (nonempty : digits ≠ []) (k : Int) :
    ¬((layoutNumeral digits k).fraction.isEmpty ∧ (layoutNumeral digits k).exponent.isNone) := by
  unfold layoutNumeral
  split
  · dsimp only
    split <;> simp_all
  · split <;> simp [nonempty]

/-- A numeral with a point or an exponent is taken for a double. -/
theorem numberOf?_double {numeral : Numeral} (negative : Bool)
    (double : ¬(numeral.fraction.isEmpty ∧ numeral.exponent.isNone)) :
    Token.numberOf? negative numeral = Number.ofBinary64? ⟨negative, numeral.magnitude⟩ := by
  rw [Token.numberOf?, Token.assembleNumber?]
  exact if_neg fun integer => double ⟨integer.1, integer.2.1⟩

/-- Digits that 64 bits hold are the significand. -/
theorem significand_of_lt {whole : List Char} (fits : digitsValue whole < wordLimit) :
    Token.significand whole [] = (digitsValue whole, 0) := by
  rw [Token.significand, takeDigits_of_lt fits]
  rfl

/-- An integer is taken for itself. -/
theorem numberOf?_integer {i : Int} (inRange : InWord i) :
    Token.numberOf? (decide (i < 0)) ⟨Nat.toDigits 10 i.natAbs, [], none⟩ =
      some (.integer i inRange) := by
  have fits : digitsValue (Nat.toDigits 10 i.natAbs) < wordLimit := by
    obtain ⟨low, high⟩ := inRange
    rw [digitsValue_toDigits, wordLimit]
    omega
  rw [Token.numberOf?, Token.assembleNumber?, significand_of_lt fits, digitsValue_toDigits]
  by_cases negative : i < 0
  · have nonzero : i.natAbs ≠ 0 := by omega
    have value : -(i.natAbs : Int) = i := by omega
    simp only [List.isEmpty_nil, Option.isNone_none, and_self, if_true, negative, decide_true,
      nonzero, if_false, value, ofInt?_integer inRange]
  · have value : (i.natAbs : Int) = i := by omega
    simp only [List.isEmpty_nil, Option.isNone_none, and_self, if_true, negative, decide_false,
      Bool.false_eq_true, if_false, value, ofInt?_integer inRange]

/-! ## Written numbers -/

/-- The number that is read from the text of a number. -/
def Number.reread? (n : Number) : Option Number :=
  (Token.readNumber? (numberText n)).map Prod.fst

theorem readNumber?_numberText_eq (n : Number) {rest : List Char} (stop : NumberEnds rest) :
    Token.readNumber? (numberText n ++ rest) =
      (Token.numberOf? n.isNegative n.numeral).map fun m => (m, rest) := by
  rw [numberText_eq_numeral, Numeral.text, List.append_assoc, List.append_assoc, List.append_assoc]
  exact Token.readNumber?_numeral (numeral_wellFormed n) n.isNegative
    (Numeral.exponentText_powerText n.numeral.exponent) stop

theorem reread?_eq (n : Number) : n.reread? = Token.numberOf? n.isNegative n.numeral := by
  have reads := readNumber?_numberText_eq n numberEnds_nil
  rw [List.append_nil] at reads
  rw [Number.reread?, reads, Option.map_map]
  exact Option.map_id'

/-- The text of a number is read up to where it stops. -/
theorem readNumber?_numberText (n : Number) {rest : List Char} (stop : NumberEnds rest) :
    Token.readNumber? (numberText n ++ rest) = n.reread?.map fun m => (m, rest) := by
  rw [readNumber?_numberText_eq n stop, reread?_eq]

/-- An integer is read as it was written. -/
theorem reread?_integer {i : Int} (inRange : InWord i) :
    (Number.integer i inRange).reread? = some (.integer i inRange) := by
  rw [reread?_eq]
  exact numberOf?_integer inRange

/-- A double is the nearest one to what its numeral writes. -/
theorem nearest_numeral {x : Binary64} (finite : x.IsFinite) :
    (Number.double x finite).numeral.nearest = x.magnitude := by
  unfold Number.numeral
  dsimp only
  split
  · next zero =>
    rw [zero]
    rfl
  · next nonzero =>
    obtain ⟨-, reads⟩ := Decimal.shortest_reads_back (Nat.pos_of_ne_zero nonzero) finite
    rw [layoutNumeral_value Nat.toDigits_ne_nil, digitsValue_toDigits, Int.add_sub_cancel]
    exact reads

theorem numeral_isDouble {x : Binary64} (finite : x.IsFinite) :
    ¬((Number.double x finite).numeral.fraction.isEmpty ∧
      (Number.double x finite).numeral.exponent.isNone) := by
  unfold Number.numeral
  dsimp only
  split
  · decide
  · exact layoutNumeral_isDouble Nat.toDigits_ne_nil _

/-- A double is read as the double that its numeral makes. -/
theorem reread?_double {x : Binary64} (finite : x.IsFinite) :
    (Number.double x finite).reread? =
      Number.ofBinary64? ⟨x.negative, (Number.double x finite).numeral.magnitude⟩ := by
  rw [reread?_eq]
  exact numberOf?_double x.negative (numeral_isDouble finite)

/-- A digit or a minus sign begins the text of a number. -/
theorem numberText_head (n : Number) :
    ∃ c cs, numberText n = c :: cs ∧ (isDigit c = true ∨ c = '-') := by
  have nonempty := (numeral_wellFormed n).nonempty
  have digits := (numeral_wellFormed n).wholeDigits
  obtain ⟨first, others, whole⟩ := List.exists_cons_of_ne_nil nonempty
  rw [numberText_eq_numeral, Numeral.text, whole]
  cases n.isNegative with
  | true => exact ⟨'-', _, rfl, .inr rfl⟩
  | false => exact ⟨first, _, rfl, .inl (digits first (by rw [whole]; exact List.mem_cons_self))⟩

/-- The text of a number tells its sign and its numeral. -/
theorem numeral_of_numberText {n m : Number} (same : numberText n = numberText m) :
    n.isNegative = m.isNegative ∧ n.numeral = m.numeral := by
  have reads : ∀ k : Number, Token.readNumeral? k.numeral.text = some (k.numeral, []) := by
    intro k
    have read := Token.readNumeral?_text (numeral_wellFormed k)
      (Numeral.exponentText_powerText k.numeral.exponent) numberEnds_nil
    rwa [List.append_nil] at read
  rw [numberText_eq_numeral, numberText_eq_numeral] at same
  have plain : ∀ k : Number, ∃ first rest, k.numeral.text = first :: rest ∧ first ≠ '-' := by
    intro k
    obtain ⟨first, others, whole, plain⟩ := Token.whole_eq_cons (numeral_wellFormed k)
    exact ⟨first, _, by rw [Numeral.text, whole]; rfl, plain⟩
  obtain ⟨first, rest, text, digit⟩ := plain n
  obtain ⟨first', rest', text', digit'⟩ := plain m
  have sign : n.isNegative = m.isNegative := by
    rw [text, text'] at same
    cases negative : n.isNegative <;> cases negative' : m.isNegative <;>
      rw [negative, negative'] at same
    case false.true => exact absurd (List.cons.inj same).1 digit
    case true.false => exact absurd (List.cons.inj same).1.symm digit'
  rw [sign] at same
  have text := List.append_cancel_left same
  have read := reads n
  rw [text, reads m] at read
  exact ⟨sign, (Prod.ext_iff.mp (Option.some.inj read)).1.symm⟩

/-- Different numbers have different texts. -/
theorem numberText_injective {n m : Number} (same : numberText n = numberText m) : n = m := by
  obtain ⟨sign, numeral⟩ := numeral_of_numberText same
  cases n with
  | integer i inRange =>
    cases m with
    | integer j inRange' =>
      have read := numberOf?_integer inRange
      rw [show decide (i < 0) = decide (j < 0) from sign,
        show (⟨Nat.toDigits 10 i.natAbs, [], none⟩ : Numeral) = _ from numeral,
        show Number.numeral (.integer j inRange') = ⟨Nat.toDigits 10 j.natAbs, [], none⟩ from rfl,
        numberOf?_integer inRange'] at read
      exact (Option.some.inj read).symm
    | double y finite => exact absurd (numeral ▸ ⟨rfl, rfl⟩) (numeral_isDouble finite)
  | double x finite =>
    cases m with
    | integer j inRange => exact absurd (numeral ▸ ⟨rfl, rfl⟩) (numeral_isDouble finite)
    | double y finite' =>
      have magnitude : x.magnitude = y.magnitude := by
        rw [← nearest_numeral finite, numeral, nearest_numeral finite']
      obtain rfl : x = y := Binary64.mk.injEq .. |>.mpr ⟨sign, magnitude⟩
      rfl

end ContentStore.Json
