import ContentStore.Text.Lowercase
import Mathlib.Data.List.Infix
/-!
# The lower case of a part of a text

A part of a text has in lower case the form that it has alone, but for its capital sigmas: each of
them becomes a final sigma where it ends a word (`EndsWord`), and for that its neighbours count that
stand outside the part.  So the part keeps its form exactly if its sigmas end words in the text
where they do in the part alone (`lowerPart_eq_iff`).  There are neighbours that change the form
exactly if the part is `Exposed`: then one of its sigmas has too little on one side within the part
to be settled (`exposed_iff`).
-/

namespace ContentStore.Text

/-! ## Runs of characters -/

/-- A text holds another one exactly if this is a run of its characters. -/
theorem holds_iff {needle cs : List Char} : holds needle cs = true ↔ needle <:+: cs := by
  induction cs with
  | nil => rw [holds, List.isEmpty_iff, List.infix_nil]
  | cons c rest ih =>
    rw [holds, Bool.or_eq_true, List.isPrefixOf_iff_prefix, ih, List.infix_cons_iff]

theorem meetsCased_cons (c : Char) (cs : List Char) :
    meetsCased (c :: cs) = if isCaseIgnorable c then meetsCased cs else isCased c := by
  unfold meetsCased
  rw [List.dropWhile_cons]
  cases isCaseIgnorable c <;> rfl

/-- What the casing ignores is passed over, and the first other character decides. -/
theorem meetsCased_append (cs more : List Char) :
    meetsCased (cs ++ more) =
      if cs.all isCaseIgnorable then meetsCased more else meetsCased cs := by
  induction cs with
  | nil => rfl
  | cons c rest ih =>
    rw [List.cons_append, meetsCased_cons, meetsCased_cons, ih, List.all_cons]
    cases isCaseIgnorable c <;> rfl

theorem meetsCased_ignorable {cs : List Char} (all : cs.all isCaseIgnorable = true) :
    meetsCased cs = false := by
  rw [← List.append_nil cs, meetsCased_append, if_pos all]
  rfl

/-! ## Parts of a text -/

/-- A capital sigma between these characters is at the end of a word. -/
def EndsWord (front back : List Char) : Prop :=
  meetsCased front.reverse = true ∧ meetsCased back = false

instance (front back : List Char) : Decidable (EndsWord front back) :=
  inferInstanceAs (Decidable (_ ∧ _))

/-- The lower case of a character between those in front of it and those behind it. -/
def lowerBetween (front : List Char) (c : Char) (back : List Char) : List Char :=
  if c = '\u0130' then ['i', '\u0307']
  else if c = '\u03a3' then [if EndsWord front back then '\u03c2' else '\u03c3']
  else [lowerChar c]

/-- The lower case of the part of a text between what stands in front of it and what stands behind
it. -/
def lowerPart (front : List Char) : List Char → List Char → List Char
  | [], _ => []
  | c :: rest, back => lowerBetween front c (rest ++ back) ++ lowerPart (front ++ [c]) rest back

theorem lowerAfter_cons (before rest : List Char) (c : Char) :
    lowerAfter before (c :: rest) =
      lowerBetween before.reverse c rest ++ lowerAfter (c :: before) rest := by
  have final : EndsWord before.reverse rest ↔ (meetsCased before && !meetsCased rest) = true := by
    rw [EndsWord, List.reverse_reverse, Bool.and_eq_true, Bool.not_eq_true']
  rw [lowerAfter, lowerBetween]
  simp only [final]

/-- The lower case of a text is that of its parts. -/
theorem lowerAfter_append (front cs back : List Char) :
    lowerAfter front.reverse (cs ++ back) =
      lowerPart front cs back ++ lowerAfter (front ++ cs).reverse back := by
  induction cs generalizing front with
  | nil => rw [List.nil_append, List.append_nil, lowerPart, List.nil_append]
  | cons c rest ih =>
    have next : c :: front.reverse = (front ++ [c]).reverse := by
      rw [List.reverse_append, List.reverse_singleton, List.singleton_append]
    rw [List.cons_append, lowerAfter_cons, List.reverse_reverse, next, ih, lowerPart,
      List.append_assoc, List.append_assoc, List.singleton_append]

theorem lower_eq_lowerPart (cs : List Char) : lower cs = lowerPart [] cs [] := by
  have whole := lowerAfter_append [] cs []
  rwa [List.append_nil, lowerAfter, List.append_nil] at whole

theorem lower_append (front cs back : List Char) :
    lower (front ++ cs ++ back) =
      lowerPart [] front (cs ++ back) ++ lowerPart front cs back ++
        lowerAfter (front ++ cs).reverse back := by
  have first := lowerAfter_append [] front (cs ++ back)
  rw [List.nil_append, lowerAfter_append front cs back] at first
  rw [List.append_assoc, List.append_assoc]
  exact first

theorem length_lowerBetween (front back front' back' : List Char) (c : Char) :
    (lowerBetween front c back).length = (lowerBetween front' c back').length := by
  unfold lowerBetween
  split
  · rfl
  split <;> rfl

theorem length_lowerPart (cs front back front' back' : List Char) :
    (lowerPart front cs back).length = (lowerPart front' cs back').length := by
  induction cs generalizing front front' with
  | nil => rfl
  | cons c rest ih =>
    rw [lowerPart, lowerPart, List.length_append, List.length_append,
      length_lowerBetween front _ front' (rest ++ back'), ih]

/-- Only a capital sigma looks at its neighbours. -/
theorem lowerBetween_eq_iff (front back front' back' : List Char) (c : Char) :
    lowerBetween front c back = lowerBetween front' c back' ↔
      (c = '\u03a3' → (EndsWord front back ↔ EndsWord front' back')) := by
  by_cases sigma : c = '\u03a3'
  · subst sigma
    have forms : ∀ front back, lowerBetween front '\u03a3' back =
        [if EndsWord front back then '\u03c2' else '\u03c3'] := fun _ _ => rfl
    rw [forms, forms]
    by_cases here : EndsWord front back <;> by_cases there : EndsWord front' back' <;>
      simp [here, there]
  · refine iff_of_true ?_ fun same => absurd same sigma
    unfold lowerBetween
    rw [if_neg sigma, if_neg sigma]

/-- A part has the same lower case in two texts exactly if each of its capital sigmas ends a word in
both or in neither. -/
theorem lowerPart_eq_iff {cs front back front' back' : List Char} :
    lowerPart front cs back = lowerPart front' cs back' ↔
      ∀ a b, cs = a ++ '\u03a3' :: b →
        (EndsWord (front ++ a) (b ++ back) ↔ EndsWord (front' ++ a) (b ++ back')) := by
  induction cs generalizing front front' with
  | nil => exact iff_of_true rfl fun a b same => absurd same.symm (by simp)
  | cons c rest ih =>
    have heads := length_lowerBetween front (rest ++ back) front' (rest ++ back') c
    rw [lowerPart, lowerPart]
    constructor
    · intro same a b split
      obtain ⟨head, tail⟩ := List.append_inj same heads
      rcases List.cons_eq_append_iff.mp split with ⟨rfl, sigma⟩ | ⟨a, rfl, inside⟩
      · obtain ⟨rfl, rfl⟩ := List.cons.inj sigma
        rw [List.append_nil, List.append_nil]
        exact (lowerBetween_eq_iff _ _ _ _ _).mp head rfl
      · have later := ih.mp tail a b inside
        rwa [List.append_assoc, List.append_assoc] at later
    · intro agree
      have head := (lowerBetween_eq_iff front (rest ++ back) front' (rest ++ back') c).mpr
        fun sigma => by
          have first := agree [] rest (sigma ▸ rfl)
          rwa [List.append_nil, List.append_nil] at first
      have tail : lowerPart (front ++ [c]) rest back = lowerPart (front' ++ [c]) rest back' :=
        ih.mpr fun a b inside => by
          rw [List.append_assoc, List.append_assoc]
          exact agree (c :: a) b (inside ▸ rfl)
      rw [head, tail]

/-! ## Terms and the texts around them -/

/-- Each capital sigma of a term ends a word in the text around the term exactly if it does in the
term alone. -/
def Steady (front term back : List Char) : Prop :=
  ∀ a b, term = a ++ '\u03a3' :: b → (EndsWord (front ++ a) (b ++ back) ↔ EndsWord a b)

/-- The text around a term can change the lower case of the term: a capital sigma ends the last word
of the term with nothing behind it that counts, or stands where no letter of its word is in front of
it and none behind. -/
def Exposed (term : List Char) : Prop :=
  ∃ a b, term = a ++ '\u03a3' :: b ∧
    (meetsCased a.reverse = true ∧ b.all isCaseIgnorable = true ∨
      a.all isCaseIgnorable = true ∧ meetsCased b = false)

theorem lowerPart_eq_lower_iff {front term back : List Char} :
    lowerPart front term back = lower term ↔ Steady front term back := by
  rw [lower_eq_lowerPart, lowerPart_eq_iff, Steady]
  simp only [List.nil_append, List.append_nil]

/-- Where a term stands steady in a text, its lower case stands in that of the text. -/
theorem Steady.isInfix {front term back : List Char} (steady : Steady front term back) :
    lower term <:+: lower (front ++ term ++ back) := by
  rw [lower_append, lowerPart_eq_lower_iff.mpr steady]
  exact ⟨_, _, rfl⟩

/-- A term that is not exposed stands steady in every text. -/
theorem steady_of_not_exposed {term : List Char} (settled : ¬Exposed term)
    (front back : List Char) : Steady front term back := by
  intro a b split
  have notBehind : meetsCased a.reverse = true → b.all isCaseIgnorable = false := fun cased =>
    Bool.eq_false_iff.mpr fun all => settled ⟨a, b, split, .inl ⟨cased, all⟩⟩
  have casedBehind : a.all isCaseIgnorable = true → meetsCased b = true := fun all =>
    Bool.not_eq_false _ ▸ fun notCased => settled ⟨a, b, split, .inr ⟨all, notCased⟩⟩
  unfold EndsWord
  rw [List.reverse_append, meetsCased_append, meetsCased_append, List.all_reverse]
  cases ignored : a.all isCaseIgnorable with
  | true =>
    have cased := casedBehind ignored
    have decides : b.all isCaseIgnorable = false :=
      Bool.eq_false_iff.mpr fun all => by rw [meetsCased_ignorable all] at cased; cases cased
    simp [decides, cased]
  | false =>
    cases cased : meetsCased a.reverse with
    | false => simp
    | true => simp [notBehind cased]

/-- A run of the characters of a text with one character more that does not end with it is a run of
the text. -/
theorem eq_of_infix_concat {cs text : List Char} {x : Char} (runs : cs <:+: text ++ [x])
    (last : cs.getLast? ≠ some x) (same : text.length = cs.length) : text = cs := by
  rcases List.infix_concat_iff.mp runs with ends | inside
  · rcases List.suffix_concat_iff.mp ends with rfl | ⟨front, rfl, -⟩
    · exact List.eq_nil_of_length_eq_zero same
    · exact absurd List.getLast?_concat last
  · exact (inside.eq_of_length same.symm).symm

theorem eq_of_infix_cons {cs text : List Char} {x : Char} (runs : cs <:+: x :: text)
    (first : cs.head? ≠ some x) (same : text.length = cs.length) : text = cs := by
  rcases List.infix_cons_iff.mp runs with begins | inside
  · rcases List.prefix_cons_iff.mp begins with rfl | ⟨back, rfl, -⟩
    · exact List.eq_nil_of_length_eq_zero same
    · exact absurd rfl first
  · exact (inside.eq_of_length same.symm).symm

/-- A letter that is its own lower case and is not a given character. -/
theorem exists_other_letter (c : Option Char) :
    ∃ x, c ≠ some x ∧ isCaseIgnorable x = false ∧ isCased x = true ∧
      ∀ front back, lowerBetween front x back = [x] := by
  by_cases same : c = some 'a'
  · exact ⟨'b', by rw [same]; decide, by decide, by decide, fun _ _ => rfl⟩
  · exact ⟨'a', same, by decide, by decide, fun _ _ => rfl⟩

/-- A letter behind a term takes a sigma, behind which nothing else counts, from the end of its
word. -/
theorem exists_lost_behind {term a b : List Char} (split : term = a ++ '\u03a3' :: b)
    (cased : meetsCased a.reverse = true) (ignored : b.all isCaseIgnorable = true) :
    ∃ x, ¬lower term <:+: lower (term ++ [x]) := by
  obtain ⟨x, last, notIgnored, letter, own⟩ := exists_other_letter (lower term).getLast?
  refine ⟨x, fun runs => ?_⟩
  have text : lower (term ++ [x]) = lowerPart [] term [x] ++ [x] := by
    have parts := lowerAfter_append [] term [x]
    rwa [lowerAfter_cons, own, lowerAfter] at parts
  have same : (lowerPart [] term [x]).length = (lower term).length := by
    rw [lower_eq_lowerPart, length_lowerPart]
  rw [text] at runs
  have steady := lowerPart_eq_lower_iff.mp (eq_of_infix_concat runs last same) a b split
  have alone : EndsWord a b := ⟨cased, meetsCased_ignorable ignored⟩
  have still := (steady.mpr alone).2
  rw [meetsCased_append, if_pos ignored, meetsCased_cons, notIgnored, letter] at still
  cases still

/-- A letter in front of a term makes a sigma, in front of which nothing else counts, the end of a
word. -/
theorem exists_lost_in_front {term a b : List Char} (split : term = a ++ '\u03a3' :: b)
    (ignored : a.all isCaseIgnorable = true) (notCased : meetsCased b = false) :
    ∃ x, ¬lower term <:+: lower (x :: term) := by
  obtain ⟨x, first, notIgnored, letter, own⟩ := exists_other_letter (lower term).head?
  refine ⟨x, fun runs => ?_⟩
  have text : lower (x :: term) = x :: lowerPart [x] term [] := by
    have parts := lower_append [x] term []
    rwa [List.append_nil, List.append_nil, lowerAfter, List.append_nil, lowerPart, lowerPart, own]
      at parts
  have same : (lowerPart [x] term []).length = (lower term).length := by
    rw [lower_eq_lowerPart, length_lowerPart]
  rw [text] at runs
  have steady := lowerPart_eq_lower_iff.mp (eq_of_infix_cons runs first same) a b split
  have ends : EndsWord ([x] ++ a) (b ++ []) := by
    refine ⟨?_, by rwa [List.append_nil]⟩
    rw [List.reverse_append, meetsCased_append, List.all_reverse, if_pos ignored]
    rw [List.reverse_singleton, meetsCased_cons, notIgnored, letter]
    rfl
  have alone := (steady.mp ends).1
  rw [meetsCased_ignorable (by rwa [List.all_reverse])] at alone
  cases alone

/-- A term is exposed exactly if it stands in a text whose lower case does not hold that of the
term. -/
theorem exposed_iff {term : List Char} :
    Exposed term ↔ ∃ text, term <:+: text ∧ ¬lower term <:+: lower text := by
  constructor
  · rintro ⟨a, b, split, ⟨cased, ignored⟩ | ⟨ignored, notCased⟩⟩
    · obtain ⟨x, lost⟩ := exists_lost_behind split cased ignored
      exact ⟨_, ⟨[], [x], rfl⟩, lost⟩
    · obtain ⟨x, lost⟩ := exists_lost_in_front split ignored notCased
      exact ⟨_, ⟨[x], [], List.append_nil _⟩, lost⟩
  · rintro ⟨_, ⟨front, back, rfl⟩, lost⟩
    by_contra settled
    exact lost (steady_of_not_exposed settled front back).isInfix

end ContentStore.Text
