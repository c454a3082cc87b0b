import ContentStore.Timestamp.Basic
import ContentStore.Proofs.Json.Number
import ContentStore.Proofs.Timestamp.Calendar
/-!
# Stamps that are written and read

The stamp of an instant of the years 0 to 9999 is read as that instant, cut to the millisecond
(`ofText?_stamp`), leap seconds included.  What is read from any text is an instant of the calendar
(`ofText?_isValid`).  As texts, stamps have the order of their instants (`stamp_lt`).
-/

namespace ContentStore.Instant

open Text (isDigit digitsValue)

/-- The instant is one of the calendar: a leap second follows the last second of a minute. -/
structure IsValid (t : Instant) : Prop where
  nano_lt : t.nano < 2000000000
  leap : 1000000000 ≤ t.nano → t.second % 60 = 59

/-- The year of an instant. -/
def year (t : Instant) : Int := (Date.ofNumber (t.second / 86400)).year

/-- The instant without the part of a millisecond. -/
def toMillisecond (t : Instant) : Instant := ⟨t.second, t.nano / 1000000 * 1000000⟩

/-- Of the day, a leap second is the last second of a minute. -/
theorem IsValid.leap_cases {t : Instant} (valid : t.IsValid) :
    t.nano / 1000000000 = 0 ∨
      t.nano / 1000000000 = 1 ∧ (t.second % 86400).toNat % 60 = 59 := by
  obtain ⟨nano_lt, leap⟩ := valid
  by_cases isLeap : 1000000000 ≤ t.nano
  · have minute := leap isLeap
    exact .inr ⟨by omega, by omega⟩
  · exact .inl (by omega)

theorem before_iff {a b : Instant} : a.before b = true ↔
    a.second < b.second ∨ a.second = b.second ∧ a.nano < b.nano := by
  simp [before]

theorem year_lt_iff {t : Instant} {year : Int} :
    t.year < year ↔ t.second < (Date.daysBeforeYear year - Date.epochDays) * 86400 := by
  rw [Instant.year, Date.year_lt_iff]
  omega

/-! ## Digits in a fixed width -/

theorem padded_length (width : Nat) {n : Nat} (nonempty : 0 < width) (fits : n < 10 ^ width) :
    (padded width n).length = width := by
  have short := (Nat.length_toDigits_le_iff (by decide) nonempty).mpr fits
  rw [padded, List.length_append, List.length_replicate]
  omega

theorem padded_isDigit {width n : Nat} {c : Char} (mem : c ∈ padded width n) :
    isDigit c = true := by
  rcases List.mem_append.mp mem with zero | digit
  · rw [List.eq_of_mem_replicate zero]
    rfl
  · exact Json.toDigits_isDigit digit

theorem digitsValue_padded (width n : Nat) : digitsValue (padded width n) = n := by
  rw [padded, Json.digitsValue_zeros_append, Json.digitsValue_toDigits]

theorem twoDigits?_padded {n : Nat} (fits : n < 100) (rest : List Char) :
    twoDigits? (padded 2 n ++ rest) = some (n, rest) := by
  have length := padded_length 2 (by decide) fits
  have digits : ∀ c ∈ padded 2 n, isDigit c = true := fun c => padded_isDigit
  have value := digitsValue_padded 2 n
  obtain ⟨a, b, two⟩ := List.length_eq_two.mp length
  rw [two] at digits value ⊢
  simp [twoDigits?, digits, value]

theorem fourDigits?_padded {n : Nat} (fits : n < 10000) (rest : List Char) :
    fourDigits? (padded 4 n ++ rest) = some (n, rest) := by
  have length := padded_length 4 (by decide) fits
  have digits : ∀ c ∈ padded 4 n, isDigit c = true := fun c => padded_isDigit
  have value := digitsValue_padded 4 n
  obtain ⟨a, b, c, d, four⟩ := List.length_eq_four.mp length
  rw [four] at digits value ⊢
  simp [fourDigits?, digits, value]

/-- Three digits behind the point are milliseconds. -/
theorem fraction?_padded {milli : Nat} (fits : milli < 1000) {rest : List Char}
    (stop : Json.DigitsEnd rest) :
    fraction? ('.' :: (padded 3 milli ++ rest)) = some (milli * 1000000, rest) := by
  have length := padded_length 3 (by decide) fits
  have nanos : nanosOfFraction (padded 3 milli) = milli * 1000000 := by
    have zeros : (padded 3 milli ++ List.replicate 9 '0').take 9 =
        padded 3 milli ++ List.replicate 6 '0' := by
      rw [List.take_append, length]
      simp [length]
    rw [nanosOfFraction, zeros, Json.digitsValue_append_zeros, digitsValue_padded]
    rfl
  have nonempty : (padded 3 milli).isEmpty = false := by
    cases digits : padded 3 milli with
    | nil => rw [digits] at length; cases length
    | cons c rest => rfl
  rw [fraction?]
  simp only [Json.spanDigits_digits (fun c => padded_isDigit) stop, nonempty, nanos]
  rfl

theorem mark?_cons (c : Char) (rest : List Char) : mark? c (c :: rest) = some rest := if_pos rfl

/-! ## Reading what has been written -/

theorem yearText_eq {year : Int} (first : 0 ≤ year) (last : year ≤ 9999) :
    yearText year = padded 4 year.toNat :=
  if_pos ⟨first, last⟩

theorem date?_text {d : Date} (valid : d.IsValid) (first : 0 ≤ d.year) (last : d.year ≤ 9999)
    (rest : List Char) :
    date? (yearText d.year ++ '-' :: (padded 2 d.month ++ '-' :: (padded 2 d.day ++ rest))) =
      some (d, rest) := by
  obtain ⟨month, day⟩ := valid.twoDigits
  have year : (d.year.toNat : Int) = d.year := Int.toNat_of_nonneg first
  rw [yearText_eq first last, date?, fourDigits?_padded (by omega)]
  simp only [Option.bind_eq_bind, Option.bind_some, mark?_cons, twoDigits?_padded
    month, twoDigits?_padded day, year]
  exact if_pos valid

/-- The seconds of a day and of a leap second are read as they are written. -/
theorem timeOfDay?_text {second leap milli : Nat} (inDay : second < 86400)
    (inLeap : leap = 0 ∨ leap = 1 ∧ second % 60 = 59) (inSecond : milli < 1000) {rest : List Char}
    (stop : Json.DigitsEnd rest) :
    timeOfDay? (padded 2 (second / 3600) ++ ':' :: (padded 2 (second / 60 % 60) ++
      ':' :: (padded 2 (second % 60 + leap) ++ '.' :: (padded 3 milli ++ rest)))) =
      some (second, leap * 1000000000 + milli * 1000000, rest) := by
  rw [timeOfDay?, twoDigits?_padded (by omega)]
  simp only [Option.bind_eq_bind, Option.bind_some, mark?_cons,
    twoDigits?_padded (show second / 60 % 60 < 100 by omega),
    twoDigits?_padded (show second % 60 + leap < 100 by omega), fraction?_padded inSecond stop]
  rw [if_pos (by omega)]
  split
  · next isLeap =>
    have whole : second / 3600 * 3600 + second / 60 % 60 * 60 + 59 = second := by omega
    have one : leap = 1 := by omega
    rw [whole, one]
  · next noLeap =>
    have whole : second / 3600 * 3600 + second / 60 % 60 * 60 + (second % 60 + leap) = second := by
      omega
    have zero : leap = 0 := by omega
    rw [whole, zero]
    simp

/-- A stamp is read as its instant, cut to the millisecond. -/
theorem ofText?_stamp {t : Instant} (valid : t.IsValid) (first : 0 ≤ t.year)
    (last : t.year ≤ 9999) : ofText? t.stamp = some t.toMillisecond := by
  let n := t.second / 86400
  let second := (t.second % 86400).toNat
  have whole : (Date.number (Date.ofNumber n)) * 86400 + (second : Int) - 0 = t.second := by
    rw [Date.number_ofNumber]
    omega
  have inLeap : t.nano / 1000000000 = 0 ∨ t.nano / 1000000000 = 1 ∧ second % 60 = 59 :=
    valid.leap_cases
  have nanos : t.nano / 1000000000 * 1000000000 + t.nano % 1000000000 / 1000000 * 1000000 =
      t.nano / 1000000 * 1000000 := by omega
  rw [ofText?, stamp, String.toList_ofList, text]
  simp only [List.append_assoc, List.cons_append]
  rw [date?_text (Date.ofNumber_isValid n) first last]
  simp only [Option.bind_eq_bind, Option.bind_some, separator?]
  have stop : Json.DigitsEnd ['Z'] := by
    rintro c ⟨⟩
    rfl
  rw [timeOfDay?_text (by omega) inLeap (by omega) stop]
  simp only [Option.bind_some, offset?]
  rw [toMillisecond, nanos, whole]

/-- From the year 10000 on a stamp begins with a sign, and is read as no instant. -/
theorem ofText?_stamp_late {t : Instant} (late : 9999 < t.year) : ofText? t.stamp = none := by
  have sign : yearText t.year = '+' :: padded 4 t.year.natAbs := by
    rw [yearText, if_neg (by omega), if_neg (by omega)]
  have noDigits : ∀ rest, fourDigits? ('+' :: rest) = none := by
    intro rest
    unfold fourDigits?
    split
    · next same =>
      cases same
      rfl
    · rfl
  rw [ofText?, stamp, String.toList_ofList, text]
  dsimp only
  rw [← Instant.year, sign]
  simp only [List.cons_append, date?, noDigits]
  rfl

/-! ## What is read is an instant of the calendar -/

theorem digitsValue_cons (c : Char) (digits : List Char) :
    digitsValue (c :: digits) = (c.toNat - 48) * 10 ^ digits.length + digitsValue digits := by
  rw [Json.digitsValue_eq, Json.digitsValue_eq, Nat.ofDigitChars_cons, Nat.mul_zero, Nat.zero_add,
    Nat.ofDigitChars_eq_ofDigitChars_zero, Nat.mul_comm]
  rfl

theorem digitsValue_lt {digits : List Char} (all : ∀ c ∈ digits, isDigit c = true) :
    digitsValue digits < 10 ^ digits.length := by
  induction digits with
  | nil => decide
  | cons c rest ih =>
    have head := Json.isDigit_iff.mp (all c List.mem_cons_self)
    have tail := ih fun d mem => all d (List.mem_cons_of_mem c mem)
    have first : (c.toNat - 48) * 10 ^ rest.length ≤ 9 * 10 ^ rest.length :=
      Nat.mul_le_mul_right _ (by omega)
    rw [digitsValue_cons, List.length_cons, Nat.pow_succ]
    omega

theorem nanosOfFraction_lt {digits : List Char} (all : ∀ c ∈ digits, isDigit c = true) :
    nanosOfFraction digits < 1000000000 := by
  have nine : ((digits ++ List.replicate 9 '0').take 9).length = 9 := by simp
  have allNine : ∀ c ∈ (digits ++ List.replicate 9 '0').take 9, isDigit c = true := by
    intro c mem
    rcases List.mem_append.mp (List.mem_of_mem_take mem) with digit | zero
    · exact all c digit
    · rw [List.eq_of_mem_replicate zero]
      rfl
  have read := digitsValue_lt allNine
  rwa [nine] at read

theorem fraction?_lt {cs rest : List Char} {nano : Nat} (reads : fraction? cs = some (nano, rest)) :
    nano < 1000000000 := by
  unfold fraction? at reads
  split at reads
  · next digits =>
    dsimp only [Text.spanDigits] at reads
    split at reads
    · cases reads
    · cases reads
      exact nanosOfFraction_lt fun c mem => List.all_eq_true.mp List.all_takeWhile c mem
  · cases reads
    decide

/-- A time of day is a second of the day; a leap second is read as the last one of its minute. -/
theorem timeOfDay?_fits {cs rest : List Char} {second nano : Nat}
    (reads : timeOfDay? cs = some (second, nano, rest)) :
    nano < 2000000000 ∧ (1000000000 ≤ nano → second % 60 = 59) := by
  unfold timeOfDay? at reads
  obtain ⟨⟨hour, _⟩, -, reads⟩ := Option.bind_eq_some_iff.mp reads
  obtain ⟨_, -, reads⟩ := Option.bind_eq_some_iff.mp reads
  obtain ⟨⟨minute, _⟩, -, reads⟩ := Option.bind_eq_some_iff.mp reads
  obtain ⟨_, -, reads⟩ := Option.bind_eq_some_iff.mp reads
  obtain ⟨⟨s, _⟩, -, reads⟩ := Option.bind_eq_some_iff.mp reads
  obtain ⟨⟨fraction, _⟩, point, reads⟩ := Option.bind_eq_some_iff.mp reads
  have within := fraction?_lt point
  dsimp only at reads
  split at reads
  · split at reads
    · cases reads
      exact ⟨by omega, fun _ => by omega⟩
    · cases reads
      exact ⟨by omega, fun leap => by omega⟩
  · cases reads

theorem signedOffset?_minutes {negative : Bool} {cs : List Char} {offset : Int}
    (reads : signedOffset? negative cs = some offset) : offset % 60 = 0 := by
  unfold signedOffset? at reads
  obtain ⟨⟨hours, _⟩, -, reads⟩ := Option.bind_eq_some_iff.mp reads
  obtain ⟨_, -, reads⟩ := Option.bind_eq_some_iff.mp reads
  obtain ⟨⟨minutes, _⟩, -, reads⟩ := Option.bind_eq_some_iff.mp reads
  dsimp only at reads
  split at reads
  · cases reads
    split <;> omega
  · cases reads

/-- An offset is a number of minutes. -/
theorem offset?_minutes {cs : List Char} {offset : Int} (reads : offset? cs = some offset) :
    offset % 60 = 0 := by
  unfold offset? at reads
  split at reads
  · cases reads
    rfl
  · cases reads
    rfl
  · exact signedOffset?_minutes reads
  · exact signedOffset?_minutes reads
  · exact signedOffset?_minutes reads
  · cases reads

/-- What is read from a text is an instant of the calendar. -/
theorem ofText?_isValid {text : String} {t : Instant} (reads : ofText? text = some t) :
    t.IsValid := by
  unfold ofText? at reads
  obtain ⟨⟨date, _⟩, -, reads⟩ := Option.bind_eq_some_iff.mp reads
  obtain ⟨_, -, reads⟩ := Option.bind_eq_some_iff.mp reads
  obtain ⟨⟨second, nano, _⟩, time, reads⟩ := Option.bind_eq_some_iff.mp reads
  obtain ⟨offset, zone, reads⟩ := Option.bind_eq_some_iff.mp reads
  cases reads
  obtain ⟨nano_lt, leap⟩ := timeOfDay?_fits time
  have minutes := offset?_minutes zone
  refine ⟨nano_lt, fun isLeap => ?_⟩
  have last := leap isLeap
  dsimp only
  omega

/-! ## The order of stamps -/

theorem append_lt_append {a b : List Char} (same : a.length = b.length) (lt : a < b)
    (front back : List Char) : a ++ front < b ++ back := by
  induction a generalizing b with
  | nil =>
    cases b with
    | nil => exact absurd lt (List.lt_irrefl _)
    | cons d ds => cases same
  | cons c cs ih =>
    cases b with
    | nil => cases same
    | cons d ds =>
      rw [List.cons_append, List.cons_append, List.cons_lt_cons_iff]
      rcases List.cons_lt_cons_iff.mp lt with less | ⟨equal, less⟩
      · exact .inl less
      · exact .inr ⟨equal, ih (Nat.succ.inj same) less⟩

/-- Among digits of one width the texts have the order of the numbers. -/
theorem lt_of_digitsValue_lt {a b : List Char} (digitsA : ∀ c ∈ a, isDigit c = true)
    (digitsB : ∀ c ∈ b, isDigit c = true) (same : a.length = b.length)
    (lt : digitsValue a < digitsValue b) : a < b := by
  induction a generalizing b with
  | nil =>
    cases b with
    | nil => exact absurd lt (Nat.lt_irrefl _)
    | cons d ds => cases same
  | cons c cs ih =>
    cases b with
    | nil => cases same
    | cons d ds =>
      obtain ⟨digitC, digitsC⟩ := List.forall_mem_cons.mp digitsA
      obtain ⟨digitD, digitsD⟩ := List.forall_mem_cons.mp digitsB
      have length := Nat.succ.inj same
      have bound := digitsValue_lt digitsD
      rw [digitsValue_cons, digitsValue_cons, length] at lt
      rw [Json.isDigit_iff] at digitC digitD
      rw [List.cons_lt_cons_iff]
      rcases Nat.lt_trichotomy c.toNat d.toNat with less | equal | greater
      · exact .inl (UInt32.lt_iff_toNat_lt.mpr less)
      · rw [equal] at lt
        exact .inr ⟨Char.toNat_inj.mp equal, ih digitsC digitsD length (by omega)⟩
      · have first : (d.toNat - 48 + 1) * 10 ^ ds.length ≤ (c.toNat - 48) * 10 ^ ds.length :=
          Nat.mul_le_mul_right _ (by omega)
        rw [Nat.add_mul] at first
        omega

/-- Fields of one width are compared first, and what follows them where they are the same. -/
theorem padded_append_lt {width n m : Nat} {front back : List Char} (nonempty : 0 < width)
    (fitsN : n < 10 ^ width) (fitsM : m < 10 ^ width) (order : n < m ∨ n = m ∧ front < back) :
    padded width n ++ front < padded width m ++ back := by
  rcases order with less | ⟨rfl, less⟩
  · refine append_lt_append ?_ ?_ front back
    · rw [padded_length width nonempty fitsN, padded_length width nonempty fitsM]
    · refine lt_of_digitsValue_lt (fun c => padded_isDigit) (fun c => padded_isDigit) ?_ ?_
      · rw [padded_length width nonempty fitsN, padded_length width nonempty fitsM]
      · rwa [digitsValue_padded, digitsValue_padded]
  · exact List.append_left_lt less

theorem cons_lt_cons {front back : List Char} (c : Char) (less : front < back) :
    c :: front < c :: back :=
  List.cons_lt_cons_iff.mpr (.inr ⟨rfl, less⟩)

/-- Times of day are ordered by the second and the millisecond.  A leap second has one more than the
last second of its minute, which is less than the first second of the next one. -/
theorem timeText_lt {s t k l m n : Nat} {front back : List Char} (dayS : s < 86400)
    (dayT : t < 86400) (leapS : k = 0 ∨ k = 1 ∧ s % 60 = 59) (leapT : l = 0 ∨ l = 1 ∧ t % 60 = 59)
    (secondM : m < 1000) (secondN : n < 1000)
    (order : s < t ∨ s = t ∧ (k < l ∨ k = l ∧ m < n)) :
    padded 2 (s / 3600) ++ ':' :: (padded 2 (s / 60 % 60) ++ ':' :: (padded 2 (s % 60 + k) ++
        '.' :: (padded 3 m ++ front))) <
      padded 2 (t / 3600) ++ ':' :: (padded 2 (t / 60 % 60) ++ ':' :: (padded 2 (t % 60 + l) ++
        '.' :: (padded 3 n ++ back))) := by
  have fields : s / 3600 < t / 3600 ∨ s / 3600 = t / 3600 ∧
      (s / 60 % 60 < t / 60 % 60 ∨ s / 60 % 60 = t / 60 % 60 ∧
        (s % 60 + k < t % 60 + l ∨ s % 60 + k = t % 60 + l ∧ m < n)) := by omega
  refine padded_append_lt (by decide) (by omega) (by omega) (fields.imp_right fun minutes => ?_)
  refine ⟨minutes.1, cons_lt_cons ':' (padded_append_lt (by decide) (by omega) (by omega) ?_)⟩
  refine minutes.2.imp_right fun seconds => ⟨seconds.1, cons_lt_cons ':' ?_⟩
  refine padded_append_lt (by decide) (by omega) (by omega) (seconds.2.imp_right fun last => ?_)
  exact ⟨last.1, cons_lt_cons '.' (padded_append_lt (by decide) secondM secondN (.inl last.2))⟩

/-- Dates are ordered by their numbers. -/
theorem dateText_lt {m n : Int} {front back : List Char} (first : 0 ≤ (Date.ofNumber m).year)
    (last : (Date.ofNumber n).year ≤ 9999) (order : m < n ∨ m = n ∧ front < back) :
    yearText (Date.ofNumber m).year ++ '-' :: (padded 2 (Date.ofNumber m).month ++
        '-' :: (padded 2 (Date.ofNumber m).day ++ front)) <
      yearText (Date.ofNumber n).year ++ '-' :: (padded 2 (Date.ofNumber n).month ++
        '-' :: (padded 2 (Date.ofNumber n).day ++ back)) := by
  have years : (Date.ofNumber m).year ≤ (Date.ofNumber n).year := Date.year_mono (by omega)
  obtain ⟨monthM, dayM⟩ := Date.ofNumber_twoDigits m
  obtain ⟨monthN, dayN⟩ := Date.ofNumber_twoDigits n
  rw [yearText_eq first (by omega), yearText_eq (by omega) last]
  have fields : (Date.ofNumber m).year.toNat < (Date.ofNumber n).year.toNat ∨
      (Date.ofNumber m).year.toNat = (Date.ofNumber n).year.toNat ∧
        ((Date.ofNumber m).month < (Date.ofNumber n).month ∨
          (Date.ofNumber m).month = (Date.ofNumber n).month ∧
            ((Date.ofNumber m).day < (Date.ofNumber n).day ∨
              (Date.ofNumber m).day = (Date.ofNumber n).day ∧ front < back)) := by
    rcases order with less | ⟨rfl, less⟩
    · rcases Date.ofNumber_lt less with year | ⟨year, month | ⟨month, day⟩⟩
      · exact .inl (by omega)
      · exact .inr ⟨by omega, .inl month⟩
      · exact .inr ⟨by omega, .inr ⟨month, .inl day⟩⟩
    · exact .inr ⟨rfl, .inr ⟨rfl, .inr ⟨rfl, less⟩⟩⟩
  refine padded_append_lt (by decide) (by omega) (by omega) (fields.imp_right fun months => ?_)
  refine ⟨months.1, cons_lt_cons '-' (padded_append_lt (by decide) monthM monthN ?_)⟩
  refine months.2.imp_right fun days => ⟨days.1, cons_lt_cons '-' ?_⟩
  exact padded_append_lt (by decide) dayM dayN days.2

/-- The part of a millisecond is not written. -/
theorem stamp_toMillisecond (t : Instant) : t.toMillisecond.stamp = t.stamp := by
  have leap : t.nano / 1000000 * 1000000 / 1000000000 = t.nano / 1000000000 := by omega
  have milli : t.nano / 1000000 * 1000000 % 1000000000 / 1000000 =
      t.nano % 1000000000 / 1000000 := by omega
  rw [stamp, stamp, text, text, toMillisecond]
  dsimp only
  rw [leap, milli]

/-- Stamps have as texts the order of their instants. -/
theorem stamp_lt {a b : Instant} (validA : a.IsValid) (validB : b.IsValid)
    (first : 0 ≤ a.year) (last : b.year ≤ 9999)
    (before : a.toMillisecond.before b.toMillisecond = true) : a.stamp < b.stamp := by
  rw [before_iff] at before
  dsimp only [toMillisecond] at before
  rw [stamp, stamp, String.lt_iff, String.toList_ofList, String.toList_ofList, text, text]
  simp only [List.append_assoc, List.cons_append]
  refine dateText_lt first last ?_
  by_cases day : a.second / 86400 < b.second / 86400
  · exact .inl day
  · refine .inr ⟨by omega, cons_lt_cons 'T' ?_⟩
    have leapA := validA.leap_cases
    have leapB := validB.leap_cases
    exact timeText_lt (by omega) (by omega) leapA leapB (by omega) (by omega) (by omega)

end ContentStore.Instant
