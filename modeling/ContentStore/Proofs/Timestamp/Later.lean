import ContentStore.Proofs.Timestamp.Stamp
/-!
# The stamp after a stamp

A clock shows instants since 1970 and none in a leap second.  What follows a previous stamp is the
reading of the clock or the next millisecond (`following`), and it is later than the previous stamp
also when it is cut to the millisecond (`before_following`), so its stamp denotes a later instant
(`ofText?_stampAfter`).  This holds up to the end of the year 9999: the stamp of a later year has a
sign and five digits and is no timestamp (`stampAfter_later_within_years`).  What follows a
canonical stamp is a canonical stamp and a later text too (`IsCanonical.stampAfter`).
-/

namespace ContentStore.Instant

/-- A reading of a clock. -/
structure IsReading (t : Instant) : Prop where
  since : 0 ≤ t.second
  plain : t.nano < 1000000000

/-- The instant whose stamp follows a previous stamp. -/
def following (now : Instant) (previous : String) : Instant :=
  match ofText? previous with
  | some t => if now.milliseconds ≤ t.milliseconds then t.nextMillisecond else now
  | none => now

theorem stampAfter_eq (now : Instant) (previous : String) :
    stampAfter now previous = (following now previous).stamp := by
  unfold stampAfter following
  cases ofText? previous with
  | none => rfl
  | some t => exact (apply_ite stamp _ _ _).symm

theorem IsReading.isValid {t : Instant} (reading : t.IsReading) : t.IsValid := by
  have plain := reading.plain
  exact ⟨by omega, fun leap => by omega⟩

theorem nextMillisecond_isValid {t : Instant} (valid : t.IsValid) : t.nextMillisecond.IsValid := by
  obtain ⟨nano_lt, leap⟩ := valid
  unfold nextMillisecond
  dsimp only
  split
  · next isLeap =>
    split
    · next within => exact ⟨within, fun _ => leap isLeap⟩
    · exact ⟨by dsimp only; omega, fun isLeap => absurd isLeap (by dsimp only; omega)⟩
  split
  · next within =>
    refine ⟨by dsimp only; omega, fun isLeap => absurd within ?_⟩
    dsimp only at isLeap
    omega
  · exact ⟨by dsimp only; omega, fun isLeap => absurd isLeap (by dsimp only; omega)⟩

theorem before_nextMillisecond {t : Instant} (valid : t.IsValid) :
    t.before t.nextMillisecond.toMillisecond = true := by
  have nano_lt := valid.nano_lt
  rw [before_iff]
  unfold nextMillisecond toMillisecond
  dsimp only
  split
  · split <;> dsimp only <;> omega
  · split <;> dsimp only <;> omega

/-- What follows is one of the two instants. -/
theorem following_cases (now : Instant) (previous : String) :
    following now previous = now ∨ ∃ t, ofText? previous = some t ∧
      now.milliseconds ≤ t.milliseconds ∧ following now previous = t.nextMillisecond := by
  unfold following
  cases ofText? previous with
  | none => exact .inl rfl
  | some t =>
    dsimp only
    split
    · next reached => exact .inr ⟨t, rfl, reached, rfl⟩
    · exact .inl rfl

/-- The years since 1970, and the day before, are not negative. -/
theorem year_nonneg {t : Instant} (since : -86400 ≤ t.second) : 0 ≤ t.year := by
  have start : Date.daysBeforeYear 0 = 0 := by decide
  by_contra early
  have early := year_lt_iff.mp (Int.not_le.mp early)
  rw [start, Date.epochDays] at early
  omega

section Reading

variable {now : Instant} (reading : now.IsReading)
include reading

theorem following_isValid (previous : String) : (following now previous).IsValid := by
  rcases following_cases now previous with same | ⟨t, reads, -, next⟩
  · rw [same]
    exact reading.isValid
  · rw [next]
    exact nextMillisecond_isValid (ofText?_isValid reads)

/-- What follows is later, also when it is cut to the millisecond. -/
theorem before_following {previous : String} {t : Instant} (reads : ofText? previous = some t) :
    t.before (following now previous).toMillisecond = true := by
  have valid := ofText?_isValid reads
  unfold following
  rw [reads]
  dsimp only
  split
  · exact before_nextMillisecond valid
  · next past =>
    have nano_lt := valid.nano_lt
    have plain := reading.plain
    rw [before_iff]
    simp only [milliseconds, toMillisecond] at past ⊢
    omega

theorem year_following_nonneg (previous : String) : 0 ≤ (following now previous).year := by
  have since := reading.since
  refine year_nonneg ?_
  rcases following_cases now previous with same | ⟨t, reads, reached, next⟩
  · rw [same]
    omega
  · have nano_lt := (ofText?_isValid reads).nano_lt
    rw [next]
    simp only [milliseconds] at reached
    have second : t.second ≤ t.nextMillisecond.second := by
      unfold nextMillisecond
      dsimp only
      split <;> split <;> dsimp only <;> omega
    omega

/-- The stamp that follows denotes its instant, cut to the millisecond. -/
theorem ofText?_stampAfter {previous : String} (last : (following now previous).year ≤ 9999) :
    ofText? (stampAfter now previous) = some (following now previous).toMillisecond := by
  rw [stampAfter_eq]
  exact ofText?_stamp (following_isValid reading previous) (year_following_nonneg reading previous)
    last

theorem plain_following {previous : String}
    (plain : ∀ t, ofText? previous = some t → t.nano < 1000000000) :
    (following now previous).nano < 1000000000 := by
  rcases following_cases now previous with same | ⟨t, reads, -, next⟩
  · rw [same]
    exact reading.plain
  · have nano_lt := plain t reads
    rw [next]
    unfold nextMillisecond
    dsimp only
    rw [if_neg (by omega)]
    split
    · next within => exact within
    · dsimp only
      omega

end Reading

/-! ## The last year that can be written -/

theorem year_mono {s t : Instant} (le : s.second ≤ t.second) : s.year ≤ t.year :=
  Date.year_mono (Int.ediv_le_ediv (by decide) le)

/-- Up to a later reading the next millisecond has begun. -/
theorem second_nextMillisecond_le {t now : Instant} (valid : t.IsValid)
    (plain : now.nano < 1000000000) (past : t.milliseconds < now.milliseconds) :
    t.nextMillisecond.second ≤ now.second := by
  have nano_lt := valid.nano_lt
  unfold milliseconds at past
  unfold nextMillisecond
  dsimp only
  split <;> split <;> dsimp only <;> omega

/-- What follows lies in a later year than those that can be written exactly if the millisecond
after the previous stamp does. -/
theorem year_following_le_iff {now : Instant} (reading : now.IsReading) (lastNow : now.year ≤ 9999)
    {previous : String} {t : Instant} (reads : ofText? previous = some t) :
    (following now previous).year ≤ 9999 ↔ t.nextMillisecond.year ≤ 9999 := by
  unfold following
  rw [reads]
  dsimp only
  split
  · exact Iff.rfl
  · next past =>
    have begun : t.nextMillisecond.second ≤ now.second :=
      second_nextMillisecond_le (ofText?_isValid reads) reading.plain (Int.not_le.mp past)
    exact iff_of_true lastNow ((year_mono begun).trans lastNow)

/-- The stamp after a timestamp denotes a later instant as long as the millisecond after it lies in
the year 9999 or before, and from then on is no timestamp. -/
theorem stampAfter_later_within_years {now : Instant} (reading : now.IsReading)
    (lastNow : now.year ≤ 9999) {previous : String} {t : Instant}
    (reads : ofText? previous = some t) :
    (t.nextMillisecond.year ≤ 9999 →
        ∃ n, ofText? (stampAfter now previous) = some n ∧ t.before n = true) ∧
      (9999 < t.nextMillisecond.year → ofText? (stampAfter now previous) = none) := by
  have years := year_following_le_iff reading lastNow reads
  constructor
  · intro last
    exact ⟨_, ofText?_stampAfter reading (years.mpr last), before_following reading reads⟩
  · intro late
    rw [stampAfter_eq]
    exact ofText?_stamp_late (Int.not_le.mp (mt years.mp (Int.not_le.mpr late)))

/-- In a leap second that ends with the millisecond, and at an offset that is read as a day of the
year before the year 0. -/
theorem stampAfter_later_within_years_leap :
    let now : Instant := ⟨0, 0⟩
    let leap := "2016-12-31T23:59:60.9995Z"
    let early := "0000-01-01t00:30:00+01:00"
    now.IsReading ∧ now.year ≤ 9999 ∧ ofText? leap = some ⟨1483228799, 1999500000⟩ ∧
      ofText? early = some ⟨-62167221000, 0⟩ ∧
      (∃ n, ofText? (stampAfter now leap) = some n ∧
        before ⟨1483228799, 1999500000⟩ n = true) ∧
      ∃ n, ofText? (stampAfter now early) = some n ∧ before ⟨-62167221000, 0⟩ n = true := by
  intro now leap early
  have reading : now.IsReading := ⟨by decide, by decide⟩
  have readsLeap : ofText? leap = some ⟨1483228799, 1999500000⟩ := by decide +kernel
  have readsEarly : ofText? early = some ⟨-62167221000, 0⟩ := by decide +kernel
  exact ⟨reading, by decide, readsLeap, readsEarly,
    (stampAfter_later_within_years reading (by decide) readsLeap).1 (by decide),
    (stampAfter_later_within_years reading (by decide) readsEarly).1 (by decide)⟩

/-- The last millisecond of the year 9999, and a timestamp of that year whose offset puts it into
the next one, are followed by stamps that are no timestamps. -/
theorem stampAfter_unreadable :
    let now : Instant := ⟨0, 0⟩
    now.IsReading ∧ now.year ≤ 9999 ∧
      ∀ previous ∈ ["9999-12-31T23:59:59.999Z", "9999-12-31T23:59:59-23:59"],
        (ofText? previous).isSome = true ∧ ofText? (stampAfter now previous) = none := by
  intro now
  exact ⟨⟨by decide, by decide⟩, by decide, by decide +kernel⟩

/-! ## Canonical stamps -/

/-- The form of a stamp, with `d` for a digit. -/
def stampForm : List Char := "dddd-dd-ddTdd:dd:dd.dddZ".toList

/-- A character stands where the form has this one. -/
def FitsStampForm (form c : Char) : Prop := if form = 'd' then Text.isDigit c = true else c = form

/-- A stamp in its one form, of an instant of the years 0 to 9999 in no leap second. -/
structure IsCanonical (stamp : String) : Prop where
  form : List.Forall₂ FitsStampForm stampForm stamp.toList
  denotes : ∃ t, ofText? stamp = some t ∧ t.nano < 1000000000 ∧ 0 ≤ t.year ∧ t.year ≤ 9999 ∧
    t.stamp = stamp

section Form

variable {forms cs : List Char} (rest : List.Forall₂ FitsStampForm forms cs)
include rest

theorem mark_fits {c : Char} (mark : c ≠ 'd') :
    List.Forall₂ FitsStampForm (c :: forms) (c :: cs) := by
  refine .cons ?_ rest
  rw [FitsStampForm, if_neg mark]

theorem digits_fit {digits : List Char} (all : ∀ c ∈ digits, Text.isDigit c = true) :
    List.Forall₂ FitsStampForm (List.replicate digits.length 'd' ++ forms) (digits ++ cs) := by
  induction digits with
  | nil => exact rest
  | cons d ds ih =>
    obtain ⟨digit, others⟩ := List.forall_mem_cons.mp all
    refine .cons ?_ (ih others)
    rwa [FitsStampForm, if_pos rfl]

theorem padded_fits (width : Nat) {n : Nat} (nonempty : 0 < width) (fits : n < 10 ^ width) :
    List.Forall₂ FitsStampForm (List.replicate width 'd' ++ forms) (padded width n ++ cs) := by
  have all : ∀ c ∈ padded width n, Text.isDigit c = true := fun c => padded_isDigit
  have field := digits_fit rest all
  rwa [padded_length width nonempty fits] at field

end Form

theorem stamp_form {t : Instant} (plain : t.nano < 1000000000) (first : 0 ≤ t.year)
    (last : t.year ≤ 9999) : List.Forall₂ FitsStampForm stampForm t.stamp.toList := by
  have noLeap : t.nano / 1000000000 = 0 := by omega
  obtain ⟨month, day⟩ := Date.ofNumber_twoDigits (t.second / 86400)
  rw [Instant.year] at first last
  rw [stamp, String.toList_ofList, text, noLeap, yearText_eq first last]
  simp only [List.append_assoc, List.cons_append]
  refine padded_fits ?_ 4 (by decide) (by omega)
  refine mark_fits (padded_fits ?_ 2 (by decide) month) (by decide)
  refine mark_fits (padded_fits ?_ 2 (by decide) day) (by decide)
  refine mark_fits (padded_fits ?_ 2 (by decide) (by omega)) (by decide)
  refine mark_fits (padded_fits ?_ 2 (by decide) (by omega)) (by decide)
  refine mark_fits (padded_fits ?_ 2 (by decide) (by omega)) (by decide)
  refine mark_fits (padded_fits ?_ 3 (by decide) (by omega)) (by decide)
  exact mark_fits .nil (by decide)

theorem stamp_isCanonical {t : Instant} (plain : t.nano < 1000000000) (first : 0 ≤ t.year)
    (last : t.year ≤ 9999) : IsCanonical t.stamp := by
  have valid : t.IsValid := ⟨by omega, fun leap => by omega⟩
  refine ⟨stamp_form plain first last, t.toMillisecond, ofText?_stamp valid first last, ?_, first,
    last, stamp_toMillisecond t⟩
  rw [toMillisecond]
  dsimp only
  omega

/-- What follows a canonical stamp is a canonical stamp, later as a text and as an instant. -/
theorem IsCanonical.stampAfter {now : Instant} (reading : now.IsReading) {previous : String}
    (canonical : IsCanonical previous) (last : (following now previous).year ≤ 9999) :
    IsCanonical (stampAfter now previous) ∧ previous < stampAfter now previous ∧
      ∃ u n, ofText? previous = some u ∧ ofText? (Instant.stampAfter now previous) = some n ∧
        u.before n = true := by
  obtain ⟨u, reads, plain, first, -, written⟩ := canonical.denotes
  have plainNext : (following now previous).nano < 1000000000 :=
    plain_following reading fun t same => by
      rw [reads] at same
      cases same
      exact plain
  have later := before_following reading reads
  have firstNext := year_following_nonneg reading previous
  refine ⟨?_, ?_, u, _, reads, ofText?_stampAfter reading last, later⟩
  · rw [stampAfter_eq]
    exact stamp_isCanonical plainNext firstNext last
  · have validNext := following_isValid reading previous
    have less : u.stamp < (following now previous).stamp := by
      refine stamp_lt (ofText?_isValid reads) validNext first last ?_
      rw [before_iff, toMillisecond] at later ⊢
      rw [toMillisecond]
      dsimp only at later ⊢
      omega
    rwa [written, ← stampAfter_eq] at less

end ContentStore.Instant
