import ContentStore.Timestamp.Calendar
import Mathlib.Order.Monotone.Basic
/-!
# Days and their numbers

The day of a number is a day of the calendar (`ofNumber_isValid`) and has that number
(`number_ofNumber`).  Its year is the one whose first day is the last first of January up to it
(`yearOf_between`), so years pass in the order of the numbers (`year_lt_iff`), and within a year the
month and the day do (`ofNumber_lt`).
-/

namespace ContentStore.Date

/-! ## Years -/

theorem daysBeforeYear_succ (year : Int) :
    daysBeforeYear (year + 1) = daysBeforeYear year + if isLeapYear year then 366 else 365 := by
  unfold daysBeforeYear isLeapYear
  by_cases fourth : year % 4 = 0 <;> by_cases hundredth : year % 100 = 0 <;>
    by_cases last : year % 400 = 0 <;> simp [fourth, hundredth, last] <;> omega

theorem daysBeforeYear_mono {a b : Int} (le : a ≤ b) : daysBeforeYear a ≤ daysBeforeYear b := by
  unfold daysBeforeYear
  omega

/-- The estimate of the year is right or wrong by one, and is then set right. -/
theorem yearOf_between (days : Int) :
    daysBeforeYear (yearOf days) ≤ days ∧ days < daysBeforeYear (yearOf days + 1) := by
  unfold yearOf
  dsimp only
  split
  · next late =>
    rw [Int.sub_add_cancel]
    refine ⟨?_, late⟩
    unfold daysBeforeYear at *
    omega
  split
  · next early =>
    refine ⟨early, ?_⟩
    unfold daysBeforeYear at *
    omega
  · omega

theorem yearOf_lt_iff {days year : Int} : yearOf days < year ↔ days < daysBeforeYear year := by
  obtain ⟨start, stop⟩ := yearOf_between days
  constructor
  · intro before
    have later : daysBeforeYear (yearOf days + 1) ≤ daysBeforeYear year :=
      daysBeforeYear_mono before
    omega
  · intro before
    by_contra reached
    have earlier : daysBeforeYear year ≤ daysBeforeYear (yearOf days) :=
      daysBeforeYear_mono (by omega)
    omega

theorem yearOf_mono {a b : Int} (le : a ≤ b) : yearOf a ≤ yearOf b := by
  have reached : ¬yearOf b < yearOf a := by
    rw [yearOf_lt_iff]
    have start := (yearOf_between a).1
    omega
  omega

/-! ## Months -/

theorem daysBeforeMonth_succ (leap : Bool) {month : Nat} (first : 1 ≤ month) :
    daysBeforeMonth leap (month + 1) = daysBeforeMonth leap month + daysInMonth leap month := by
  obtain ⟨m, rfl⟩ := Nat.exists_eq_add_of_le' first
  rfl

theorem daysBeforeMonth_le_succ (leap : Bool) (month : Nat) :
    daysBeforeMonth leap month ≤ daysBeforeMonth leap (month + 1) := by
  cases month with
  | zero => exact Nat.le_refl 0
  | succ month => exact Nat.le_add_right _ _

theorem daysBeforeMonth_mono (leap : Bool) {a b : Nat} (le : a ≤ b) :
    daysBeforeMonth leap a ≤ daysBeforeMonth leap b :=
  monotone_nat_of_le_succ (daysBeforeMonth_le_succ leap) le

/-- The indices of a growing sequence at which it is at most a bound come first. -/
theorem filter_range_le {f : Nat → Nat} (grows : ∀ i, f i ≤ f (i + 1)) (bound n : Nat) :
    ∃ j ≤ n, (List.range n).filter (fun i => f i ≤ bound) = List.range j ∧
      (∀ i < j, f i ≤ bound) ∧ (j < n → bound < f j) := by
  induction n with
  | zero => exact ⟨0, Nat.le_refl 0, rfl, nofun, nofun⟩
  | succ n ih =>
    obtain ⟨j, le, filtered, within, beyond⟩ := ih
    rw [List.range_succ, List.filter_append, filtered]
    by_cases here : f n ≤ bound
    · have all : j = n := by
        by_contra less
        have past := beyond (by omega)
        have grown : f j ≤ f n := monotone_nat_of_le_succ grows le
        omega
      subst all
      refine ⟨j + 1, Nat.le_refl _, ?_, fun i before => ?_, fun less => absurd less (by omega)⟩
      · simp [here, List.range_succ]
      · rcases Nat.lt_or_eq_of_le (Nat.le_of_lt_succ before) with earlier | rfl
        · exact within i earlier
        · exact here
    · refine ⟨j, by omega, by simp [here], within, fun _ => ?_⟩
      rcases Nat.lt_or_eq_of_le le with less | rfl
      · exact beyond less
      · omega

theorem daysInYear (leap : Bool) :
    daysBeforeMonth leap 12 + daysInMonth leap 12 = if leap then 366 else 365 := by
  cases leap <;> rfl

/-- A day of a year lies in its month. -/
theorem monthOf_between {leap : Bool} {dayOfYear : Nat}
    (inYear : dayOfYear < if leap then 366 else 365) :
    monthOf leap dayOfYear ≤ 12 ∧ daysBeforeMonth leap (monthOf leap dayOfYear) ≤ dayOfYear ∧
      dayOfYear <
        daysBeforeMonth leap (monthOf leap dayOfYear) + daysInMonth leap (monthOf leap dayOfYear)
    := by
  obtain ⟨j, le, filtered, within, beyond⟩ :=
    filter_range_le (fun i => daysBeforeMonth_le_succ leap (i + 2)) dayOfYear 11
  have month : monthOf leap dayOfYear = j + 1 := by
    rw [monthOf, filtered, List.length_range]
  rw [month]
  refine ⟨by omega, ?_, ?_⟩
  · cases j with
    | zero => exact Nat.zero_le _
    | succ i => exact within i (Nat.lt_succ_self i)
  · rcases Nat.lt_or_eq_of_le le with less | rfl
    · have past := beyond less
      rwa [daysBeforeMonth_succ leap (by omega)] at past
    · rwa [daysInYear]

theorem daysInMonth_le (leap : Bool) (month : Nat) : daysInMonth leap month ≤ 31 := by
  unfold daysInMonth
  split
  · split <;> omega
  all_goals omega

/-- The month and the day have at most two digits. -/
theorem IsValid.twoDigits {d : Date} (valid : d.IsValid) : d.month < 100 ∧ d.day < 100 := by
  obtain ⟨-, lastMonth, -, lastDay⟩ := valid
  have days := daysInMonth_le (isLeapYear d.year) d.month
  exact ⟨by omega, by omega⟩

/-! ## Days -/

/-- The days of the year before a day, the leap years considered. -/
def dayOfYear (n : Int) : Nat :=
  (n + epochDays - daysBeforeYear (yearOf (n + epochDays))).toNat

theorem year_ofNumber (n : Int) : (ofNumber n).year = yearOf (n + epochDays) := rfl

theorem day_ofNumber (n : Int) : (ofNumber n).day =
    dayOfYear n - daysBeforeMonth (isLeapYear (ofNumber n).year) (ofNumber n).month + 1 := rfl

theorem dayOfYear_eq (n : Int) :
    (dayOfYear n : Int) = n + epochDays - daysBeforeYear (ofNumber n).year := by
  have start := (yearOf_between (n + epochDays)).1
  rw [dayOfYear, year_ofNumber]
  omega

theorem dayOfYear_lt (n : Int) :
    dayOfYear n < if isLeapYear (ofNumber n).year then 366 else 365 := by
  have stop := (yearOf_between (n + epochDays)).2
  have day := dayOfYear_eq n
  rw [← year_ofNumber, daysBeforeYear_succ] at stop
  split at stop
  · next leap =>
    rw [if_pos leap]
    omega
  · next common =>
    rw [if_neg common]
    omega

/-- Where a day lies in its month. -/
theorem month_between (n : Int) :
    let leap := isLeapYear (ofNumber n).year
    (ofNumber n).month ≤ 12 ∧ daysBeforeMonth leap (ofNumber n).month ≤ dayOfYear n ∧
      dayOfYear n <
        daysBeforeMonth leap (ofNumber n).month + daysInMonth leap (ofNumber n).month :=
  monthOf_between (dayOfYear_lt n)

theorem one_le_month (n : Int) : 1 ≤ (ofNumber n).month := Nat.le_add_left 1 _

/-- The day of a number is a day of the calendar. -/
theorem ofNumber_isValid (n : Int) : (ofNumber n).IsValid := by
  obtain ⟨last, start, stop⟩ := month_between n
  have day := day_ofNumber n
  exact ⟨one_le_month n, last, by omega, by omega⟩

/-- The day of a number has that number. -/
theorem number_ofNumber (n : Int) : (ofNumber n).number = n := by
  obtain ⟨-, start, -⟩ := month_between n
  have day := day_ofNumber n
  have inYear := dayOfYear_eq n
  rw [number]
  omega

theorem ofNumber_twoDigits (n : Int) : (ofNumber n).month < 100 ∧ (ofNumber n).day < 100 :=
  (ofNumber_isValid n).twoDigits

/-- Up to a year the numbers are those before its first day. -/
theorem year_lt_iff {n year : Int} :
    (ofNumber n).year < year ↔ n + epochDays < daysBeforeYear year :=
  yearOf_lt_iff

theorem year_mono {a b : Int} (le : a ≤ b) : (ofNumber a).year ≤ (ofNumber b).year :=
  yearOf_mono (by omega)

/-- Days are ordered by the year, the month and the day of the month. -/
theorem ofNumber_lt {a b : Int} (lt : a < b) :
    (ofNumber a).year < (ofNumber b).year ∨ (ofNumber a).year = (ofNumber b).year ∧
      ((ofNumber a).month < (ofNumber b).month ∨
        (ofNumber a).month = (ofNumber b).month ∧ (ofNumber a).day < (ofNumber b).day) := by
  have years : (ofNumber a).year ≤ (ofNumber b).year := year_mono (Int.le_of_lt lt)
  rcases Int.lt_or_eq_of_le years with earlier | same
  · exact .inl earlier
  refine .inr ⟨same, ?_⟩
  have dayA := dayOfYear_eq a
  have dayB := dayOfYear_eq b
  obtain ⟨-, startA, stopA⟩ := month_between a
  obtain ⟨-, startB, stopB⟩ := month_between b
  rw [same] at startA stopA dayA
  rcases Nat.lt_trichotomy (ofNumber a).month (ofNumber b).month with before | equal | behind
  · exact .inl before
  · refine .inr ⟨equal, ?_⟩
    rw [day_ofNumber, day_ofNumber, same, equal]
    rw [equal] at startA
    omega
  · have next := daysBeforeMonth_mono (isLeapYear (ofNumber b).year) behind
    rw [daysBeforeMonth_succ _ (one_le_month b)] at next
    omega

end ContentStore.Date
