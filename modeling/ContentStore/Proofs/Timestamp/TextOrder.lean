import ContentStore.Proofs.Timestamp.Stamp
import ContentStore.Store.Basic
import Mathlib.Data.String.Basic
/-!
# The order of stamps as texts

A record has two stamps, and a change goes on from the greater one of them *as texts*
(`Store.lastStamp`).  For the instants of the years 0 to 9999, leap seconds included, this is the
order of time (`stamp_lt_iff`), so of two stamps that the store has made the one that is taken is
the later one (`stamps_keep_time`).
-/

namespace ContentStore

namespace Instant

/-- An instant that a stamp without a sign writes: one of the calendar, of the years 0 to 9999. -/
structure IsStampable (t : Instant) : Prop where
  valid : t.IsValid
  first : 0 ≤ t.year
  last : t.year ≤ 9999

/-- The later of two instants. -/
def later (a b : Instant) : Instant := if a.before b then b else a

theorem before_trichotomy (a b : Instant) :
    a.before b = true ∨ a = b ∨ b.before a = true := by
  obtain ⟨s, m⟩ := a
  obtain ⟨t, n⟩ := b
  simp only [before_iff, mk.injEq]
  omega

theorem IsStampable.ofText?_stamp {t : Instant} (stampable : t.IsStampable) :
    ofText? t.stamp = some t.toMillisecond :=
  Instant.ofText?_stamp stampable.valid stampable.first stampable.last

section Order

variable {a b : Instant} (stampableA : a.IsStampable) (stampableB : b.IsStampable)
include stampableA stampableB

/-- Stamps are as texts in the order of time. -/
theorem stamp_lt_iff : a.stamp < b.stamp ↔ a.toMillisecond.before b.toMillisecond = true := by
  constructor
  · intro less
    rcases before_trichotomy a.toMillisecond b.toMillisecond with before | same | behind
    · exact before
    · have equal : a.stamp = b.stamp := by
        rw [← stamp_toMillisecond a, same, stamp_toMillisecond]
      exact absurd less (equal ▸ lt_irrefl _)
    · have greater : b.stamp < a.stamp :=
        stamp_lt stampableB.valid stampableA.valid stampableB.first stampableA.last behind
      exact absurd less (lt_asymm greater)
  · intro before
    exact stamp_lt stampableA.valid stampableB.valid stampableA.first stampableB.last before

/-- Instants have one stamp exactly if they differ by less than the stamp writes. -/
theorem stamp_eq_iff : a.stamp = b.stamp ↔ a.toMillisecond = b.toMillisecond := by
  constructor
  · intro equal
    have reads := stampableA.ofText?_stamp
    rw [equal, stampableB.ofText?_stamp] at reads
    exact (Option.some.inj reads).symm
  · intro same
    rw [← stamp_toMillisecond a, same, stamp_toMillisecond]

/-- The stamp that a change goes on from is the one of the later instant. -/
theorem ofText?_lastStamp {record : Record}
    (created : Record.text? Record.createdKey record = some a.stamp)
    (updated : Record.text? Record.updatedKey record = some b.stamp) :
    ofText? (Store.lastStamp record) = some (later a.toMillisecond b.toMillisecond) := by
  rw [Store.lastStamp, created, updated]
  show ofText? (if a.stamp < b.stamp then b.stamp else a.stamp) = _
  rw [later, apply_ite ofText?, stampableA.ofText?_stamp, stampableB.ofText?_stamp,
    ← apply_ite some]
  simp only [stamp_lt_iff stampableA stampableB]

end Order

/-- A stamp of the years 0 to 9999 is read as its instant, cut to the millisecond; stamps are as
texts in the order of these instants; and of two stamps a change goes on from the later one. -/
theorem stamps_keep_time :
    (∀ t : Instant, t.IsStampable → ofText? t.stamp = some t.toMillisecond) ∧
    ∀ a b : Instant, a.IsStampable → b.IsStampable →
      (a.stamp < b.stamp ↔ a.toMillisecond.before b.toMillisecond = true) ∧
      (a.stamp = b.stamp ↔ a.toMillisecond = b.toMillisecond) ∧
      ∀ record : Record, Record.text? Record.createdKey record = some a.stamp →
        Record.text? Record.updatedKey record = some b.stamp →
        ofText? (Store.lastStamp record) = some (later a.toMillisecond b.toMillisecond) := by
  refine ⟨fun t stampable => stampable.ofText?_stamp, fun a b stampableA stampableB => ?_⟩
  refine ⟨stamp_lt_iff stampableA stampableB, stamp_eq_iff stampableA stampableB, ?_⟩
  intro record created updated
  exact ofText?_lastStamp stampableA stampableB created updated

/-- The end of a leap second at the end of a year, and the midnight after it. -/
theorem stamps_keep_time_leap :
    let leap : Instant := ⟨1483228799, 1999500000⟩
    let midnight : Instant := ⟨1483228800, 999⟩
    let record : Record :=
      [("created_at", .text "2016-12-31T23:59:60.999Z"),
        ("updated_at", .text "2017-01-01T00:00:00.000Z")]
    leap.IsStampable ∧ midnight.IsStampable ∧
      ofText? leap.stamp = some ⟨1483228799, 1999000000⟩ ∧ leap.stamp < midnight.stamp ∧
      ofText? (Store.lastStamp record) = some ⟨1483228800, 0⟩ := by
  intro leap midnight record
  have stampableLeap : leap.IsStampable :=
    ⟨⟨by decide, fun _ => by decide⟩, by decide, by decide⟩
  have stampableMidnight : midnight.IsStampable :=
    ⟨⟨by decide, fun isLeap => absurd isLeap (by decide)⟩, by decide, by decide⟩
  have created : Record.text? Record.createdKey record = some leap.stamp := by decide +kernel
  have updated : Record.text? Record.updatedKey record = some midnight.stamp := by decide +kernel
  have cut : leap.toMillisecond = ⟨1483228799, 1999000000⟩ := by decide
  have last : leap.toMillisecond.later midnight.toMillisecond = ⟨1483228800, 0⟩ := by decide
  have reads := stamps_keep_time.1 leap stampableLeap
  obtain ⟨order, -, taken⟩ := stamps_keep_time.2 leap midnight stampableLeap stampableMidnight
  rw [cut] at reads
  exact ⟨stampableLeap, stampableMidnight, reads, order.mpr (by decide),
    last ▸ taken record created updated⟩

end Instant

end ContentStore
