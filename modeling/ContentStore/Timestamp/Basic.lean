import ContentStore.Timestamp.Calendar
import ContentStore.Text.Digits
/-!
# Timestamps

An instant of universal time has a second and its nanoseconds; in a leap second, which follows the
last second of a minute and shares its number, the nanoseconds run from `10^9` on.  A timestamp is
read from text with a date, a time, a fraction of any length and an offset, and is written with
milliseconds and a `Z`.
-/

namespace ContentStore

/-- An instant of universal time: seconds since the start of 1970, and nanoseconds, which in a leap
second are at least `10^9`. -/
structure Instant where
  second : Int
  nano : Nat
deriving DecidableEq, Repr

namespace Instant

/-- The order of time: by the second, and within it by the nanosecond. -/
def before (a b : Instant) : Bool :=
  decide (a.second < b.second) || (a.second == b.second && decide (a.nano < b.nano))

/-- The milliseconds since the start of 1970, those of a leap second counted on. -/
def milliseconds (t : Instant) : Int := t.second * 1000 + (t.nano / 1000000 : Nat)

/-- The instant a millisecond later.  It leaves a leap second only at its end. -/
def nextMillisecond (t : Instant) : Instant :=
  let nano := t.nano + 1000000
  if 1000000000 ≤ t.nano then
    if nano < 2000000000 then ⟨t.second, nano⟩ else ⟨t.second + 1, nano - 2000000000⟩
  else if nano < 1000000000 then ⟨t.second, nano⟩
  else ⟨t.second + 1, nano - 1000000000⟩

/-! ## Reading -/

/-- Reads a number of exactly two digits. -/
def twoDigits? : List Char → Option (Nat × List Char)
  | a :: b :: rest =>
    if Text.isDigit a ∧ Text.isDigit b then some (Text.digitsValue [a, b], rest) else none
  | _ => none

/-- Reads a number of exactly four digits. -/
def fourDigits? : List Char → Option (Nat × List Char)
  | a :: b :: c :: d :: rest =>
    if Text.isDigit a ∧ Text.isDigit b ∧ Text.isDigit c ∧ Text.isDigit d then
      some (Text.digitsValue [a, b, c, d], rest)
    else none
  | _ => none

/-- Reads one given character. -/
def mark? (c : Char) : List Char → Option (List Char)
  | d :: rest => if c = d then some rest else none
  | [] => none

/-- The nanoseconds that the digits of a fraction write; digits after the ninth do not count. -/
def nanosOfFraction (digits : List Char) : Nat :=
  Text.digitsValue ((digits ++ List.replicate 9 '0').take 9)

/-- Reads a fraction of a second, where a point comes next; a point needs a digit. -/
def fraction? : List Char → Option (Nat × List Char)
  | '.' :: rest =>
    let (digits, after) := Text.spanDigits rest
    if digits.isEmpty then none else some (nanosOfFraction digits, after)
  | rest => some (0, rest)

/-- Reads a signed offset of hours and minutes as seconds. -/
def signedOffset? (negative : Bool) (cs : List Char) : Option Int := do
  let (hours, cs) ← twoDigits? cs
  let cs ← mark? ':' cs
  let (minutes, cs) ← twoDigits? cs
  if hours < 24 ∧ minutes < 60 ∧ cs = [] then
    let size : Int := hours * 3600 + minutes * 60
    some (if negative then -size else size)
  else none

/-- Reads an offset from universal time that ends the text, in seconds. -/
def offset? : List Char → Option Int
  | ['Z'] => some 0
  | ['z'] => some 0
  | '+' :: rest => signedOffset? false rest
  | '-' :: rest => signedOffset? true rest
  | '\u2212' :: rest => signedOffset? true rest
  | _ => none

/-- Reads a date that is a day of the calendar. -/
def date? (cs : List Char) : Option (Date × List Char) := do
  let (year, cs) ← fourDigits? cs
  let cs ← mark? '-' cs
  let (month, cs) ← twoDigits? cs
  let cs ← mark? '-' cs
  let (day, cs) ← twoDigits? cs
  let date : Date := ⟨year, month, day⟩
  if date.IsValid then some (date, cs) else none

/-- Reads a time of day as its second and its nanoseconds; second 60 is a leap second. -/
def timeOfDay? (cs : List Char) : Option (Nat × Nat × List Char) := do
  let (hour, cs) ← twoDigits? cs
  let cs ← mark? ':' cs
  let (minute, cs) ← twoDigits? cs
  let cs ← mark? ':' cs
  let (second, cs) ← twoDigits? cs
  let (nano, cs) ← fraction? cs
  if hour < 24 ∧ minute < 60 ∧ second ≤ 60 then
    if second = 60 then some (hour * 3600 + minute * 60 + 59, 1000000000 + nano, cs)
    else some (hour * 3600 + minute * 60 + second, nano, cs)
  else none

/-- Reads what stands between date and time. -/
def separator? : List Char → Option (List Char)
  | 'T' :: rest => some rest
  | 't' :: rest => some rest
  | ' ' :: rest => some rest
  | _ => none

/-- The instant that a timestamp denotes. -/
def ofText? (text : String) : Option Instant := do
  let (date, cs) ← date? text.toList
  let cs ← separator? cs
  let (secondOfDay, nano, cs) ← timeOfDay? cs
  let offset ← offset? cs
  some ⟨date.number * 86400 + secondOfDay - offset, nano⟩

/-! ## Writing -/

/-- The digits of a number, with zeros in front up to a width. -/
def padded (width n : Nat) : List Char :=
  let digits := Nat.toDigits 10 n
  List.replicate (width - digits.length) '0' ++ digits

/-- The text of a year: four digits, and outside the years 0 to 9999 a sign. -/
def yearText (year : Int) : List Char :=
  if 0 ≤ year ∧ year ≤ 9999 then padded 4 year.toNat
  else (if year < 0 then '-' else '+') :: padded 4 year.natAbs

/-- The timestamp of an instant, its fraction cut to milliseconds; a leap second is second 60. -/
def text (t : Instant) : List Char :=
  let date := Date.ofNumber (t.second / 86400)
  let secondOfDay := (t.second % 86400).toNat
  let leap := t.nano / 1000000000
  let milli := t.nano % 1000000000 / 1000000
  yearText date.year ++ '-' :: padded 2 date.month ++ '-' :: padded 2 date.day ++
    'T' :: padded 2 (secondOfDay / 3600) ++ ':' :: padded 2 (secondOfDay / 60 % 60) ++
    ':' :: padded 2 (secondOfDay % 60 + leap) ++ '.' :: padded 3 milli ++ ['Z']

/-- The canonical stamp of an instant. -/
def stamp (t : Instant) : String := String.ofList t.text

/-- A stamp later than a previous one: the present if it is past the previous stamp by its
milliseconds, and otherwise a millisecond after the previous stamp.  A text that is no timestamp
gives the present. -/
def stampAfter (now : Instant) (previous : String) : String :=
  match ofText? previous with
  | some t => if now.milliseconds ≤ t.milliseconds then t.nextMillisecond.stamp else now.stamp
  | none => now.stamp

example : (ofText? "2000-02-29t23:59:60.5-00:30").map stamp =
    some "2000-03-01T00:29:60.500Z" := by decide

end Instant

end ContentStore
