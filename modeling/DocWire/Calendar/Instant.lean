import DocWire.Number.Decimal

/-!
# Instants

An instant is a count of seconds since 1970 and the nanoseconds within the second. A leap second
is the second before it with a thousand million nanoseconds more. `Instant.text` is the RFC 3339
form in UTC with milliseconds, in the proleptic Gregorian calendar.
-/
set_option autoImplicit false

namespace DocWire

structure Instant where
  seconds : Int
  nanos : Nat
deriving DecidableEq, Repr

structure CivilDate where
  year : Int
  month : Nat
  day : Nat
deriving DecidableEq, Repr

namespace CivilDate

/-- The date that lies `days` days after 1970-01-01. Years are counted from March, in eras of 400
years of 146097 days, so that the leap day ends a year. -/
def ofDays (days : Int) : CivilDate :=
  let shifted := days + 719468
  let era := shifted.fdiv 146097
  let dayOfEra := (shifted - era * 146097).toNat
  let yearOfEra := (dayOfEra - dayOfEra / 1460 + dayOfEra / 36524 - dayOfEra / 146096) / 365
  let dayOfYear := dayOfEra - (365 * yearOfEra + yearOfEra / 4 - yearOfEra / 100)
  let marchMonth := (5 * dayOfYear + 2) / 153
  let month := if marchMonth < 10 then marchMonth + 3 else marchMonth - 9
  let year : Int := yearOfEra + era * 400 + (if month ≤ 2 then 1 else 0)
  ⟨year, month, dayOfYear - (153 * marchMonth + 2) / 5 + 1⟩

/-- Years with more or fewer than four digits carry a sign. -/
def yearChars (year : Int) : List Char :=
  if 0 ≤ year ∧ year ≤ 9999 then paddedDigits 4 year.toNat
  else (if year < 0 then '-' else '+') :: paddedDigits 4 year.natAbs

example : ofDays 0 = ⟨1970, 1, 1⟩ := by decide
example : ofDays 11016 = ⟨2000, 2, 29⟩ := by decide
example : ofDays (-719528) = ⟨0, 1, 1⟩ := by decide

end CivilDate

namespace Instant

/-- The instant at a count of milliseconds, for the years -262143 to 262142. -/
def ofMillis? (millis : Int) : Option Instant :=
  if -8334601228800000 ≤ millis ∧ millis ≤ 8210266876799999 then
    some ⟨millis.fdiv 1000, (millis.fmod 1000).toNat * 1000000⟩
  else none

def dateChars (t : Instant) : List Char :=
  let date := CivilDate.ofDays (t.seconds.fdiv 86400)
  CivilDate.yearChars date.year ++ '-' :: paddedDigits 2 date.month ++ '-' :: paddedDigits 2 date.day

/-- The time of day with milliseconds. Whatever is finer is cut off, and a leap second is the
sixtieth second of its minute. -/
def clockChars (t : Instant) : List Char :=
  let clock := (t.seconds.fmod 86400).toNat
  let leap := 1000000000 ≤ t.nanos
  let second := clock % 60 + (if leap then 1 else 0)
  let nanos := if leap then t.nanos - 1000000000 else t.nanos
  paddedDigits 2 (clock / 3600) ++ ':' :: paddedDigits 2 (clock / 60 % 60) ++
    ':' :: paddedDigits 2 second ++ '.' :: paddedDigits 3 (nanos / 1000000)

def chars (t : Instant) : List Char := t.dateChars ++ 'T' :: t.clockChars ++ ['Z']

def text (t : Instant) : String := String.ofList t.chars

/-- Date and time of day as they stand in front of a log line. -/
def stamp (t : Instant) : String := String.ofList (t.dateChars ++ ' ' :: t.clockChars)

example : (Instant.mk 0 123456789).text = "1970-01-01T00:00:00.123Z" := by decide +kernel
example : (Instant.mk 1483228799 1500000000).text = "2016-12-31T23:59:60.500Z" := by decide +kernel

end Instant
end DocWire
