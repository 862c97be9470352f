import DocumentDb.Calendar.Date
import DocumentDb.Text.Segment

/-!
# Instants

An instant is a second since 1970 in universal time and the nanoseconds behind it. A leap second is
the second before it with a thousand million nanoseconds or more, which is why instants are ordered
by their seconds first. The text of an instant has milliseconds, the rest cut off.
-/

namespace DocumentDb

/-- A point in time. -/
structure Instant where
  /-- Seconds since the beginning of 1970. -/
  seconds : Int
  /-- Nanoseconds behind the second, below twice a second. -/
  nanos : Nat
deriving DecidableEq, Repr, Inhabited

namespace Instant

/-- The nanoseconds of a second. -/
def nanosPerSecond : Nat := 1000000000

/-- The seconds of a day. -/
def secondsPerDay : Nat := 86400

/-- The instant of a date and a time of day in universal time; second `60` is a leap second. -/
def ofParts (date : Date) (hour minute second nanos : Nat) : Instant :=
  let leap := second = 60
  let seconds : Int := (hour * 3600 + minute * 60 + (if leap then 59 else second) : Nat)
  ⟨date.toDays * secondsPerDay + seconds, if leap then nanosPerSecond + nanos else nanos⟩

/-- Whether one instant is earlier than another. -/
def before (a b : Instant) : Bool :=
  a.seconds < b.seconds || (a.seconds == b.seconds && a.nanos < b.nanos)

/-- The milliseconds since the beginning of 1970. -/
def milliseconds (t : Instant) : Int := t.seconds * 1000 + (t.nanos / 1000000 : Nat)

/-- The date in universal time. -/
def date (t : Instant) : Date := .ofDays (t.seconds / secondsPerDay)

/-- The text of a year: four digits, with a sign if it is not between 0 and 9999. -/
def yearText (year : Int) : String :=
  if 0 ≤ year && year ≤ 9999 then Text.padded 4 year.toNat
  else (if year < 0 then "-" else "+") ++ Text.padded 4 year.natAbs

/-- The text of the instant, in universal time and with milliseconds. -/
def text (t : Instant) : String :=
  let date := t.date
  let secondOfDay := (t.seconds % secondsPerDay).toNat
  let leap := t.nanos ≥ nanosPerSecond
  let second := secondOfDay % 60 + (if leap then 1 else 0)
  let nanos := if leap then t.nanos - nanosPerSecond else t.nanos
  yearText date.year ++ "-" ++ Text.padded 2 date.month ++ "-" ++ Text.padded 2 date.day
    ++ "T" ++ Text.padded 2 (secondOfDay / 3600) ++ ":" ++ Text.padded 2 (secondOfDay / 60 % 60)
    ++ ":" ++ Text.padded 2 second ++ "." ++ Text.padded 3 (nanos / 1000000) ++ "Z"

end Instant

end DocumentDb
