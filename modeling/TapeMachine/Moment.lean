/-!
# Moments

A moment is a point of the calendar, taken from one clock.  It is written as a date, as a date with
a time of day, and as a time stamp with its offset from universal time.
-/

namespace TapeMachine

structure Moment where
  year : Nat
  month : Nat
  day : Nat
  hour : Nat
  minute : Nat
  second : Nat
  /-- Millionths of a second. -/
  micro : Nat
  deriving DecidableEq, Repr

namespace Moment

instance : Inhabited Moment := ⟨⟨1970, 1, 1, 0, 0, 0, 0⟩⟩

/-- The moment of universal time so many millionths of a second after the start of 1970.  Years are
counted from March, so that the day of a leap year stands at its end. -/
def ofMicros (micros : Nat) : Moment :=
  let seconds := micros / 1000000
  let days := seconds / 86400 + 719468
  let era := days / 146097
  let ofEra := days % 146097
  let yearOfEra := (ofEra + ofEra / 36524 - ofEra / 1460 - ofEra / 146096) / 365
  let ofYear := ofEra + yearOfEra / 100 - 365 * yearOfEra - yearOfEra / 4
  let march := (5 * ofYear + 2) / 153
  let year := 400 * era + yearOfEra
  { year := if march < 10 then year else year + 1
    month := if march < 10 then march + 3 else march - 9
    day := ofYear - (153 * march + 2) / 5 + 1
    hour := seconds / 3600 % 24
    minute := seconds / 60 % 60
    second := seconds % 60
    micro := micros % 1000000 }

def padded (width n : Nat) : String :=
  let digits := Nat.toDigits 10 n
  String.ofList (List.replicate (width - digits.length) '0' ++ digits)

def fullDate (m : Moment) : String := s!"{padded 4 m.year}-{padded 2 m.month}-{padded 2 m.day}"

/-- A fraction of a second is written only if there is one. -/
def timeOfDay (m : Moment) : String :=
  s!"{padded 2 m.hour}:{padded 2 m.minute}:{padded 2 m.second}" ++
    if m.micro = 0 then "" else "." ++ padded 6 m.micro

/-- The date in file names; its year is not padded. -/
def date (m : Moment) : String := s!"{m.year}-{padded 2 m.month}-{padded 2 m.day}"

def clockText (m : Moment) : String := s!"{m.fullDate} {m.timeOfDay}"

def stamp (m : Moment) : String := s!"{m.fullDate}T{m.timeOfDay}+00:00"

end Moment

end TapeMachine
