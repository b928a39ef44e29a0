import ContractNet.Text.Basic

/-!
# Instants

An instant is a number of nanoseconds since the beginning of 1970, in universal time.  Its date is
the one of the Gregorian calendar, carried on before its introduction and before the year 1.
-/

namespace ContractNet

/-- A point in time, in nanoseconds since the beginning of 1970. -/
structure Instant where
  nanos : Int
deriving DecidableEq

/-- A date and a time of day. -/
structure Calendar where
  year : Int
  month : Nat
  day : Nat
  hour : Nat
  minute : Nat
  second : Nat
  nano : Nat
deriving DecidableEq

namespace Instant

/-- The instant some seconds and nanoseconds after the beginning of 1970. -/
def ofUnix (seconds nanos : Int) : Instant := ⟨seconds * 1000000000 + nanos⟩

/-- The beginning of the year 1, which stands for no instant. -/
def zero : Instant := ofUnix (-62135596800) 0

/-- The instant some seconds later. -/
def addSeconds (t : Instant) (seconds : Int) : Instant := ⟨t.nanos + seconds * 1000000000⟩

/-- The date of a day, counted from the first of January 1970.  Years are counted from March on,
so that the leap day is their last; 400 of them make an era of 146097 days. -/
def dateOfDay (day : Int) : Int × Nat × Nat :=
  let z := day + 719468
  let era := Int.fdiv z 146097
  let dayOfEra := (z - era * 146097).toNat
  let yearOfEra := (dayOfEra - dayOfEra / 1460 + dayOfEra / 36524 - dayOfEra / 146096) / 365
  let dayOfYear := dayOfEra - (365 * yearOfEra + yearOfEra / 4 - yearOfEra / 100)
  let shifted := (5 * dayOfYear + 2) / 153
  let dayOfMonth := dayOfYear - (153 * shifted + 2) / 5 + 1
  let month := if shifted < 10 then shifted + 3 else shifted - 9
  let year : Int := yearOfEra + era * 400
  (if month ≤ 2 then year + 1 else year, month, dayOfMonth)

/-- The date and time of day of an instant. -/
def calendar (t : Instant) : Calendar :=
  let seconds := Int.fdiv t.nanos 1000000000
  let nano := (Int.fmod t.nanos 1000000000).toNat
  let day := Int.fdiv seconds 86400
  let second := (Int.fmod seconds 86400).toNat
  let (year, month, dayOfMonth) := dateOfDay day
  ⟨year, month, dayOfMonth, second / 3600, second / 60 % 60, second % 60, nano⟩

/-- The day of a date, counted from the first of January 1970. -/
def dayOfDate (year : Int) (month day : Nat) : Int :=
  let y := if month ≤ 2 then year - 1 else year
  let era := Int.fdiv y 400
  let yearOfEra := (y - era * 400).toNat
  let shifted := if 2 < month then month - 3 else month + 9
  let dayOfYear := (153 * shifted + 2) / 5 + day - 1
  let dayOfEra := yearOfEra * 365 + yearOfEra / 4 - yearOfEra / 100 + dayOfYear
  era * 146097 + dayOfEra - 719468

/-- The instant of a date and a time of day. -/
def ofCalendar (c : Calendar) : Instant :=
  ofUnix
    (dayOfDate c.year c.month c.day * 86400 + ((c.hour * 60 + c.minute) * 60 + c.second : Nat))
    c.nano

/-- A number with at least `width` digits. -/
def digits (width n : Nat) : Text := Text.padZeros width (Text.decimal n)

/-- A year with at least four digits, after its sign. -/
def yearText : Int → Text
  | .ofNat n => digits 4 n
  | .negSucc n => "-" ++ digits 4 (n + 1)

/-- The date. -/
def dateText (c : Calendar) : Text :=
  yearText c.year ++ "-" ++ digits 2 c.month ++ "-" ++ digits 2 c.day

/-- The time of day in whole seconds. -/
def timeText (c : Calendar) : Text :=
  digits 2 c.hour ++ ":" ++ digits 2 c.minute ++ ":" ++ digits 2 c.second

/-- The date and the time of day with three digits after the second. -/
def toMillis (t : Instant) : Text :=
  let c := t.calendar
  dateText c ++ "T" ++ timeText c ++ "." ++ digits 3 (c.nano / 1000000) ++ "Z"

/-- The date and the time of day with as many digits after the second as are needed. -/
def shortText (c : Calendar) : Text :=
  let fraction := ((digits 9 c.nano).reverse.dropWhile (· = '0'.toUInt8)).reverse
  let seconds : Text := dateText c ++ "T" ++ timeText c
  if fraction.isEmpty then seconds else seconds ++ "." ++ fraction

/-- The text of an instant, with as many digits after the second as are needed. -/
def toText (t : Instant) : Text := shortText t.calendar ++ "Z"

/-- The date and the time of day in whole seconds, with a space between them. -/
def toSeconds (t : Instant) : Text :=
  let c := t.calendar
  dateText c ++ " " ++ timeText c

end Instant

end ContractNet
