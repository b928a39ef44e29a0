import ContractNet.Time.Instant

/-!
# Times in zones

A time is an instant as the clocks of some zone show it: one instant is shown by many times, and
`ZonedTime.utc` is the one in universal time.  A text of a time says what the clocks show and,
behind it, how far they are from universal time, so texts are ordered as instants are only among
times of one zone.

* `ZonedTime.toFixed` writes a time with nine digits after the second, and `ZonedTime.parseFixed`
  reads it back;
* `ZonedTime.toText` writes as many digits as are needed.
-/

namespace ContractNet

/-- An instant as clocks show it. -/
structure ZonedTime where
  instant : Instant
  /-- How many seconds the clocks are ahead of universal time. -/
  offset : Int
deriving DecidableEq

/-- An instant alone is shown in universal time. -/
instance : Coe Instant ZonedTime := ⟨fun t => ⟨t, 0⟩⟩

/-- Where an instant is asked for, it does not matter which clocks show it. -/
instance : Coe ZonedTime Instant := ⟨ZonedTime.instant⟩

namespace ZonedTime

open Instant (digits dateText timeText shortText)

/-- The same instant in universal time. -/
def utc (t : ZonedTime) : ZonedTime := t.instant

/-- The instant that clocks in universal time show as these show theirs. -/
def shown (t : ZonedTime) : Instant := t.instant.addSeconds t.offset

/-- The date and the time of day that the clocks show. -/
def calendar (t : ZonedTime) : Calendar := t.shown.calendar

/-! ### Texts -/

/-- An offset from universal time in hours and minutes, its seconds left out; `Z` if there is
none. -/
def offsetText (offset : Int) : Text :=
  if offset = 0 then "Z"
  else
    let minutes := offset.tdiv 60
    let sign : Text := if minutes < 0 then "-" else "+"
    sign ++ digits 2 (minutes.natAbs / 60) ++ ":" ++ digits 2 (minutes.natAbs % 60)

/-- The date, the time of day with nine digits after the second, and the offset. -/
def toFixed (t : ZonedTime) : Text :=
  let c := t.calendar
  dateText c ++ "T" ++ timeText c ++ "." ++ digits 9 c.nano ++ offsetText t.offset

/-- The date, the time of day with as many digits after the second as are needed, and the offset. -/
def toText (t : ZonedTime) : Text := shortText t.calendar ++ offsetText t.offset

/-! ### Reading -/

/-- Where a text is no time with nine digits after the second: what is left there, and what should
stand there. -/
structure ParseError where
  rest : Text
  expected : Text
deriving DecidableEq

/-- The offset that a text names: `Z`, or a sign, two digits of hours, a colon and two digits of
minutes. -/
def offsetOfText? : Text → Option Int
  -- `Z`
  | [0x5a] => some 0
  -- a colon between two digits and two digits
  | [sign, h, h', 0x3a, m, m'] =>
    let hours := Text.digitsValue [h, h']
    let minutes := Text.digitsValue [m, m']
    let offset : Int := ((hours * 60 + minutes) * 60 : Nat)
    if !([h, h', m, m'].all Text.isDigit) || 24 < hours || 60 < minutes then none
    else if sign = '+' then some offset
    else if sign = '-' then some (-offset)
    else none
  | _ => none

/-- Read a time with nine digits after the second, for a year of four digits. -/
def parseFixed (t : Text) : Except ParseError ZonedTime :=
  let year := t.take 4
  if year.length < 4 || !year.all Text.isDigit then .error ⟨t, "2006"⟩
  else if (t.drop 4).head? ≠ some '-'.toUInt8 then .error ⟨t.drop 4, "-"⟩
  else
    let number (start width : Nat) : Nat := Text.digitsValue ((t.drop start).take width)
    let shown := Instant.ofCalendar
      ⟨number 0 4, number 5 2, number 8 2, number 11 2, number 14 2, number 17 2, number 20 9⟩
    match offsetOfText? (t.drop 29) with
    | some offset => .ok ⟨shown.addSeconds (-offset), offset⟩
    | none => .error ⟨t.drop 29, "Z07:00"⟩

end ZonedTime

end ContractNet
