set_option autoImplicit false

/-!
# Timestamps

An instant is a number of seconds since the start of 1970 in UTC, with nanoseconds. A leap second
shares its second with the one before it and has a billion nanoseconds more, so that it can only be
the last of a minute. Dates are those of the Gregorian calendar, extended in both directions.

## Main definitions

* `RpcSchema.Calendar.dayNumber`, `RpcSchema.Calendar.ofDayNumber` — dates and days since 1970.
* `RpcSchema.Timestamp` — an instant.
* `RpcSchema.Timestamp.ofMillis?` — the instant a number of milliseconds after the start of 1970.
* `RpcSchema.Timestamp.ofLocal?` — the instant of a date and a time of day at an offset.
-/

namespace RpcSchema

/-! ## The calendar -/

namespace Calendar

/-- A date: year, month from one, day from one. -/
structure Date where
  year : Int
  month : Nat
  day : Nat
deriving DecidableEq

/-- Whether a year has a 29th of February. -/
def isLeapYear (year : Int) : Bool := year % 4 = 0 && (year % 100 ≠ 0 || year % 400 = 0)

/-- The number of days of a month. -/
def daysInMonth (year : Int) (month : Nat) : Nat :=
  if month = 2 then (if isLeapYear year then 29 else 28)
  else if month = 4 ∨ month = 6 ∨ month = 9 ∨ month = 11 then 30
  else 31

/-- Whether a month and a day exist in a year. -/
def isDate (date : Date) : Bool :=
  1 ≤ date.month && date.month ≤ 12 && 1 ≤ date.day &&
    date.day ≤ daysInMonth date.year date.month

/-- **The days since the start of 1970.** Years are counted from March, so that the day that a
leap year adds is its last, in cycles of four hundred years. -/
def dayNumber (date : Date) : Int :=
  let year := if date.month ≤ 2 then date.year - 1 else date.year
  let month : Int := if date.month ≤ 2 then date.month + 9 else (date.month : Int) - 3
  let cycle := year / 400
  let yearOfCycle := year % 400
  let dayOfYear := (153 * month + 2) / 5 + date.day - 1
  cycle * 146097 + yearOfCycle * 365 + yearOfCycle / 4 - yearOfCycle / 100 + dayOfYear - 719468

/-- **The date of a day** that is given by its number of days since the start of 1970. -/
def ofDayNumber (number : Int) : Date :=
  let shifted := number + 719468
  let cycle := shifted / 146097
  let dayOfCycle := shifted % 146097
  let yearOfCycle :=
    (dayOfCycle - dayOfCycle / 1460 + dayOfCycle / 36524 - dayOfCycle / 146096) / 365
  let dayOfYear := dayOfCycle - (365 * yearOfCycle + yearOfCycle / 4 - yearOfCycle / 100)
  let month := (5 * dayOfYear + 2) / 153
  let day := dayOfYear - (153 * month + 2) / 5 + 1
  let year := yearOfCycle + cycle * 400
  if month < 10 then ⟨year, (month + 3).toNat, day.toNat⟩
  else ⟨year + 1, (month - 9).toNat, day.toNat⟩

/-- The first year of the calendar. -/
def firstYear : Int := -262143

/-- The last year of the calendar. -/
def lastYear : Int := 262142

end Calendar

/-! ## Instants -/

namespace Timestamp

/-- The first second that there are instants in: the start of the first year. -/
def firstSecond : Int := -8334601228800

/-- The last second that there are instants in: the end of the last year. -/
def lastSecond : Int := 8210266876799

/-- Whether seconds and nanoseconds make up an instant: the second lies within the calendar, and
nanoseconds reach a billion only in the last second of a minute. -/
def IsInstant (seconds : Int) (nanos : Nat) : Prop :=
  firstSecond ≤ seconds ∧ seconds ≤ lastSecond ∧ nanos < 2000000000 ∧
    (1000000000 ≤ nanos → seconds % 60 = 59)

instance (seconds : Int) (nanos : Nat) : Decidable (IsInstant seconds nanos) :=
  inferInstanceAs (Decidable (_ ∧ _ ∧ _ ∧ (_ → _)))

end Timestamp

/-- **An instant**: seconds since the start of 1970 in UTC, and nanoseconds, of which a leap second
has a billion more. -/
structure Timestamp where
  seconds : Int
  nanos : Nat
  isInstant : Timestamp.IsInstant seconds nanos
deriving DecidableEq

namespace Timestamp

/-- The instant of the given seconds and nanoseconds, if there is one. -/
def ofParts? (seconds : Int) (nanos : Nat) : Option Timestamp :=
  if h : IsInstant seconds nanos then some ⟨seconds, nanos, h⟩ else none

/-- The start of 1970. -/
def epoch : Timestamp := ⟨0, 0, by decide⟩

/-- The instant that lies a number of milliseconds after the start of 1970. -/
def ofMillis? (millis : Int) : Option Timestamp :=
  ofParts? (millis / 1000) ((millis % 1000).toNat * 1000000)

/-- A time of day. Second 60 is a leap second. -/
structure Clock where
  hour : Nat
  minute : Nat
  second : Nat
  nanos : Nat
deriving DecidableEq

/-- Whether a time of day exists. -/
def Clock.isTime (clock : Clock) : Bool :=
  clock.hour ≤ 23 && clock.minute ≤ 59 && clock.second ≤ 60 && clock.nanos < 1000000000

/-- **The instant of a date and a time of day** where clocks are `offset` seconds ahead of UTC. -/
def ofLocal? (date : Calendar.Date) (clock : Clock) (offset : Int) : Option Timestamp :=
  if Calendar.isDate date && clock.isTime && Calendar.firstYear ≤ date.year &&
      date.year ≤ Calendar.lastYear then
    let second := min clock.second 59
    let leap := if clock.second = 60 then 1000000000 else 0
    ofParts?
      (Calendar.dayNumber date * 86400 + clock.hour * 3600 + clock.minute * 60 + second - offset)
      (clock.nanos + leap)
  else none

/-- The date of an instant in UTC. -/
def date (t : Timestamp) : Calendar.Date := Calendar.ofDayNumber (t.seconds / 86400)

/-- The time of day of an instant in UTC. -/
def clock (t : Timestamp) : Clock :=
  let second := (t.seconds % 86400).toNat
  { hour := second / 3600
    minute := second / 60 % 60
    second := if t.nanos < 1000000000 then second % 60 else second % 60 + 1
    nanos := t.nanos % 1000000000 }

end Timestamp

end RpcSchema
