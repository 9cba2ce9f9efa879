/-! # Instants

A point in time is a number of seconds since the start of 1970 and a number of nanoseconds. During a
leap second the nanoseconds exceed a second. Days are counted from the first of March of the year 0, so
that a leap day ends its year, and in eras of four hundred years, after which the calendar repeats.
-/

namespace ProtoSchema

structure Date where
  year : Int
  month : Nat
  day : Nat
deriving DecidableEq, Repr

namespace Date

def isLeapYear (year : Int) : Bool := year % 4 = 0 && (year % 100 ≠ 0 || year % 400 = 0)

def daysInMonth (year : Int) (month : Nat) : Nat :=
  if month = 2 then if isLeapYear year then 29 else 28
  else if month = 4 || month = 6 || month = 9 || month = 11 then 30
  else 31

def minYear : Int := -262143

def maxYear : Int := 262142

def isValid (d : Date) : Bool :=
  minYear ≤ d.year && d.year ≤ maxYear && 1 ≤ d.month && d.month ≤ 12
    && 1 ≤ d.day && d.day ≤ daysInMonth d.year d.month

def daysPerEra : Nat := 146097

/-- The days from the first of March of the year 0 to the start of 1970. -/
def epochDay : Int := 719468

/-- The days of a year before the month that is `m` months after March. -/
def daysBeforeMonth (m : Nat) : Nat := (153 * m + 2) / 5

/-- The days of an era before its year `y`. -/
def daysBeforeYear (y : Nat) : Nat := y * 365 + y / 4 - y / 100

/-- The number of a day; the first of 1970 has number 0. -/
def toDays (d : Date) : Int :=
  let y := if d.month ≤ 2 then d.year - 1 else d.year
  let inEra := daysBeforeYear (y % 400).toNat + daysBeforeMonth ((d.month + 9) % 12) + (d.day - 1)
  y / 400 * daysPerEra + inEra - epochDay

/-- The year of an era that holds its given day. -/
def yearOfDay (n : Nat) : Nat := (n - n / 1460 + n / 36524 - n / 146096) / 365

def ofDays (n : Int) : Date :=
  let z := n + epochDay
  let inEra := (z % daysPerEra).toNat
  let y := yearOfDay inEra
  let inYear := inEra - daysBeforeYear y
  let m := (5 * inYear + 2) / 153
  let month := if m < 10 then m + 3 else m - 9
  let year := z / daysPerEra * 400 + y
  ⟨if month ≤ 2 then year + 1 else year, month, inYear - daysBeforeMonth m + 1⟩

end Date

structure Instant where
  seconds : Int
  nanos : Nat
deriving DecidableEq, Repr

namespace Instant

def epoch : Instant := ⟨0, 0⟩

def secondsPerDay : Nat := 86400

def nanosPerSecond : Nat := 1000000000

def minSeconds : Int := -8334601228800

def maxSeconds : Int := 8210266876799

/-- Whether an instant is in the calendar; a leap second follows a second 59. -/
def isValid (t : Instant) : Bool :=
  minSeconds ≤ t.seconds && t.seconds ≤ maxSeconds && t.nanos < 2 * nanosPerSecond
    && (t.nanos < nanosPerSecond || t.seconds % 60 = 59)

def ofParts? (seconds : Int) (nanos : Nat) : Option Instant :=
  let t : Instant := ⟨seconds, nanos⟩
  if t.isValid then some t else none

def truncate (t : Instant) : Instant := ⟨t.seconds, t.nanos / 1000000 * 1000000⟩

/-- At least `width` digits. -/
def padded (width n : Nat) : List Char :=
  let digits := Nat.toDigits 10 n
  List.replicate (width - digits.length) '0' ++ digits

/-- Four digits, and a sign in front if they are not enough. -/
def yearText (year : Int) : List Char :=
  if year < 0 then '-' :: padded 4 year.natAbs
  else if year ≤ 9999 then padded 4 year.toNat
  else '+' :: padded 4 year.toNat

def dateText (d : Date) : List Char :=
  yearText d.year ++ '-' :: padded 2 d.month ++ '-' :: padded 2 d.day

/-- The time of day; a leap second is written as second 60. -/
def timeText (inDay nanos : Nat) : List Char :=
  padded 2 (inDay / 3600) ++ ':' :: padded 2 (inDay / 60 % 60)
    ++ ':' :: padded 2 (inDay % 60 + nanos / nanosPerSecond)
    ++ '.' :: padded 3 (nanos % nanosPerSecond / 1000000)

def formatChars (t : Instant) : List Char :=
  dateText (Date.ofDays (t.seconds / secondsPerDay))
    ++ 'T' :: timeText (t.seconds % secondsPerDay).toNat t.nanos ++ ['Z']

/-- Date and time in UTC with milliseconds, as in `2024-05-01T10:00:00.000Z`. -/
def format (t : Instant) : String := String.ofList t.formatChars

end Instant

end ProtoSchema
