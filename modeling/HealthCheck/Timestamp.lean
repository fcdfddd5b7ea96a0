import HealthCheck.Number.Integer

/-!
# Timestamps

Points in time in UTC, to the nanosecond, as calendar fields of the proleptic Gregorian calendar. A
second numbered 60 is a leap second.

Timestamps are read from dates and times in the manner of RFC 3339 with some liberty: a blank may
stand for the `T`, fields may have fewer digits, blanks may precede fields, and an offset may lack
its colon. They are written with a `Z`, and with a fraction of three, six or nine digits where there
is one.
-/

namespace HealthCheck

/-! ## The calendar -/

/-- A year of 366 days. -/
def isLeapYear (year : Int) : Bool := year % 4 == 0 && (year % 100 != 0 || year % 400 == 0)

/-- The number of days in a month, counted from one. -/
def daysInMonth (year : Int) (month : Nat) : Nat :=
  if month = 2 then (if isLeapYear year then 29 else 28)
  else if month = 4 ∨ month = 6 ∨ month = 9 ∨ month = 11 then 30
  else 31

/-- A day of the calendar. -/
structure Date where
  year : Int
  month : Nat
  day : Nat
deriving DecidableEq, Repr

namespace Date

/-- The first year that is supported. -/
def firstYear : Int := -262143

/-- The last year that is supported. -/
def lastYear : Int := 262142

/-- The day exists and its year is supported. -/
def isValid (d : Date) : Bool :=
  firstYear ≤ d.year && d.year ≤ lastYear && 1 ≤ d.month && d.month ≤ 12 && 1 ≤ d.day &&
    d.day ≤ daysInMonth d.year d.month

/-- The day after. -/
def next (d : Date) : Date :=
  if d.day < daysInMonth d.year d.month then { d with day := d.day + 1 }
  else if d.month < 12 then ⟨d.year, d.month + 1, 1⟩
  else ⟨d.year + 1, 1, 1⟩

/-- The day before. -/
def previous (d : Date) : Date :=
  if 1 < d.day then { d with day := d.day - 1 }
  else if 1 < d.month then ⟨d.year, d.month - 1, daysInMonth d.year (d.month - 1)⟩
  else ⟨d.year - 1, 12, 31⟩

/-- The day with a number, where 1970-01-01 has the number zero. The count is by years that start in
March, so that a leap day is the last day of its year, and by eras of 400 years, which all have the
same number of days. -/
def ofNumber (number : Int) : Date :=
  let days := number + 719468
  let era := days / 146097
  let day := (days % 146097).toNat
  let year := (day - day / 1460 + day / 36524 - day / 146096) / 365
  let dayOfYear := day - (365 * year + year / 4 - year / 100)
  let month := (5 * dayOfYear + 2) / 153
  { year := era * 400 + year + (if month < 10 then 0 else 1)
    month := if month < 10 then month + 3 else month - 9
    day := dayOfYear - (153 * month + 2) / 5 + 1 }

example : ofNumber 0 = ⟨1970, 1, 1⟩ ∧ ofNumber (-1) = ⟨1969, 12, 31⟩ := by decide
example : ofNumber 11016 = ⟨2000, 2, 29⟩ ∧ ofNumber 20513 = ⟨2026, 3, 1⟩ := by decide

end Date

/-- A point in time: a day, a minute of it, a second of that and a nanosecond. -/
structure Timestamp where
  date : Date
  minute : Nat
  second : Nat
  nano : Nat
  date_valid : date.isValid = true
  minute_lt : minute < 1440
  second_le : second ≤ 60
  nano_lt : nano < 1000000000
deriving DecidableEq

namespace Timestamp

/-- The point in time with the given fields, where it exists. -/
def ofFields? (date : Date) (minute second nano : Nat) : Option Timestamp :=
  if h : date.isValid = true ∧ minute < 1440 ∧ second ≤ 60 ∧ nano < 1000000000 then
    some ⟨date, minute, second, nano, h.1, h.2.1, h.2.2.1, h.2.2.2⟩
  else none

/-- The point in time that is so many nanoseconds after the start of 1970. -/
def ofNanoseconds? (n : Int) : Option Timestamp :=
  let seconds := n / 1000000000
  let second := (seconds % 86400).toNat
  ofFields? (Date.ofNumber (seconds / 86400)) (second / 60) (second % 60) (n % 1000000000).toNat

/-! ## Writing -/

/-- A number in at least `width` digits. -/
def padded (width n : Nat) : Text :=
  let digits := Text.ofNat n
  List.replicate (width - digits.length) '0' ++ digits

/-- A year in four digits, or with its sign where it is outside of 0 to 9999. -/
def writeYear (year : Int) : Text :=
  if 0 ≤ year ∧ year ≤ 9999 then padded 4 year.natAbs
  else (if year < 0 then '-' else '+') :: padded 4 year.natAbs

/-- The fraction of a second, in the fewest groups of three digits that hold it. -/
def writeFraction (nano : Nat) : Text :=
  if nano = 0 then []
  else if nano % 1000000 = 0 then '.' :: padded 3 (nano / 1000000)
  else if nano % 1000 = 0 then '.' :: padded 6 (nano / 1000)
  else '.' :: padded 9 nano

/-- The text of a point in time. -/
def write (t : Timestamp) : Text :=
  writeYear t.date.year ++ '-' :: padded 2 t.date.month ++ '-' :: padded 2 t.date.day ++
    'T' :: padded 2 (t.minute / 60) ++ ':' :: padded 2 (t.minute % 60) ++
    ':' :: padded 2 t.second ++ writeFraction t.nano ++ ['Z']

/-! ## Reading -/

/-- Reads a number of one to `width` digits, after blanks. -/
def readNumber (width : Nat) (t : Text) : Option (Nat × Text) :=
  let t := Text.trimStart t
  let digits := (t.take width).takeWhile Char.isDigit
  if digits = [] then none else some (Text.value 10 digits, t.drop digits.length)

/-- Reads a year: up to four digits, or a sign and any number of digits. -/
def readYear (t : Text) : Option (Int × Text) :=
  match Text.trimStart t with
  | '-' :: rest => (readSigned rest).map fun (n, rest) => (-n, rest)
  | '+' :: rest => readSigned rest
  | rest => (readNumber 4 rest).map fun (n, rest) => (n, rest)
where
  /-- The digits behind a sign. -/
  readSigned (t : Text) : Option (Int × Text) :=
    let digits := t.takeWhile Char.isDigit
    if digits = [] then none else some (Text.value 10 digits, t.drop digits.length)

/-- Reads one character, after blanks. -/
def readMark (c : Char) (t : Text) : Option Text :=
  match Text.trimStart t with
  | d :: rest => if c = d then some rest else none
  | [] => none

/-- Reads a fraction of a second, if there is one. Digits beyond the ninth do not count. -/
def readFraction : Text → Option (Nat × Text)
  | '.' :: rest =>
    let digits := rest.takeWhile Char.isDigit
    let counted := digits.take 9
    if digits = [] then none
    else some (Text.value 10 counted * Nat.pow 10 (9 - counted.length), rest.drop digits.length)
  | rest => some (0, rest)

/-- Two digits, the first at most `greatest`. -/
def twoDigits? (greatest : Char) : Text → Option (Nat × Text)
  | a :: b :: rest =>
    if a.isDigit ∧ b.isDigit ∧ a ≤ greatest then some (Text.value 10 [a, b], rest) else none
  | _ => none

/-- Reads an offset from UTC, in minutes: a sign, hours, colons and blanks, minutes. -/
def readOffset : Text → Option (Int × Text)
  | 'Z' :: rest => some (0, rest)
  | 'z' :: rest => some (0, rest)
  | sign :: rest =>
    if Text.sameIgnoringCase (sign :: rest.take 2) "utc".toList then some (0, rest.drop 2)
    else do
      let negative ←
        if sign = '+' then some false
        -- The minus sign stands beside the hyphen.
        else if sign = '-' ∨ sign = '\u2212' then some true
        else none
      let (hours, rest) ← twoDigits? '9' rest
      let (minutes, rest) ← twoDigits? '5' (rest.dropWhile fun c => c == ':' || Text.isBlank c)
      let offset : Int := hours * 60 + minutes
      if offset < 1440 then some (if negative then -offset else offset, rest) else none
  | [] => none

/-- The point in time of a local time at an offset of less than a day. -/
def ofLocal? (date : Date) (minute second nano : Nat) (offset : Int) : Option Timestamp :=
  -- The offset is shorter than a day, so the day in UTC is the same or a neighbour.
  let utc : Int := minute - offset
  if utc < 0 then ofFields? date.previous (utc + 1440).toNat second nano
  else if utc < 1440 then ofFields? date utc.toNat second nano
  else ofFields? date.next (utc - 1440).toNat second nano

/-- Reads a date: year, month and day. -/
def readDate (t : Text) : Option (Date × Text) := do
  let (year, t) ← readYear t
  let (month, t) ← readNumber 2 (← readMark '-' t)
  let (day, t) ← readNumber 2 (← readMark '-' t)
  return (⟨year, month, day⟩, t)

/-- Reads what stands between a date and a time. -/
def readSeparator : Text → Option Text
  | c :: rest => if c = 'T' ∨ c = 't' ∨ c = ' ' then some rest else none
  | [] => none

/-- Reads a point in time. -/
def read? (t : Text) : Option Timestamp := do
  let (date, t) ← readDate t
  let (hour, t) ← readNumber 2 (← readSeparator t)
  let (minute, t) ← readNumber 2 (← readMark ':' t)
  let (second, t) ← readNumber 2 (← readMark ':' t)
  let (nano, t) ← readFraction t
  let (offset, t) ← readOffset (Text.trimStart t)
  if Text.trimStart t = [] ∧ date.isValid ∧ hour < 24 ∧ minute < 60 then
    ofLocal? date (hour * 60 + minute) second nano offset
  else none

example : (read? "2024-02-29 23:30:00.5-01:00".toList).map write =
    some "2024-03-01T00:30:00.500Z".toList := by decide +kernel

end Timestamp

end HealthCheck
