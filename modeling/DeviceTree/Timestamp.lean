import DeviceTree.Text.Numeral

/-!
# Timestamps

A `Timestamp` is an instant together with the offset of the clock that shows it. Two timestamps are
the same moment when their instants agree, whatever their offsets. The text form is
`year-month-dayThour:minute:second`, the shortest of zero, three, six or nine places that is exact,
and the offset in hours and minutes.
-/

namespace DeviceTree

/-- An instant and the offset under which it is shown. -/
structure Timestamp where
  /-- Seconds since the start of 1970 in universal time. -/
  seconds : Int
  /-- Nanoseconds after that second; a value from a thousand million on lies in a leap second. -/
  nanos : Nat
  /-- Seconds by which the clock shown is ahead of universal time. -/
  offset : Int
deriving Repr, DecidableEq

namespace Timestamp

/-- Equality of timestamps is that of instants. -/
instance : BEq Timestamp := ⟨fun a b => a.seconds == b.seconds && a.nanos == b.nanos⟩

/-! ## The calendar -/

/-- A day of the calendar. -/
structure Date where
  year : Int
  month : Nat
  day : Nat
deriving Repr, DecidableEq

/-- Days from the start of 1970 to a date. Years are counted from March, so that the leap day comes
last. -/
def Date.toDays (d : Date) : Int :=
  let y := if d.month ≤ 2 then d.year - 1 else d.year
  let era := y / 400
  let yearOfEra := y - era * 400
  let monthFromMarch : Int := if d.month > 2 then d.month - 3 else d.month + 9
  let dayOfYear := (153 * monthFromMarch + 2) / 5 + d.day - 1
  let dayOfEra := yearOfEra * 365 + yearOfEra / 4 - yearOfEra / 100 + dayOfYear
  era * 146097 + dayOfEra - 719468

/-- The date a number of days after the start of 1970. -/
def Date.ofDays (days : Int) : Date :=
  let z := days + 719468
  let era := z / 146097
  let dayOfEra := z - era * 146097
  let yearOfEra := (dayOfEra - dayOfEra / 1460 + dayOfEra / 36524 - dayOfEra / 146096) / 365
  let dayOfYear := dayOfEra - (365 * yearOfEra + yearOfEra / 4 - yearOfEra / 100)
  let monthFromMarch := (5 * dayOfYear + 2) / 153
  let day := dayOfYear - (153 * monthFromMarch + 2) / 5 + 1
  let month := if monthFromMarch < 10 then monthFromMarch + 3 else monthFromMarch - 9
  let year := yearOfEra + era * 400
  { year := if month ≤ 2 then year + 1 else year, month := month.toNat, day := day.toNat }

/-- The number of days of a month. -/
def daysInMonth (year : Int) (month : Nat) : Nat :=
  if month == 2 then
    if year % 4 == 0 && (year % 100 != 0 || year % 400 == 0) then 29 else 28
  else if month == 4 || month == 6 || month == 9 || month == 11 then 30
  else 31

/-- The date that the clock shows. -/
def date (t : Timestamp) : Date :=
  Date.ofDays ((t.seconds + t.offset) / 86400)

/-- Nanoseconds since the start of 1970. -/
def totalNanos (t : Timestamp) : Int :=
  t.seconds * 1000000000 + t.nanos

/-- The timestamp some nanoseconds later. -/
def addNanos (t : Timestamp) (nanos : Int) : Timestamp :=
  let total := t.totalNanos + nanos
  { t with seconds := total / 1000000000, nanos := (total % 1000000000).toNat }

/-- The nanoseconds from one timestamp to another. -/
def nanosSince (t earlier : Timestamp) : Int :=
  t.totalNanos - earlier.totalNanos

/-- The same instant under another offset. -/
def shownAt (t : Timestamp) (offset : Int) : Timestamp :=
  { t with offset }

/-! ## Text -/

/-- A number with leading zeros up to the given width. -/
def padded (width n : Nat) : String :=
  let digits := Text.natDigits n
  String.ofList (List.replicate (width - digits.length) '0' ++ digits)

/-- The year: four digits, with a sign when it has more or is negative. -/
def yearText (year : Int) : String :=
  if 0 ≤ year && year ≤ 9999 then padded 4 year.natAbs
  else (if year < 0 then "-" else "+") ++ padded 4 year.natAbs

/-- The fraction of a second with as few groups of three places as are exact. -/
def fractionText (nanos : Nat) : String :=
  if nanos == 0 then ""
  else if nanos % 1000000 == 0 then "." ++ padded 3 (nanos / 1000000)
  else if nanos % 1000 == 0 then "." ++ padded 6 (nanos / 1000)
  else "." ++ padded 9 nanos

/-- The offset in hours and minutes. -/
def offsetText (offset : Int) : String :=
  let minutes := offset.natAbs / 60
  (if offset < 0 then "-" else "+") ++ padded 2 (minutes / 60) ++ ":" ++ padded 2 (minutes % 60)

/-- The text of a timestamp. -/
def toText (t : Timestamp) : String :=
  let d := t.date
  let second := ((t.seconds + t.offset) % 86400).toNat
  let leap := t.nanos / 1000000000
  yearText d.year ++ "-" ++ padded 2 d.month ++ "-" ++ padded 2 d.day ++ "T" ++
    padded 2 (second / 3600) ++ ":" ++ padded 2 (second / 60 % 60) ++ ":" ++
    padded 2 (second % 60 + leap) ++ fractionText (t.nanos % 1000000000) ++ offsetText t.offset

instance : ToString Timestamp := ⟨toText⟩

/-- A number of exactly `width` digits in front, and the rest. -/
def readFixed? (width : Nat) (cs : List Char) : Option (Nat × List Char) :=
  if (cs.take width).length == width then
    (Text.readNat? (cs.take width)).map fun n => (n, cs.drop width)
  else none

/-- The rest after the given character. -/
def skip? (p : Char → Bool) : List Char → Option (List Char)
  | c :: rest => if p c then some rest else none
  | [] => none

/-- A fraction in nanoseconds, places beyond the ninth cut off, and the rest. -/
def readFraction? (cs : List Char) : Option (Nat × List Char) :=
  match cs with
  | '.' :: rest =>
    let digits := rest.takeWhile Char.isDigit
    let nine := (digits ++ List.replicate 9 '0').take 9
    if digits.isEmpty then none
    else (Text.readNat? nine).map fun n => (n, rest.dropWhile Char.isDigit)
  | _ => some (0, cs)

/-- An offset in seconds that ends the text. -/
def readOffset? (cs : List Char) : Option Int :=
  match cs with
  | ['Z'] | ['z'] => some 0
  | sign :: rest => do
    guard (sign == '+' || sign == '-')
    let (hours, rest) ← readFixed? 2 rest
    let (minutes, rest) ← readFixed? 2 (← skip? (· == ':') rest)
    guard (rest.isEmpty && minutes < 60 && hours < 24)
    let seconds : Int := (hours * 60 + minutes) * 60
    some (if sign == '-' then -seconds else seconds)
  | [] => none

/-- The timestamp written by `text`. -/
def parse? (text : String) : Option Timestamp := do
  let (year, cs) ← readFixed? 4 text.toList
  let (month, cs) ← readFixed? 2 (← skip? (· == '-') cs)
  let (day, cs) ← readFixed? 2 (← skip? (· == '-') cs)
  let (hour, cs) ← readFixed? 2 (← skip? (fun c => c == 'T' || c == 't' || c == ' ') cs)
  let (minute, cs) ← readFixed? 2 (← skip? (· == ':') cs)
  let (second, cs) ← readFixed? 2 (← skip? (· == ':') cs)
  let (nanos, cs) ← readFraction? cs
  let offset ← readOffset? cs
  guard (1 ≤ month && month ≤ 12 && 1 ≤ day && day ≤ daysInMonth year month)
  guard (hour < 24 && minute < 60 && second ≤ 60)
  let days := Date.toDays { year, month, day }
  let clock : Int := (hour * 60 + minute) * 60 + min second 59
  some {
    seconds := days * 86400 + clock - offset
    nanos := if second == 60 then 1000000000 + nanos else nanos
    offset }

end Timestamp

end DeviceTree
