import HollowFleet.Text.Blank
import HollowFleet.Text.Numeral

/-!
# Points in time

A point in time is a number of nanoseconds from the start of 1970 in UTC. A leap second does
not count in that number: a point in one has the number of the point a second before it and a
mark.

In texts a point stands as a date, a `T`, a time of day and an offset. Reading takes fractions
of a second and any offset, and it is lenient: numbers may have fewer digits, blanks may stand
around the parts, and a sign makes room for longer years. Writing gives UTC with whole seconds
(`seconds`) or with six places (`micros`), the rest cut off.

Dates are counted in cycles of 400 years that start in March, so that a leap day is the last
day of its year.

Two points are equal if number and mark are. Writing whole seconds loses what `truncate` cuts off,
which is always cut off towards the past, also before 1970. Cutting off twice is cutting off once
(`truncate_truncate`), which is why an object that was stored and read once does not change any
more.
-/

namespace HollowFleet

open Text

/-- A point in time. -/
@[ext]
structure Timestamp where
  /-- Nanoseconds from the start of 1970 in UTC, leap seconds not counted. -/
  nanos : Int
  /-- Whether the point lies in a leap second, one second after what `nanos` says. -/
  leap : Bool := false
deriving DecidableEq, Repr, Inhabited

namespace Timestamp

/-- Nanoseconds in a second. -/
def second : Int := 1000000000

/-- Nanoseconds in a millisecond. -/
def millisecond : Int := 1000000

/-- Seconds in a day. -/
def day : Int := 86400

/-- The point that many milliseconds from the start of 1970. -/
def ofMillis (ms : Int) : Timestamp := { nanos := ms * millisecond }

/-- The point that many milliseconds later. -/
def addMillis (t : Timestamp) (ms : Int) : Timestamp := { nanos := t.nanos + ms * millisecond }

/-- The point that many seconds later. -/
def addSeconds (t : Timestamp) (s : Int) : Timestamp := { nanos := t.nanos + s * second }

/-- The start of the second that holds the point. -/
def truncate (t : Timestamp) : Timestamp := { t with nanos := t.nanos.fdiv second * second }

@[simp]
theorem truncate_truncate (t : Timestamp) : t.truncate.truncate = t.truncate := by
  have h : (t.nanos.fdiv second * second).fdiv second = t.nanos.fdiv second :=
    Int.mul_fdiv_cancel _ (by decide)
  simp [truncate, h]

/-! ### The calendar -/

/-- A date. -/
structure Date where
  /-- The year. -/
  year : Int
  /-- The month, from 1. -/
  month : Nat
  /-- The day of the month, from 1. -/
  day : Nat
deriving DecidableEq, Repr

/-- Whether the year has a leap day. -/
def isLeap (year : Int) : Bool :=
  decide (year % 4 = 0) && (decide (year % 100 ≠ 0) || decide (year % 400 = 0))

/-- The number of days of a month. -/
def daysInMonth (year : Int) (month : Nat) : Nat :=
  match month with
  | 2 => if isLeap year then 29 else 28
  | 4 | 6 | 9 | 11 => 30
  | _ => 31

/-- Days from the start of 1970 to a date. -/
def dayNumber (date : Date) : Int :=
  let year := if date.month ≤ 2 then date.year - 1 else date.year
  let cycle := year.fdiv 400
  let yearOfCycle := year - cycle * 400
  let monthOfYear : Int := ((date.month + 9) % 12 : Nat)
  let dayOfYear := (153 * monthOfYear + 2) / 5 + date.day - 1
  let dayOfCycle := yearOfCycle * 365 + yearOfCycle / 4 - yearOfCycle / 100 + dayOfYear
  cycle * 146097 + dayOfCycle - 719468

/-- The date that many days from the start of 1970. -/
def dateOfDay (number : Int) : Date :=
  let shifted := number + 719468
  let cycle := shifted.fdiv 146097
  let dayOfCycle := shifted - cycle * 146097
  let yearOfCycle :=
    (dayOfCycle - dayOfCycle / 1460 + dayOfCycle / 36524 - dayOfCycle / 146096) / 365
  let dayOfYear := dayOfCycle - (365 * yearOfCycle + yearOfCycle / 4 - yearOfCycle / 100)
  let monthOfYear := (5 * dayOfYear + 2) / 153
  let dayOfMonth := (dayOfYear - (153 * monthOfYear + 2) / 5 + 1).toNat
  let month := (if monthOfYear < 10 then monthOfYear + 3 else monthOfYear - 9).toNat
  let year := yearOfCycle + cycle * 400
  ⟨if month ≤ 2 then year + 1 else year, month, dayOfMonth⟩

/-! ### Writing -/

/-- The digits of `n`, filled up with zeros on the left to `width`. -/
def padded (width n : Nat) : String :=
  let digits := Nat.toDigits 10 n
  String.ofList (List.replicate (width - digits.length) '0' ++ digits)

/-- A year: four digits, and more only with a sign. -/
def yearText (year : Int) : String :=
  if 0 ≤ year then (if year < 10000 then "" else "+") ++ padded 4 year.toNat
  else "-" ++ padded 4 year.natAbs

/-- Date and time of day up to the whole seconds. -/
def wholeText (t : Timestamp) : String :=
  let seconds := t.nanos.fdiv second
  let days := seconds.fdiv day
  let ofDay := (seconds - days * day).toNat
  let date := dateOfDay days
  let ofMinute := ofDay % 60 + if t.leap then 1 else 0
  yearText date.year ++ "-" ++ padded 2 date.month ++ "-" ++ padded 2 date.day ++ "T" ++
    padded 2 (ofDay / 3600) ++ ":" ++ padded 2 (ofDay / 60 % 60) ++ ":" ++ padded 2 ofMinute

/-- The point in whole seconds. -/
def seconds (t : Timestamp) : String := t.wholeText ++ "Z"

/-- The point with six places. -/
def micros (t : Timestamp) : String :=
  t.wholeText ++ "." ++ padded 6 ((t.nanos - t.nanos.fdiv second * second) / 1000).toNat ++ "Z"

/-! ### Reading -/

/-- Drops the blanks in front. -/
def skipBlanks (cs : List Char) : List Char := cs.dropWhile isBlank

/-- Takes a numeral of at most `width` digits off the front. -/
def takeNumeral? (width : Nat) (cs : List Char) : Option (Nat × List Char) :=
  let digits := (cs.take width).takeWhile isDigit
  if digits = [] then none else some (digitsValue digits, cs.drop digits.length)

/-- Takes exactly two digits off the front. -/
def takeTwo? : List Char → Option (Nat × List Char)
  | c :: d :: rest =>
    if isDigit c && isDigit d then some (digitsValue [c, d], rest) else none
  | _ => none

/-- Takes one of `allowed` off the front. -/
def takeOne? (allowed : List Char) : List Char → Option (List Char)
  | [] => none
  | c :: rest => if allowed.contains c then some rest else none

/-- Takes a part of a date or a time off the front: after blanks, one or two digits. -/
def takePart? (cs : List Char) : Option (Nat × List Char) := takeNumeral? 2 (skipBlanks cs)

/-- Takes what divides two parts off the front, after blanks. -/
def takeMark? (mark : Char) (cs : List Char) : Option (List Char) :=
  takeOne? [mark] (skipBlanks cs)

/-- Takes a year off the front, after blanks: up to four digits, or a sign and any number. -/
def takeYear? (cs : List Char) : Option (Int × List Char) :=
  match skipBlanks cs with
  | '-' :: rest => (takeNumeral? rest.length rest).map fun r ↦ (-(r.1 : Int), r.2)
  | '+' :: rest => (takeNumeral? rest.length rest).map fun r ↦ ((r.1 : Int), r.2)
  | rest => (takeNumeral? 4 rest).map fun r ↦ ((r.1 : Int), r.2)

/-- Takes a fraction of a second off the front, in nanoseconds; places past the ninth are
cut off. -/
def takeNanos? : List Char → Option (Nat × List Char)
  | '.' :: rest =>
    let digits := rest.takeWhile isDigit
    if digits = [] then none
    else
      let kept := digits.take 9
      some (digitsValue kept * Nat.pow 10 (9 - kept.length), rest.dropWhile isDigit)
  | cs => some (0, cs)

/-- The characters of a minus: the common one and the mathematical one. -/
def minuses : List Char := ['-', '\u2212']

/-- Takes an offset to UTC off the front, in seconds. -/
def takeOffset? : List Char → Option (Int × List Char)
  | [] => none
  | c :: rest =>
    if c = 'Z' ∨ c = 'z' then some (0, rest)
    else if ((c :: rest).take 3).map Char.toLower = ['u', 't', 'c'] then some (0, rest.drop 2)
    else do
      guard (c = '+' ∨ c ∈ minuses)
      let (hours, rest) ← takeTwo? rest
      let (minutes, rest) ← takeTwo? (rest.dropWhile fun d ↦ decide (d = ':') || isBlank d)
      guard (hours < 24 ∧ minutes < 60)
      let size : Int := (hours * 3600 + minutes * 60 : Nat)
      return (if c = '+' then size else -size, rest)

/-- The years that a date may lie in. -/
def isYear (year : Int) : Bool := decide (-262143 ≤ year) && decide (year ≤ 262142)

/-- Reads a date, a time of day and an offset. -/
def ofChars? (cs : List Char) : Option Timestamp := do
  let (year, cs) ← takeYear? cs
  let cs ← takeMark? '-' cs
  let (month, cs) ← takePart? cs
  let cs ← takeMark? '-' cs
  let (dayOfMonth, cs) ← takePart? cs
  let cs ← takeOne? ['T', 't', ' '] cs
  let (hours, cs) ← takePart? cs
  let cs ← takeMark? ':' cs
  let (minutes, cs) ← takePart? cs
  let cs ← takeMark? ':' cs
  let (secs, cs) ← takePart? cs
  let (nanos, cs) ← takeNanos? cs
  let (offset, cs) ← takeOffset? (skipBlanks cs)
  guard (skipBlanks cs = [])
  guard (isYear year ∧ 1 ≤ month ∧ month ≤ 12 ∧ 1 ≤ dayOfMonth ∧
    dayOfMonth ≤ daysInMonth year month)
  guard (hours < 24 ∧ minutes < 60 ∧ secs ≤ 60)
  let days := dayNumber ⟨year, month, dayOfMonth⟩
  let ofDay : Int := (hours * 3600 + minutes * 60 + min secs 59 : Nat)
  let seconds := days * day + ofDay - offset
  guard (isYear (dateOfDay (seconds.fdiv day)).year)
  return { nanos := seconds * second + nanos, leap := decide (secs = 60) }

/-- Reads a point in time. -/
def parse? (text : String) : Option Timestamp := ofChars? text.toList

end Timestamp

end HollowFleet
