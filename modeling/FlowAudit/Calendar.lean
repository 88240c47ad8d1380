import FlowAudit.Decimal.Literal
import FlowAudit.Text.Blank
/-!
Times of day in the Gregorian calendar, as milliseconds since the beginning of the year 1970.
Reading follows the profile of timestamps with a date, a time and an offset; writing always uses
the offset zero and three decimals.
-/
namespace FlowAudit.Calendar

/-- Days from the beginning of the year zero to the first of January of a year. -/
def daysBeforeYear (year : Nat) : Nat :=
  365 * year + (year + 3) / 4 - (year + 99) / 100 + (year + 399) / 400

/-- Whether a year has a leap day. -/
def isLeap (year : Nat) : Bool :=
  year % 4 == 0 && (year % 100 != 0 || year % 400 == 0)

/-- Lengths of the months of a year. -/
def monthLengths (year : Nat) : List Nat :=
  [31, if isLeap year then 29 else 28, 31, 30, 31, 30, 31, 31, 30, 31, 30, 31]

/-- The length of a month, counted from one. -/
def monthLength (year month : Nat) : Nat :=
  (monthLengths year)[month - 1]?.getD 0

/-- Days of a year before one of its months, counted from one. -/
def daysBeforeMonth (year month : Nat) : Nat :=
  ((monthLengths year).take (month - 1)).foldr (· + ·) 0

/-- Days from the beginning of the year zero to the beginning of the year 1970. -/
def epochDay : Nat :=
  719528

/-- Month and day of a day of the year, counted from zero. -/
def monthAndDay : List Nat → Nat → Nat → Nat × Nat
  | [], month, day => (month, day + 1)
  | length :: rest, month, day =>
    if day < length then (month, day + 1) else monthAndDay rest (month + 1) (day - length)

/-- The year of a day counted from the beginning of the year zero. The estimate from the mean
length of a year is at most one too large. -/
def yearOfDay (day : Nat) : Nat :=
  let estimate := (day * 400 + 399) / 146097
  if daysBeforeYear estimate ≤ day then estimate else estimate - 1

/-- Number text with leading zeros. -/
def padded (width n : Nat) : List Char :=
  Decimal.paddedDigits width n

/-- The last year that has a written form. -/
def lastYear : Nat :=
  262142

/-- Writes a time. Years of more than four digits carry a plus sign, and times after the last year
are written as a plain number. -/
def text (ms : Nat) : String :=
  let day := epochDay + ms / 86400000
  let year := yearOfDay day
  if lastYear < year then String.ofList (Decimal.decimalDigits ms)
  else
    let (month, dayOfMonth) := monthAndDay (monthLengths year) 1 (day - daysBeforeYear year)
    let rest := ms % 86400000
    let sign := if 9999 < year then ['+'] else []
    String.ofList <| sign ++ padded 4 year ++ ['-'] ++ padded 2 month ++ ['-'] ++
      padded 2 dayOfMonth ++ ['T'] ++ padded 2 (rest / 3600000) ++ [':'] ++
      padded 2 (rest / 60000 % 60) ++ [':'] ++ padded 2 (rest / 1000 % 60) ++ ['.'] ++
      padded 3 (rest % 1000) ++ ['Z']

/-- Reads exactly `count` digits. -/
def readDigits? (count : Nat) (cs : List Char) : Option (Nat × List Char) :=
  let digits := cs.take count
  if digits.length = count ∧ digits.all Char.isDigit then
    some (Decimal.natOfDigits digits, cs.drop count)
  else none

/-- Reads one character that satisfies a condition. -/
def readMark? (accept : Char → Bool) : List Char → Option (List Char)
  | c :: rest => if accept c then some rest else none
  | [] => none

/-- Reads the decimals of a second as milliseconds; further decimals are dropped. -/
def readFraction? : List Char → Option (Nat × List Char)
  | '.' :: rest =>
    let (digits, rest) := Decimal.spanDigits rest
    if digits.isEmpty then none
    else some (Decimal.natOfDigits ((digits ++ ['0', '0']).take 3), rest)
  | rest => some (0, rest)

/-- Reads an offset in minutes up to the end of the text. The hour may have any two digits up to
23, and a minus may be written as a hyphen or as the minus sign. -/
def readOffset? : List Char → Option Int
  | ['Z'] => some 0
  | ['z'] => some 0
  | sign :: rest => do
    let negative ← if sign = '+' then some false
      else if sign = '-' ∨ sign = '\u2212' then some true else none
    let (hours, rest) ← readDigits? 2 rest
    let rest ← readMark? (· == ':') rest
    let (minutes, rest) ← readDigits? 2 rest
    if 23 < hours ∨ 59 < minutes ∨ !rest.isEmpty then none
    let offset : Int := hours * 60 + minutes
    return if negative then -offset else offset
  | [] => none

/-- Reads a timestamp. A sixtieth second counts as the first one of the next minute. Times before
the year 1970 are refused. -/
def read? (cs : List Char) : Option Nat := do
  let (year, cs) ← readDigits? 4 cs
  let cs ← readMark? (· == '-') cs
  let (month, cs) ← readDigits? 2 cs
  let cs ← readMark? (· == '-') cs
  let (day, cs) ← readDigits? 2 cs
  let cs ← readMark? (fun c => c == 'T' || c == 't' || c == ' ') cs
  let (hour, cs) ← readDigits? 2 cs
  let cs ← readMark? (· == ':') cs
  let (minute, cs) ← readDigits? 2 cs
  let cs ← readMark? (· == ':') cs
  let (second, cs) ← readDigits? 2 cs
  let (fraction, cs) ← readFraction? cs
  let offset ← readOffset? cs
  if month = 0 ∨ 12 < month ∨ day = 0 ∨ monthLength year month < day then none
  if 23 < hour ∨ 59 < minute ∨ 60 < second then none
  let days : Int := (daysBeforeYear year + daysBeforeMonth year month + (day - 1) : Nat) - epochDay
  let minutes : Int := days * 1440 + (hour * 60 + minute : Nat) - offset
  let ms : Int := minutes * 60000 + (second * 1000 + fraction : Nat)
  if ms < 0 then none else some ms.toNat

/-- Reads a timestamp after trimming the text. -/
def parse? (s : String) : Option Nat :=
  read? (Text.trim s.toList)

end FlowAudit.Calendar
