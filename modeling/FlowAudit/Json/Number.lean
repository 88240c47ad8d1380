import FlowAudit.Decimal.Literal
import FlowAudit.Json
/-!
Numbers in JSON text. Whole numbers that fit a word are exact. All others are the quotient or the
product of a word with one power of ten, so the last bit of a long fraction may differ from the
nearest double precision number.
-/
namespace FlowAudit.JsonNumber

/-- The largest significand. -/
def largestSignificand : Nat :=
  UInt64.size - 1

/-- Appends digits to a significand while it fits a word. Returns the significand and the count of
digits appended; the digits after them are dropped. -/
def absorbDigits (significand : Nat) : List Char → Nat × Nat
  | [] => (significand, 0)
  | c :: rest =>
    let next := significand * 10 + (c.toNat - '0'.toNat)
    if next ≤ largestSignificand then
      let (result, count) := absorbDigits next rest
      (result, count + 1)
    else (significand, 0)

/-- A power of ten as a floating-point number. -/
def powerOfTen (exponent : Nat) : Float :=
  Float.ofScientific 1 false exponent

/-- The number `significand * 10 ^ exponent`, with one rounding for the power and one for the
product or quotient. Very small numbers are divided twice; a number too large for the format is
refused. -/
def scale? (significand : Nat) (exponent : Int) : Option Float :=
  let x := Float.ofNat significand
  let magnitude := exponent.natAbs
  if 0 ≤ exponent then
    if magnitude ≤ 308 then
      let product := x * powerOfTen magnitude
      if product.isInf then none else some product
    else if significand = 0 then some x
    else none
  else if magnitude ≤ 308 then some (x / powerOfTen magnitude)
  else if magnitude ≤ 616 then some (x / powerOfTen 308 / powerOfTen (magnitude - 308))
  else some 0.0

/-- The parts of a number in text. The fraction and the exponent are absent or not empty. -/
structure Notation where
  negative : Bool
  whole : List Char
  fraction : List Char
  exponent? : Option (Bool × List Char)

/-- Splits a number from the text behind it. A leading zero stands alone. -/
def Notation.read? (cs : List Char) : Option (Notation × List Char) := do
  let (negative, rest) := match cs with
    | '-' :: rest => (true, rest)
    | rest => (false, rest)
  let (whole, rest) := Decimal.spanDigits rest
  if whole.isEmpty ∨ (whole.head? = some '0' ∧ whole.length ≠ 1) then none
  let (fraction, rest) ← match rest with
    | '.' :: rest =>
      let (fraction, rest) := Decimal.spanDigits rest
      if fraction.isEmpty then none else some (fraction, rest)
    | rest => some ([], rest)
  match rest with
  | c :: rest' =>
    if c = 'e' ∨ c = 'E' then
      let (sign, rest') := Decimal.splitSign rest'
      let (digits, rest') := Decimal.spanDigits rest'
      if digits.isEmpty then none
      else return (⟨negative, whole, fraction, some (sign, digits)⟩, rest')
    else return (⟨negative, whole, fraction, none⟩, rest)
  | [] => return (⟨negative, whole, fraction, none⟩, [])

/-- The magnitude of a number that is not a whole number within a word. An exponent beyond the
range of 32-bit integers gives zero or no number at all. -/
def Notation.magnitude? (n : Notation) : Option Float :=
  let (significand, taken) := absorbDigits 0 n.whole
  let (significand, places) := absorbDigits significand n.fraction
  let point : Int := (n.whole.length - taken : Nat) - (places : Int)
  match n.exponent? with
  | none => scale? significand point
  | some (down, digits) =>
    let exponent := Decimal.natOfDigits digits
    if 1 <<< 31 ≤ exponent then
      if significand ≠ 0 ∧ !down then none else some 0.0
    else scale? significand (if down then point - exponent else point + exponent)

/-- The number of a notation. A negative zero is not a whole number. -/
def Notation.value? (n : Notation) : Option JsonNumber :=
  let whole := Decimal.natOfDigits n.whole
  if n.fraction.isEmpty ∧ n.exponent?.isNone ∧ whole ≤ largestSignificand then
    if !n.negative then some (.natural (UInt64.ofNat whole))
    else if whole = 0 ∨ 1 <<< 63 < whole then some (.real (-(Float.ofNat whole)))
    else some (.negative (Int64.ofInt (-(whole : Int))))
  else n.magnitude?.map fun x => .real (if n.negative then -x else x)

end FlowAudit.JsonNumber
