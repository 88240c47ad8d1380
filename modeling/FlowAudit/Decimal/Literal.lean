import FlowAudit.Decimal.Unsigned
/-!
Decimal literals with a point and an exponent, and the double precision numbers they denote.
Reading rounds to the nearest number, ties to even, for any count of digits.
-/
namespace FlowAudit.Decimal

/-- The number `significand * 10 ^ exponent` with a sign. -/
structure Literal where
  negative : Bool
  significand : Nat
  exponent : Int
  deriving DecidableEq, Repr

/-- The longest run of decimal digits in front, and the rest. -/
def spanDigits (cs : List Char) : List Char × List Char :=
  (cs.takeWhile Char.isDigit, cs.dropWhile Char.isDigit)

/-- The value of decimal digits. -/
def natOfDigits (digits : List Char) : Nat :=
  digits.foldl (fun value c => 10 * value + (c.toNat - '0'.toNat)) 0

/-- A sign, if there is one, and what follows it. -/
def splitSign : List Char → Bool × List Char
  | '-' :: rest => (true, rest)
  | '+' :: rest => (false, rest)
  | rest => (false, rest)

/-- Reads an optional exponent up to the end of the text. -/
def readExponent? : List Char → Option Int
  | [] => some 0
  | c :: rest =>
    if c = 'e' ∨ c = 'E' then
      let (negative, rest) := splitSign rest
      let (digits, rest) := spanDigits rest
      if digits.isEmpty ∨ !rest.isEmpty then none
      else some (if negative then -(natOfDigits digits : Int) else natOfDigits digits)
    else none

/-- Reads a literal: a sign, digits with at most one point among them, an exponent. One digit on
either side of the point is enough. -/
def Literal.read? (cs : List Char) : Option Literal := do
  let (negative, rest) := splitSign cs
  let (whole, rest) := spanDigits rest
  let (fraction, rest) := match rest with
    | '.' :: rest => spanDigits rest
    | rest => ([], rest)
  if whole.isEmpty ∧ fraction.isEmpty then none
  let exponent ← readExponent? rest
  return ⟨negative, natOfDigits (whole ++ fraction), exponent - fraction.length⟩

/-- The nearest double precision number. Magnitudes beyond the range become infinite or zero
without computing the power of ten. -/
def Literal.toFloat (l : Literal) : Float :=
  let magnitude : Float :=
    if l.significand = 0 then 0.0
    else
      let point := l.exponent + (decimalDigits l.significand).length
      if 400 < point then 1.0 / 0.0
      else if point < -400 then 0.0
      else Float.ofScientific l.significand (l.exponent < 0) l.exponent.natAbs
  if l.negative then -magnitude else magnitude

/-- Lower case of the letters `A` to `Z`. -/
def lowerLetter (c : Char) : Char :=
  if 'A' ≤ c ∧ c ≤ 'Z' then Char.ofNat (c.toNat + 32) else c

/-- Reads a literal or one of the words for infinity and for an undefined number, in any case and
with an optional sign. -/
def readFloat? (cs : List Char) : Option Float :=
  match Literal.read? cs with
  | some l => some l.toFloat
  | none =>
    let (negative, rest) := splitSign cs
    let word := String.ofList (rest.map lowerLetter)
    let magnitude? : Option Float :=
      if word = "inf" ∨ word = "infinity" then some (1.0 / 0.0)
      else if word = "nan" then some (0.0 / 0.0)
      else none
    magnitude?.map fun magnitude => if negative then -magnitude else magnitude

end FlowAudit.Decimal
