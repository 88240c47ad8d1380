import FlowAudit.Decimal.Binary64
import FlowAudit.Decimal.Shortest
import FlowAudit.Decimal.Unsigned
/-!
Texts of floating-point numbers: plain positional text, text with an exponent for very large and
very small numbers, and text with a fixed number of decimal places.
-/
namespace FlowAudit.Decimal

/-- Digits written out around the point, with as many zeros as their position needs. -/
def Scaled.positional (d : Scaled) (keepPoint : Bool) : List Char :=
  if d.point ≤ 0 then
    '0' :: '.' :: List.replicate (-d.point).toNat '0' ++ d.digits
  else
    let whole := d.digits.take d.point.toNat
    let fraction := d.digits.drop d.point.toNat
    let zeros := List.replicate (d.point.toNat - whole.length) '0'
    let tail := if fraction.isEmpty then (if keepPoint then ['.', '0'] else []) else '.' :: fraction
    whole ++ zeros ++ tail

/-- One digit, the remaining digits after a point, and the signed power of ten. -/
def Scaled.scientific (d : Scaled) : List Char :=
  let mantissa := match d.digits with
    | [] => ['0']
    | [only] => [only]
    | first :: rest => first :: '.' :: rest
  let power := d.point - 1
  let sign := if power < 0 then '-' else '+'
  mantissa ++ 'e' :: sign :: decimalDigits power.natAbs

/-- A minus sign in front of the text of a negative number; a negative zero counts as one. -/
def signed (negative : Bool) (text : List Char) : List Char :=
  if negative then '-' :: text else text

/-- The fewest digits that read back, never with an exponent and without a fraction for whole
numbers. Of two equally near candidates the larger one is written. -/
def plainText (x : Float) : String :=
  String.ofList <| match Binary64.ofFloat x with
    | .nan => ['N', 'a', 'N']
    | .infinite negative => signed negative ['i', 'n', 'f']
    | .finite negative significand exponent =>
      signed negative <| if significand = 0 then ['0']
        else (shortest .up significand exponent).positional false

/-- The fewest digits that read back, with a point in every positional text. Numbers from
`10 ^ -5` up to, but without, `10 ^ 16` are written positionally, all others with an exponent.
Infinities and undefined results have no text. -/
def numberText? (x : Float) : Option String :=
  match Binary64.ofFloat x with
  | .nan => none
  | .infinite _ => none
  | .finite negative significand exponent =>
    some <| String.ofList <| signed negative <|
      if significand = 0 then ['0', '.', '0']
      else
        let d := shortest .even significand exponent
        if -5 < d.point ∧ d.point ≤ 16 then d.positional true else d.scientific

/-- A natural number of units of `10 ^ -places`. -/
def fixedPoint (places units : Nat) : List Char :=
  let whole := decimalDigits (units / Nat.pow 10 places)
  if places = 0 then whole else whole ++ '.' :: paddedDigits places (units % Nat.pow 10 places)

/-- The number rounded to a fixed count of decimal places, a half going to the even neighbour.
The exact binary value is what is rounded. -/
def fixedText (places : Nat) (x : Float) : String :=
  String.ofList <| match Binary64.ofFloat x with
    | .nan => ['N', 'a', 'N']
    | .infinite negative => signed negative ['i', 'n', 'f']
    | .finite negative significand exponent =>
      let unit := powerOfTwo exponent
      signed negative <| fixedPoint places <|
        roundDiv (significand * unit.1 * Nat.pow 10 places) unit.2

end FlowAudit.Decimal
