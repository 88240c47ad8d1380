import FlowAudit.Decimal.Binary64
/-!
The shortest decimal that reads back as a given double precision number. A decimal is a list of
digits and the position of the point, and belongs to a number when it lies in the interval of
reals that round to that number.
-/
namespace FlowAudit.Decimal

/-- The decimal `0.d₁d₂… * 10 ^ point`. -/
structure Scaled where
  digits : List Char
  point : Int
  deriving DecidableEq, Repr

/-- Which of two equally near shortest decimals is taken. -/
inductive Tie
  | up
  | even
  deriving DecidableEq, Repr

/-- The reals that round to a number, all as multiples of `1 / denominator`. The ends belong to
the interval iff `closed` holds. -/
structure RoundingInterval where
  lower : Nat
  value : Nat
  upper : Nat
  denominator : Nat
  closed : Bool

/-- Half a unit of the last place to both sides. Below a power of two the numbers stand twice as
close, unless they are already subnormal. -/
def RoundingInterval.of (significand : Nat) (exponent : Int) : RoundingInterval :=
  let unit := powerOfTwo (exponent - 2)
  let below := if significand = 1 <<< 52 ∧ exponent ≠ -1074 then 1 else 2
  { lower := (4 * significand - below) * unit.1
    value := 4 * significand * unit.1
    upper := (4 * significand + 2) * unit.1
    denominator := unit.2
    closed := significand % 2 == 0 }

/-- Whether a fraction lies in the interval. -/
def RoundingInterval.contains (i : RoundingInterval) (numerator denominator : Nat) : Bool :=
  let point := numerator * i.denominator
  if i.closed then
    decide (i.lower * denominator ≤ point ∧ point ≤ i.upper * denominator)
  else
    decide (i.lower * denominator < point ∧ point < i.upper * denominator)

/-- A power of ten as a fraction of natural numbers. -/
def powerOfTen (exponent : Int) : Nat × Nat :=
  if 0 ≤ exponent then (Nat.pow 10 exponent.toNat, 1) else (1, Nat.pow 10 (-exponent).toNat)

/-- The nearest point of the grid with step `10 ^ exponent` that lies in the interval, as a
multiple of the step. Only the two neighbours of the value can be it. -/
def RoundingInterval.nearestOnGrid? (i : RoundingInterval) (tie : Tie) (exponent : Int) :
    Option Nat :=
  let step := powerOfTen exponent
  let below := i.value * step.2 / (i.denominator * step.1)
  let has (k : Nat) := i.contains (k * step.1) step.2
  match has below, has (below + 1) with
  | false, false => none
  | true, false => some below
  | false, true => some (below + 1)
  | true, true =>
    let twice := 2 * i.value * step.2
    let middle := (2 * below + 1) * (i.denominator * step.1)
    if twice < middle then some below
    else if middle < twice then some (below + 1)
    else match tie with
      | .up => some (below + 1)
      | .even => some (below + below % 2)

/-- The number of digits before the point of a positive fraction; it is zero or negative for
fractions below one tenth. The search starts at an estimate from the binary logarithms, which is
at most one too small. -/
def integerDigits (numerator denominator : Nat) : Int :=
  let estimate : Int := (((numerator.log2 : Int) - denominator.log2 - 1) * 30103).fdiv 100000
  let reaches (k : Int) :=
    let power := powerOfTen k
    decide (denominator * power.1 ≤ numerator * power.2)
  if reaches (estimate + 1) then estimate + 2
  else if reaches estimate then estimate + 1
  else estimate

/-- The first of the given digit counts whose grid has a point in the interval. -/
def RoundingInterval.shortest (i : RoundingInterval) (tie : Tie) (point : Int) :
    List Nat → Scaled
  | [] => ⟨['0'], point⟩
  | count :: rest =>
    match i.nearestOnGrid? tie (point - count) with
    | some found =>
      let digits := Nat.toDigits 10 found
      let kept := (digits.reverse.dropWhile (· == '0')).reverse
      ⟨kept, point - count + digits.length⟩
    | none => i.shortest tie point rest

/-- The shortest decimal of a positive number, and the nearest one among the shortest. Seventeen
digits always suffice. -/
def shortest (tie : Tie) (significand : Nat) (exponent : Int) : Scaled :=
  let i := RoundingInterval.of significand exponent
  i.shortest tie (integerDigits i.value i.denominator) (List.range' 1 17)

end FlowAudit.Decimal
