/-!
Double precision numbers as exact values. A finite number is a sign, a significand and a power of
two; everything that prints or reads decimal text works on these integers.
-/
namespace FlowAudit.Decimal

/-- A double precision number taken apart. The magnitude of a finite one is
`significand * 2 ^ exponent`, and `exponent` is `-1074` for zero and subnormal numbers. -/
inductive Binary64
  | nan
  | infinite (negative : Bool)
  | finite (negative : Bool) (significand : Nat) (exponent : Int)
  deriving DecidableEq, Repr

/-- Takes the 64 bits of a number apart. -/
def Binary64.ofBits (bits : Nat) : Binary64 :=
  let negative := decide (1 <<< 63 ≤ bits)
  let exponent : Nat := (bits >>> 52) % 2048
  let fraction := bits % (1 <<< 52)
  if exponent = 2047 then
    if fraction = 0 then .infinite negative else .nan
  else if exponent = 0 then .finite negative fraction (-1074)
  else .finite negative (fraction + (1 <<< 52)) ((exponent : Int) - 1075)

/-- The exact value of a floating-point number. -/
def Binary64.ofFloat (x : Float) : Binary64 :=
  .ofBits x.toBits.toNat

/-- A power of two as a fraction of natural numbers. -/
def powerOfTwo (exponent : Int) : Nat × Nat :=
  if 0 ≤ exponent then (1 <<< exponent.toNat, 1) else (1, 1 <<< (-exponent).toNat)

/-- Rounds a quotient to the nearest integer, and to the even one of two equally near. The
denominator is positive. -/
def roundDiv (numerator denominator : Nat) : Nat :=
  let quotient := numerator / denominator
  let rest := 2 * (numerator % denominator)
  if rest < denominator then quotient
  else if denominator < rest then quotient + 1
  else quotient + quotient % 2

end FlowAudit.Decimal
