/-!
Reading unsigned integers of bounded size. The reading stops at the first character that cannot
be taken, and the error says why that character was refused.
-/
namespace FlowAudit.Decimal

/-- Why a text is not an unsigned integer within the bound. -/
inductive ReadError
  | empty
  | invalidDigit
  | tooLarge
  deriving DecidableEq, Repr

/-- The value of a digit in a base up to 16. Both cases of the letters count. -/
def digitValue? (base : Nat) (c : Char) : Option Nat :=
  let value :=
    if '0' ≤ c ∧ c ≤ '9' then c.toNat - '0'.toNat
    else if 'a' ≤ c ∧ c ≤ 'f' then c.toNat - 'a'.toNat + 10
    else if 'A' ≤ c ∧ c ≤ 'F' then c.toNat - 'A'.toNat + 10
    else 16
  if value < base then some value else none

/-- Appends digits to a value that is within the bound. A character that is no digit is reported
even where a digit would have exceeded the bound. -/
def readDigits (base largest : Nat) : Nat → List Char → Except ReadError Nat
  | value, [] => .ok value
  | value, c :: rest =>
    match digitValue? base c with
    | none => .error .invalidDigit
    | some digit =>
      if value * base + digit ≤ largest then readDigits base largest (value * base + digit) rest
      else .error .tooLarge

/-- Reads an unsigned integer up to `largest`. One plus sign may stand in front of the digits. -/
def readUnsigned (base largest : Nat) : List Char → Except ReadError Nat
  | [] => .error .empty
  | ['+'] => .error .invalidDigit
  | '+' :: digits => readDigits base largest 0 digits
  | digits => readDigits base largest 0 digits

/-- The decimal digits of a number, without leading zeros. -/
def decimalDigits (n : Nat) : List Char :=
  Nat.toDigits 10 n

/-- Decimal digits with leading zeros up to a width. A longer number is not cut. -/
def paddedDigits (width n : Nat) : List Char :=
  List.replicate (width - (decimalDigits n).length) '0' ++ decimalDigits n

end FlowAudit.Decimal
