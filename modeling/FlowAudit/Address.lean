/-!
Addresses of both families as bounded numbers. An address is shifted by adding an offset with
wrap-around; for the long family the offset counts in units of the topmost 32 bits, so the host
part stays as it is.
-/
namespace FlowAudit

/-- The two address families. -/
inductive Family
  | v4
  | v6
  deriving DecidableEq, Repr

/-- Length of an address in bits. -/
def Family.bits : Family → Nat
  | .v4 => 32
  | .v6 => 128

/-- How far an offset of one moves an address. -/
def Family.unit : Family → Nat
  | .v4 => 1
  | .v6 => 1 <<< 96

/-- The number of addresses of a family. -/
def Family.size (f : Family) : Nat :=
  1 <<< f.bits

theorem Family.size_pos (f : Family) : 0 < f.size := by
  rw [size, Nat.one_shiftLeft]
  exact Nat.two_pow_pos _

/-- An address, with its bits read as one number. -/
structure Address where
  family : Family
  number : Nat
  number_lt : number < family.size
  deriving DecidableEq

namespace Address

/-- The address of a family at a number, taken modulo the size of the family. -/
def ofNat (family : Family) (n : Nat) : Address :=
  ⟨family, n % family.size, Nat.mod_lt _ family.size_pos⟩

/-- Moves an address within its family by a number of units, wrapping around at the end. -/
def shift (a : Address) (offset : UInt32) : Address :=
  ofNat a.family (a.number + offset.toNat * a.family.unit)

/-- The short family comes first; within a family the numbers decide. -/
instance : Ord Address where
  compare := compareLex (compareOn fun a => a.family.bits) (compareOn Address.number)

/-- Limited broadcast and link-local multicast addresses. Traffic to them is not compared. -/
def isNoise (a : Address) : Bool :=
  match a.family with
  | .v4 => a.number == UInt32.size - 1
  | .v6 => a.number >>> 112 == 0xff02

/-- Whether two addresses agree in family and in their leading bits. -/
def agreesWith (a b : Address) (leading : Nat) : Bool :=
  a.family == b.family &&
    a.number >>> (a.family.bits - leading) == b.number >>> (b.family.bits - leading)

end Address

end FlowAudit
