import FlowAudit.Address.Text
/-!
Networks: all addresses that share their leading bits with a given address. The address keeps its
host part, which shows in the written form only.
-/
namespace FlowAudit

/-- An address and the count of its leading bits that members must share. -/
structure Network where
  address : Address
  leading : Nat
  leading_le : leading ≤ address.family.bits
  deriving DecidableEq

namespace Network

/-- Membership. Addresses of the other family are never members. -/
def contains (n : Network) (a : Address) : Bool :=
  n.address.agreesWith a n.leading

/-- The written form, always with the count of leading bits. -/
def text (n : Network) : String :=
  s!"{n.address}/{n.leading}"

/-- The count of leading ones in a mask whose ones all stand before its zeros. -/
def leadingOfMask? (mask : Address) : Option Nat :=
  (List.range (mask.family.bits + 1)).find? fun k =>
    mask.number == mask.family.size - (1 <<< (mask.family.bits - k))

/-- An address with a length, where the length fits the family. -/
def ofParts? (address : Address) (leading : Nat) : Option Network :=
  if h : leading ≤ address.family.bits then some ⟨address, leading, h⟩ else none

/-- Reads a length written as a number. -/
def readLength? (cs : List Char) : Option Nat :=
  (Decimal.readUnsigned 10 255 cs).toOption

/-- Reads the length of a network of short addresses, which may also be written as a mask. -/
def readShortLength? (cs : List Char) : Option Nat :=
  match Address.readShort? cs with
  | some mask => leadingOfMask? mask
  | none => readLength? cs

/-- Reads a network of one family. Without a length it holds one address. -/
def readWith? (readAddress? : List Char → Option Address)
    (readLength? : List Char → Option Nat) (address : List Char)
    (length? : Option (List Char)) : Option Network := do
  let a ← readAddress? address
  match length? with
  | none => ofParts? a a.family.bits
  | some length => (readLength? length).bind (ofParts? a)

/-- Reads a network of either family. At most one slash may occur. -/
def parse? (s : String) : Option Network :=
  let (address, rest) := s.toList.span (· ≠ '/')
  let length? := if rest.isEmpty then none else some (rest.drop 1)
  if (length?.getD []).contains '/' then none
  else (readWith? Address.readShort? readShortLength? address length?).or
    (readWith? Address.readLong? readLength? address length?)

end Network

end FlowAudit
