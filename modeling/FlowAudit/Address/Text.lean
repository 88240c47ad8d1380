import FlowAudit.Address
import FlowAudit.Decimal.Unsigned
import FlowAudit.Text.Blank
/-!
The written forms of addresses: four decimal octets, or eight hexadecimal groups of which one run
of zeros may be left out and the last two may be written as octets.
-/
namespace FlowAudit.Address

/-- Joins numbers below `base` to one number, the first one being the most significant. -/
def joinGroups (base : Nat) (groups : List Nat) : Nat :=
  groups.foldl (fun n g => n * base + g) 0

/-- Splits a number into `count` numbers below `base`, the most significant one first. -/
def splitGroups (base : Nat) : Nat → Nat → List Nat
  | 0, _ => []
  | count + 1, n => splitGroups base count (n / base) ++ [n % base]

/-- Reads the longest run of digits, at most `most` of them. A longer run is refused as a
whole. -/
def readNumber? (base most : Nat) (cs : List Char) : Option (Nat × List Char) :=
  let isDigit c := (Decimal.digitValue? base c).isSome
  let digits := cs.takeWhile isDigit
  if digits.isEmpty ∨ most < digits.length then none
  else
    let value := digits.foldl (fun n c => n * base + (Decimal.digitValue? base c).getD 0) 0
    some (value, cs.dropWhile isDigit)

/-- Reads one octet. Leading zeros are refused. -/
def readOctet? (cs : List Char) : Option (Nat × List Char) :=
  match readNumber? 10 3 cs with
  | none => none
  | some (value, rest) =>
    if 255 < value then none
    else if cs.head? = some '0' ∧ cs.length ≠ rest.length + 1 then none
    else some (value, rest)

/-- Reads `count` octets with a point before each of them but the first. -/
def readOctets? : Nat → Bool → List Char → Option (List Nat × List Char)
  | 0, _, cs => some ([], cs)
  | count + 1, first, cs => do
    let cs ← if first then some cs else match cs with
      | '.' :: rest => some rest
      | _ => none
    let (octet, rest) ← readOctet? cs
    let (octets, rest) ← readOctets? count false rest
    return (octet :: octets, rest)

/-- Groups read so far: their values, whether the last two came from octets, and the rest. -/
structure Groups where
  values : List Nat
  embedded : Bool
  rest : List Char

/-- Reads at most `room` groups separated by colons. Octets may stand for the last two groups,
provided that there is room for two. -/
def readGroups : Nat → Bool → List Char → Groups
  | 0, _, cs => ⟨[], false, cs⟩
  | room + 1, first, cs =>
    let body? := if first then some cs else match cs with
      | ':' :: rest => some rest
      | _ => none
    match body? with
    | none => ⟨[], false, cs⟩
    | some body =>
      match if room = 0 then none else readOctets? 4 true body with
      | some (octets, rest) =>
        ⟨[joinGroups 256 (octets.take 2), joinGroups 256 (octets.drop 2)], true, rest⟩
      | none =>
        match readNumber? 16 4 body with
        | none => ⟨[], false, cs⟩
        | some (value, rest) =>
          let more := readGroups room false rest
          { more with values := value :: more.values }

/-- Reads eight groups, or fewer around one double colon that stands for at least one zero. No
octets may stand before the double colon. -/
def readEightGroups? (cs : List Char) : Option (List Nat × List Char) :=
  let head := readGroups 8 true cs
  if head.values.length = 8 then some (head.values, head.rest)
  else if head.embedded then none
  else match head.rest with
    | ':' :: ':' :: rest =>
      let tail := readGroups (7 - head.values.length) true rest
      let zeros := List.replicate (8 - head.values.length - tail.values.length) 0
      some (head.values ++ zeros ++ tail.values, tail.rest)
    | _ => none

/-- Reads an address of the short family that fills the whole text. -/
def readShort? (cs : List Char) : Option Address :=
  match readOctets? 4 true cs with
  | some (octets, []) => some (.ofNat .v4 (joinGroups 256 octets))
  | _ => none

/-- Reads an address of the long family that fills the whole text. -/
def readLong? (cs : List Char) : Option Address :=
  match readEightGroups? cs with
  | some (groups, []) => some (.ofNat .v6 (joinGroups 65536 groups))
  | _ => none

/-- Reads an address of either family that fills the whole text. -/
def read? (cs : List Char) : Option Address :=
  (readShort? cs).or (readLong? cs)

/-- Reads an address after trimming the text. -/
def parse? (s : String) : Option Address :=
  read? (Text.trim s.toList)

/-- Decimal octets separated by points. -/
def octetText (octets : List Nat) : List Char :=
  ['.'].intercalate (octets.map (Nat.toDigits 10))

/-- Hexadecimal groups separated by colons. -/
def groupText (groups : List Nat) : List Char :=
  [':'].intercalate (groups.map (Nat.toDigits 16))

/-- Where the longest run of zeros starts, and its length. The first of several longest runs is
taken. -/
def longestZeros : List Nat → Nat × Nat
  | [] => (0, 0)
  | g :: rest =>
    let here := ((g :: rest).takeWhile (· == 0)).length
    let later := longestZeros rest
    if later.2 ≤ here then (0, here) else (later.1 + 1, later.2)

/-- The shortest usual form. A run of at least two zero groups becomes a double colon, and an
embedded address of the short family is written with octets. -/
def text (a : Address) : List Char :=
  match a.family with
  | .v4 => octetText (splitGroups 256 4 a.number)
  | .v6 =>
    if a.number >>> 32 = 0xffff then
      "::ffff:".toList ++ octetText (splitGroups 256 4 a.number)
    else
      let groups := splitGroups 65536 8 a.number
      let (start, length) := longestZeros groups
      if 1 < length then
        groupText (groups.take start) ++ [':', ':'] ++ groupText (groups.drop (start + length))
      else groupText groups

instance : ToString Address where
  toString a := String.ofList a.text

end FlowAudit.Address
