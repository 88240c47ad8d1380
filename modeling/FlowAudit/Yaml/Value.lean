import FlowAudit.Decimal.Literal
import FlowAudit.Json
import FlowAudit.Yaml.Node
/-!
What YAML scalars stand for, and the JSON value of a tree. Plain scalars may be read as null, as a
truth value or as a number; a tag can force one reading, and all other scalars are text.
-/
namespace FlowAudit.Yaml

/-- What a scalar stands for. Whole numbers with a minus sign, of which zero may be one, are signed,
and all others are natural. -/
inductive Value
  | null
  | bool (b : Bool)
  | natural (n : UInt64)
  | signed (n : Int64)
  | real (x : Float)
  | text (s : String)
  deriving Repr

/-- Whether text means null. -/
def isNull (s : String) : Bool :=
  s == "null" || s == "Null" || s == "NULL" || s == "~"

/-- The truth value of a text. -/
def readBool? (s : String) : Option Bool :=
  if s = "true" ∨ s = "True" ∨ s = "TRUE" then some true
  else if s = "false" ∨ s = "False" ∨ s = "FALSE" then some false
  else none

/-- The number of digits in a base. There must be at least one digit. -/
def natInBase? (base : Nat) (digits : List Char) : Option Nat :=
  if digits.isEmpty then none
  else do
    let values ← digits.mapM (Decimal.digitValue? base)
    return values.foldl (fun n d => base * n + d) 0

/-- Whether digits have a zero in front that makes them a text. -/
def hasLeadingZero (digits : List Char) : Bool :=
  1 < digits.length && digits.head? == some '0' && digits.all Char.isDigit

/-- A whole number as it is written. -/
structure WholeNumber where
  negative : Bool
  magnitude : Nat

/-- The whole number of a text: decimal, or in another base after a mark. -/
def readWhole? (cs : List Char) : Option WholeNumber := do
  let (negative, rest) := Decimal.splitSign cs
  let magnitude ← match rest with
    | '0' :: 'x' :: digits => natInBase? 16 digits
    | '0' :: 'o' :: digits => natInBase? 8 digits
    | '0' :: 'b' :: digits => natInBase? 2 digits
    | digits => if hasLeadingZero digits then none else natInBase? 10 digits
  return ⟨negative, magnitude⟩

/-- The real number of a text. The words for infinity and for an undefined number begin with a
point; a literal beyond the range is no number. -/
def readReal? (s : String) : Option Float :=
  if s = ".inf" ∨ s = ".Inf" ∨ s = ".INF" ∨ s = "+.inf" ∨ s = "+.Inf" ∨ s = "+.INF" then
    some (1.0 / 0.0)
  else if s = "-.inf" ∨ s = "-.Inf" ∨ s = "-.INF" then some (-(1.0 / 0.0))
  else if s = ".nan" ∨ s = ".NaN" ∨ s = ".NAN" then some (0.0 / 0.0)
  else do
    let l ← Decimal.Literal.read? s.toList
    let x := l.toFloat
    if x.isFinite then some x else none

/-- The value of a whole number, if it fits a word. -/
def WholeNumber.value? (n : WholeNumber) : Option Value :=
  if n.negative then
    if n.magnitude ≤ 1 <<< 63 then some (.signed (Int64.ofInt (-(n.magnitude : Int)))) else none
  else if n.magnitude < UInt64.size then some (.natural (UInt64.ofNat n.magnitude))
  else none

/-- Whether a whole number is too large for a word and still not taken for a real number. -/
def WholeNumber.isOversized (n : WholeNumber) : Bool :=
  n.value?.isNone && decide (n.magnitude < 1 <<< 128) &&
    (!n.negative || decide (n.magnitude ≤ 1 <<< 127))

/-- What a plain scalar without a tag stands for. Oversized whole numbers are refused. -/
def plainValue? (s : String) : Option Value :=
  if s.isEmpty ∨ isNull s then some .null
  else match readBool? s with
    | some b => some (.bool b)
    | none =>
      let whole := readWhole? s.toList
      match whole.bind WholeNumber.value? with
      | some value => some value
      | none =>
        if whole.any WholeNumber.isOversized then none
        else if hasLeadingZero (Decimal.splitSign s.toList).2 then some (.text s)
        else match readReal? s with
          | some x => some (.real x)
          | none => some (.text s)

/-- Whether a tag is private to an application. Such a tag gives a node no known meaning. -/
def isLocalTag (tag : Option Tag) : Bool :=
  tag.any Tag.isLocal

/-- What a scalar with a tag stands for. A marked tag that has no readable name does not count. -/
def taggedValue? (tag : Tag) (style : Style) (s : String) : Option Value :=
  if tag = .core "bool" then (readBool? s).map .bool
  else if tag = .core "int" then (readWhole? s.toList).bind WholeNumber.value?
  else if tag = .core "float" then (readReal? s).map .real
  else if tag = .core "null" then if isNull s then some .null else none
  else if tag.isLocal then none
  else if tag.isMarked ∧ style = .plain then plainValue? s
  else some (.text s)

namespace Node

/-- What a scalar node stands for. -/
def value? : Node → Option Value
  | scalar (some tag) style s => taggedValue? tag style s
  | scalar none .plain s => plainValue? s
  | scalar none _ s => some (.text s)
  | _ => none

/-- The text of a scalar, whatever it stands for. -/
def text? : Node → Option String
  | scalar _ _ s => some s
  | _ => none

/-- Whether there is nothing where a collection could be. -/
def isAbsent : Node → Bool
  | void => true
  | scalar _ .plain s => s.isEmpty
  | _ => false

/-- The text of a scalar that may be read as a value of a core type: a plain one, or a literal
block with the tag of that type. -/
def readableAs? (type : String) : Node → Option String
  | scalar _ .plain s => some s
  | scalar (some tag) .literal s => if tag = .core type then some s else none
  | _ => none

/-- A truth value. -/
def toBool? (n : Node) : Option Bool :=
  (n.readableAs? "bool").bind readBool?

/-- A real number. -/
def toReal? (n : Node) : Option Float :=
  (n.readableAs? "float").bind readReal?

/-- The items of a sequence, which may be left out altogether. -/
def items? : Node → Option (List Node)
  | sequence _ items => some items
  | other => if other.isAbsent then some [] else none

/-- The fields of a record with the given names, each at most once and without any others. -/
def fields? (names : List String) : Node → Option (List (Option Node))
  | mapping _ members => do
    let named ← members.mapM fun (key, value) => do return (← key.text?, value)
    let keys := named.map Prod.fst
    if keys.all (fun k => names.contains k) ∧ keys.eraseDups.length = keys.length then
      some (names.map fun name => named.lookup name)
    else none
  | other => if other.isAbsent then some (names.map fun _ => none) else none

end Node

/-- The JSON value of a scalar. There is no minus sign in front of a whole zero. -/
def Value.toJson : Value → Json
  | null => .null
  | bool b => .bool b
  | natural n => .number (.natural n)
  | signed n => .number (if n = 0 then .natural 0 else .negative n)
  | real x => if x.isFinite then .number (.real x) else .null
  | text s => .string s

namespace Node

mutual

/-- The JSON value of a tree. Keys are the texts of scalars, and the last of equal keys counts. -/
def toJson? : Node → Option Json
  | void => some .null
  | scalar tag style s => (scalar tag style s).value?.map Value.toJson
  | sequence tag items =>
    if isLocalTag tag then none else (itemsToJson? items).map .array
  | mapping tag members =>
    if isLocalTag tag then none
    else (membersToJson? members).map fun members => (Json.object members).canonical

def itemsToJson? : List Node → Option (List Json)
  | [] => some []
  | item :: rest => do
    let item ← item.toJson?
    return item :: (← itemsToJson? rest)

def membersToJson? : List (Node × Node) → Option (List (String × Json))
  | [] => some []
  | (key, value) :: rest => do
    let key ← key.text?
    let value ← value.toJson?
    return (key, value) :: (← membersToJson? rest)

end

end Node

end FlowAudit.Yaml
