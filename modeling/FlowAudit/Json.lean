/-!
Structured values of the JSON data model. An object lists its members as they were written, names
may repeat; `Json.canonical` is the form in which each name stands once and names ascend.
-/
namespace FlowAudit

/-- A number as its notation classifies it: a whole number within the unsigned range, a negative
whole number within the signed range, or any other number. -/
inductive JsonNumber
  | natural (n : UInt64)
  | negative (n : Int64)
  | real (x : Float)
  deriving Repr

/-- A value of the data model. -/
inductive Json
  | null
  | bool (b : Bool)
  | number (n : JsonNumber)
  | string (s : String)
  | array (items : List Json)
  | object (members : List (String × Json))
  deriving Repr, Inhabited

/-- The number as a floating-point number. -/
def JsonNumber.toFloat : JsonNumber → Float
  | natural n => Float.ofNat n.toNat
  | negative n => Float.ofInt n.toInt
  | real x => x

namespace Json

/-- Inserts a member at its place in an object with ascending names, in place of a member of the
same name. -/
def insertMember (name : String) (value : Json) : List (String × Json) → List (String × Json)
  | [] => [(name, value)]
  | (first, old) :: rest =>
    if name < first then (name, value) :: (first, old) :: rest
    else if name = first then (name, value) :: rest
    else (first, old) :: insertMember name value rest

mutual

/-- The same value with the members of all objects in ascending order. Of members with one name
the last one stays. -/
def canonical : Json → Json
  | array items => array (canonicalItems items)
  | object members => object (canonicalMembers [] members)
  | other => other

/-- `canonical` for all items. -/
def canonicalItems : List Json → List Json
  | [] => []
  | item :: rest => item.canonical :: canonicalItems rest

/-- Adds members in canonical form to an object that is already in that form. -/
def canonicalMembers (done : List (String × Json)) :
    List (String × Json) → List (String × Json)
  | [] => done
  | (name, value) :: rest => canonicalMembers (insertMember name value.canonical done) rest

end

/-- The value of the first member of a name. -/
def member? (name : String) : Json → Option Json
  | object members => members.lookup name
  | _ => none

/-- A whole number that is at most `largest`. -/
def toNatUpTo? (largest : Nat) : Json → Option Nat
  | number (.natural n) => if n.toNat ≤ largest then some n.toNat else none
  | _ => none

/-- Any number as a floating-point number. -/
def toFloat? : Json → Option Float
  | number n => some n.toFloat
  | _ => none

def toBool? : Json → Option Bool
  | bool b => some b
  | _ => none

def toText? : Json → Option String
  | string s => some s
  | _ => none

def toItems? : Json → Option (List Json)
  | array items => some items
  | _ => none

/-- The fields of a record with the given field names. A record is written as an object, in which
a field stands at most once and other members are ignored, or as an array of the leading
fields. -/
def fields? (names : List String) : Json → Option (List (Option Json))
  | object members =>
    if names.all fun name => (members.filter fun m => m.1 == name).length ≤ 1 then
      some (names.map fun name => members.lookup name)
    else none
  | array items =>
    if items.length ≤ names.length then
      some ((List.range names.length).map fun i => items[i]?)
    else none
  | _ => none

end Json

end FlowAudit
