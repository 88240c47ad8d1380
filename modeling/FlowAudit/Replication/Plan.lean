import FlowAudit.Decimal.Literal
import FlowAudit.Decimal.Notation
import FlowAudit.Json.Printer
import FlowAudit.Merge
/-!
Replication plans. A plan lists units, each of which replays the recorded flows with shifted
addresses in the loops selected for it, and one more shift that grows with the loop.
-/
namespace FlowAudit

/-- Why a plan is refused or cannot be carried out. -/
inductive ReplicationError
  | unsupportedModifier (field value : String)
  | unknownKey (name : String)
  | invalidPlan (text : String)
  | invalidLoops (text : String)
  | invalidSpeed (speed : Float)
  | counterOverflow (cause : CounterOverflow)

def ReplicationError.message : ReplicationError → String
  | unsupportedModifier field value =>
    s!"value '{value}' of '{field}' is not supported by the flow replicator"
  | unknownKey name =>
    s!"only 'units' and 'loop' keys are allowed in replicator configuration, found '{name}'"
  | invalidPlan text => s!"invalid replicator configuration: {text}"
  | invalidLoops text => s!"invalid loopOnly value: {text}"
  | invalidSpeed speed =>
    "speed multiplier must be a positive finite number, got " ++ Decimal.plainText speed
  | counterOverflow cause => cause.message

/-- A constant that is added to addresses. Only its lowest 32 bits have an effect. -/
structure Modifier where
  offset : UInt32
  deriving DecidableEq, Repr

namespace Modifier

/-- Appends a decimal digit to an offset, of which the lowest 32 bits are kept. -/
def appendDigit (offset : Nat) (digit : Char) : Nat :=
  (offset * 10 + (digit.toNat - '0'.toNat)) % UInt32.size

/-- The modifier of a decimal number of any length, which is reduced after each digit. Characters
that are no digits are skipped. -/
def ofDecimal (text : List Char) : Modifier :=
  ⟨UInt32.ofNat ((text.filter Char.isDigit).foldl appendDigit 0)⟩

/-- What follows the name of one of the two equivalent operations. -/
def afterOperation? (cs : List Char) : Option (List Char) :=
  ["addConstant(", "addOffset("].findSome? fun operation =>
    if operation.toList.isPrefixOf cs then some (cs.drop operation.length) else none

/-- Reads an operation with one decimal argument. Blanks may stand around the whole and around the
argument. -/
def read? (text : List Char) : Option Modifier := do
  let rest ← afterOperation? (Text.trim text)
  if rest.getLast? ≠ some ')' then none
  let argument := Text.trim rest.dropLast
  if argument.isEmpty ∨ !argument.all Char.isDigit then none
  return ofDecimal argument

/-- Reads the value of a field. Null and the word for nothing mean that there is no modifier. -/
def parse (field : String) : Json → Except ReplicationError (Option Modifier)
  | .null => .ok none
  | .string s =>
    if Text.trimmed s = "None" then .ok none
    else match read? s.toList with
      | some m => .ok (some m)
      | none => .error (.unsupportedModifier field s)
  | other => .error (.unsupportedModifier field other.canonical.compact)

end Modifier

/-- A set of loops: all of them, or those of a list with ascending members. -/
inductive LoopSelection
  | all
  | only (loops : List UInt32)
  deriving DecidableEq, Repr

/-- Inserts a loop at its place in an ascending list that holds it at most once. -/
def insertLoop (n : UInt32) : List UInt32 → List UInt32
  | [] => [n]
  | m :: rest =>
    if n < m then n :: m :: rest else if n = m then m :: rest else m :: insertLoop n rest

/-- The members of a list in ascending order, each once. -/
def loopSet (loops : List UInt32) : List UInt32 :=
  loops.foldr insertLoop []

namespace LoopSelection

/-- The selection of some loops. No loops at all stand for all loops. -/
def ofList (loops : List UInt32) : LoopSelection :=
  match loopSet loops with
  | [] => all
  | loops => only loops

def contains : LoopSelection → UInt32 → Bool
  | all, _ => true
  | only loops, n => loops.contains n

/-- Whether only loops of a list are selected. -/
def isWithin : LoopSelection → List UInt32 → Bool
  | all, _ => false
  | only loops, others => loops.all others.contains

/-- Reads one loop. -/
def readLoop (json : Json) : Except ReplicationError UInt32 :=
  match json.toNatUpTo? (UInt32.size - 1) with
  | some n => .ok (UInt32.ofNat n)
  | none => .error (.invalidLoops json.canonical.compact)

/-- Reads a selection: a word for all loops, one loop or a list of loops. -/
def parse : Json → Except ReplicationError LoopSelection
  | .null => .ok all
  | .number n => do return ofList [← readLoop (.number n)]
  | .array items => do return ofList (← items.mapM readLoop)
  | .string s => if s = "All" then .ok all else .error (.invalidLoops (Json.string s).compact)
  | other => .error (.invalidLoops other.canonical.compact)

end LoopSelection

/-- One way of replaying the flows. -/
structure ReplayUnit where
  source : Option Modifier
  destination : Option Modifier
  loops : LoopSelection
  deriving DecidableEq, Repr

/-- The offset of an optional modifier. -/
def Modifier.offsetOf (m : Option Modifier) : UInt32 :=
  (m.map Modifier.offset).getD 0

/-- The unit that replays the flows unchanged in all loops. -/
def ReplayUnit.unchanged : ReplayUnit :=
  ⟨none, none, .all⟩

/-- Units, and the modifiers whose offsets are multiplied by the loop. -/
structure Plan where
  units : List ReplayUnit
  perLoop : ReplayUnit
  deriving DecidableEq, Repr

namespace Plan

/-- The plan that replays the flows once in each loop. -/
def unchanged : Plan :=
  ⟨[.unchanged], .unchanged⟩

/-- Reads the modifiers of a section, the source first. -/
def readModifiers (members : List (String × Json)) (loops : LoopSelection) :
    Except ReplicationError ReplayUnit := do
  let modifier (name : String) : Except ReplicationError (Option Modifier) :=
    match members.lookup name with
    | some value => Modifier.parse name value
    | none => .ok none
  let source ← modifier "srcip"
  let destination ← modifier "dstip"
  return ⟨source, destination, loops⟩

/-- The members of a section, which must be an object. -/
def sectionMembers (name : String) : Json → Except ReplicationError (List (String × Json))
  | .object members => .ok members
  | other => .error (.invalidPlan s!"'{name}' entries must be mappings, got {other.compact}")

/-- Reads one unit. A unit all of whose loops are ignored is left out before its modifiers are
looked at. -/
def readUnit (ignored : List UInt32) (json : Json) :
    Except ReplicationError (Option ReplayUnit) := do
  let members ← sectionMembers "units" json
  let loops ← match members.lookup "loopOnly" with
    | some value => LoopSelection.parse value
    | none => pure .all
  if loops.isWithin ignored then return none
  else return some (← readModifiers members loops)

/-- Reads the units in order. A plan without any units replays the flows unchanged. -/
def readUnits (ignored : List UInt32) : Option Json → Except ReplicationError (List ReplayUnit)
  | none => .ok [.unchanged]
  | some .null => .ok [.unchanged]
  | some (.array []) => .ok [.unchanged]
  | some (.array items) => do return (← items.mapM (readUnit ignored)).filterMap id
  | some other => .error (.invalidPlan s!"'units' must be a list, got {other.compact}")

/-- Reads the modifiers that grow with the loop. -/
def readPerLoop : Option Json → Except ReplicationError ReplayUnit
  | none => .ok .unchanged
  | some .null => .ok .unchanged
  | some json => do readModifiers (← sectionMembers "loop" json) .all

/-- The members of a plan. -/
def readRoot : Json → Except ReplicationError (List (String × Json))
  | .null => .ok []
  | .object members => .ok members
  | other => .error (.invalidPlan s!"expected a mapping, got {other.compact}")

/-- Reads a plan. Of several unknown keys the smallest one is reported, before anything else is
looked at. -/
def parse (json : Json) (ignored : List UInt32) : Except ReplicationError Plan := do
  let members ← readRoot json.canonical
  match (members.map Prod.fst).find? fun name => name != "units" && name != "loop" with
  | some name => throw (.unknownKey name)
  | none => pure ()
  let units ← readUnits ignored (members.lookup "units")
  let perLoop ← readPerLoop (members.lookup "loop")
  return ⟨units, perLoop⟩

/-- The units that replay in a loop, in their order. -/
def activeIn (p : Plan) (loop : UInt32) : List ReplayUnit :=
  p.units.filter fun u => u.loops.contains loop

end Plan

end FlowAudit
