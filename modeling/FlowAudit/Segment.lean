import FlowAudit.Calendar
import FlowAudit.Dataset
import FlowAudit.Network
/-!
Segments: the parts of the data that rules look at. A segment restricts either the addresses or
the times of flows, and selects from the probe data and from the reference alike.
-/
namespace FlowAudit

/-- Networks of the source and of the destination, each optional. A two-way segment also takes
the flows of the opposite direction. -/
structure SubnetSegment where
  source : Option Network
  destination : Option Network
  twoWay : Bool
  deriving DecidableEq

/-- A time window. An absent bound does not restrict, and the bounds are not reversed. -/
structure TimeSegment where
  startTime : Option UInt64
  endTime : Option UInt64
  ordered : ∀ s ∈ startTime, ∀ e ∈ endTime, s ≤ e
  deriving DecidableEq

/-- The part of the data that a rule looks at. -/
inductive Segment
  | subnet (s : SubnetSegment)
  | time (s : TimeSegment)
  deriving DecidableEq

/-- Why bounds do not form a segment. -/
inductive SegmentError
  | invalidSubnet (text : String)
  | invalidTime (text : String)
  | invertedTimes (startTime endTime : UInt64)
  deriving DecidableEq

def SegmentError.message : SegmentError → String
  | invalidSubnet text => s!"invalid subnet: {text}"
  | invalidTime text => s!"invalid time bound: {text}"
  | invertedTimes startTime endTime =>
    s!"time segment start {startTime.toNat} is after end {endTime.toNat}"

namespace SubnetSegment

/-- Whether an optional network admits an address. An absent one admits all. -/
def admits (network : Option Network) (a : Address) : Bool :=
  network.all fun n => n.contains a

/-- Whether both ends are admitted in the given direction. -/
def matchesDirection (s : SubnetSegment) (source destination : Address) : Bool :=
  admits s.source source && admits s.destination destination

/-- Whether a flow lies in the segment. -/
def contains (s : SubnetSegment) (f : Flow) : Bool :=
  s.matchesDirection f.key.source f.key.destination ||
    (s.twoWay && s.matchesDirection f.key.destination f.key.source)

/-- The written form of an optional network. -/
def networkText (network : Option Network) : String :=
  (network.map Network.text).getD "ANY"

def text (s : SubnetSegment) : String :=
  let arrow := if s.twoWay then "<->" else "->"
  s!"{networkText s.source} {arrow} {networkText s.destination}"

/-- Reads the network of a bound after trimming it. -/
def readNetwork (bound : String) : Except SegmentError Network :=
  match Network.parse? (Text.trimmed bound) with
  | some n => .ok n
  | none => .error (.invalidSubnet bound)

/-- Reads a segment from the texts of its bounds, the source first. -/
def parse (source destination : Option String) (twoWay : Bool) :
    Except SegmentError SubnetSegment := do
  let source ← source.mapM readNetwork
  let destination ← destination.mapM readNetwork
  return ⟨source, destination, twoWay⟩

end SubnetSegment

namespace TimeSegment

/-- The window between two bounds, unless they are reversed. -/
def between (startTime endTime : Option UInt64) : Except SegmentError TimeSegment :=
  match startTime, endTime with
  | some s, some e =>
    if h : s ≤ e then .ok ⟨some s, some e, by simpa using h⟩
    else .error (.invertedTimes s e)
  | some s, none => .ok ⟨some s, none, by simp⟩
  | none, e => .ok ⟨none, e, by simp⟩

/-- Whether a flow starts and ends within the window. -/
def contains (s : TimeSegment) (f : Flow) : Bool :=
  (s.startTime.all fun bound => decide (bound ≤ f.startTime)) &&
    s.endTime.all fun bound => decide (f.endTime ≤ bound)

/-- The written form of an optional bound. -/
def boundText (bound : Option UInt64) : String :=
  (bound.map fun ms => Calendar.text ms.toNat).getD "ANY"

def text (s : TimeSegment) : String :=
  s!"{boundText s.startTime} -> {boundText s.endTime}"

end TimeSegment

namespace Segment

/-- Whether a flow lies in the segment. -/
def contains : Segment → Flow → Bool
  | subnet s, f => s.contains f
  | time s, f => s.contains f

def text : Segment → String
  | subnet s => s.text
  | time s => s.text

end Segment

/-- Whether a flow lies in an optional segment. An absent one holds all flows. -/
def inScope (segment : Option Segment) (f : Flow) : Bool :=
  segment.all fun s => s.contains f

/-- For each flow whether it lies in the segment. -/
def Dataset.mask (d : Dataset) (segment : Option Segment) : List Bool :=
  d.map (inScope segment)

/-- The flows that lie in the segment. -/
def Dataset.restrict (d : Dataset) (segment : Option Segment) : Dataset :=
  d.filter (inScope segment)

end FlowAudit
