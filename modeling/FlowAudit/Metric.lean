import FlowAudit.Dataset
import FlowAudit.Decimal.Notation
/-!
Metrics: what is measured on the probe data, what it is compared with, and the relative difference
of both. Counters are compared as exact integers, rates and durations as floating-point numbers.
-/
namespace FlowAudit

/-- What a metric measures. -/
inductive MetricKind
  | packets
  | bytes
  | flows
  | packetRate
  | byteRate
  | duration
  deriving DecidableEq, Repr

namespace MetricKind

/-- All kinds in the order of reports. -/
def all : List MetricKind :=
  [packets, bytes, flows, packetRate, byteRate, duration]

/-- The name in rule files and reports. -/
def name : MetricKind → String
  | packets => "PACKETS"
  | bytes => "BYTES"
  | flows => "FLOWS"
  | packetRate => "PACKETS / S"
  | byteRate => "MB / S"
  | duration => "DURATION"

/-- The short name, if there is one. -/
def shortName? : MetricKind → Option String
  | packetRate => some "PPS"
  | byteRate => some "MBPS"
  | _ => none

/-- The kind of an exact name. -/
def ofName? (s : String) : Option MetricKind :=
  all.find? fun k => k.name == s || k.shortName? == some s

/-- Upper case of the letters `a` to `z`. -/
def upperLetter (c : Char) : Char :=
  if 'a' ≤ c ∧ c ≤ 'z' then Char.ofNat (c.toNat - 32) else c

/-- The kind of a name in any case with blanks around it. An unknown name is returned in the form
in which it was looked up. -/
def parse (s : String) : Except String MetricKind :=
  let name := String.ofList ((Text.trim s.toList).map upperLetter)
  match ofName? name with
  | some k => .ok k
  | none => .error name

end MetricKind

/-- The totals of a run as the traffic generator counted them. -/
structure GeneratorStats where
  startTime : UInt64
  endTime : UInt64
  packets : UInt64
  bytes : UInt64
  deriving DecidableEq

/-- Totals of a run that did not happen. -/
def GeneratorStats.zero : GeneratorStats :=
  ⟨0, 0, 0, 0⟩

/-- The duration of the run in seconds. -/
def GeneratorStats.duration (s : GeneratorStats) : Float :=
  Dataset.spanSeconds s.startTime.toNat s.endTime.toNat

/-- A metric with the largest relative difference that passes. -/
structure Metric where
  kind : MetricKind
  tolerance : Float

/-- A tolerance outside the range from zero to one. -/
structure ToleranceError where
  kind : MetricKind
  tolerance : Float

def ToleranceError.message (e : ToleranceError) : String :=
  s!"tolerance of {e.kind.name} must be in range 0 - 1 (included), got " ++
    Decimal.plainText e.tolerance

namespace Metric

/-- A metric whose tolerance lies between zero and one, both included. -/
def make (kind : MetricKind) (tolerance : Float) : Except ToleranceError Metric :=
  if 0.0 ≤ tolerance ∧ tolerance ≤ 1.0 then .ok ⟨kind, tolerance⟩
  else .error ⟨kind, tolerance⟩

/-- A metric that tolerates no difference. -/
def exact (kind : MetricKind) : Metric :=
  ⟨kind, 0.0⟩

end Metric

/-- The relative difference to a reference of zero is undefined. -/
structure ZeroReference where
  kind : MetricKind
  value : Float

def ZeroReference.message (e : ZeroReference) : String :=
  s!"reference of {e.kind.name} is zero, relative difference of " ++
    Decimal.plainText e.value ++ " is undefined"

/-- A value, its reference and their relative difference. -/
structure Measurement where
  value : Float
  reference : Float
  difference : Float

namespace Measurement

/-- The relative difference of two counters. The distance is taken exactly and divided last. -/
def countDifference (kind : MetricKind) (value reference : Nat) : Except ZeroReference Float :=
  if reference = 0 then .error ⟨kind, Float.ofNat value⟩
  else
    let distance := max value reference - min value reference
    .ok (Float.ofNat distance / Float.ofNat reference)

/-- The relative difference of two real numbers. -/
def realDifference (kind : MetricKind) (value reference : Float) : Except ZeroReference Float :=
  if reference == 0.0 then .error ⟨kind, value⟩
  else .ok ((value - reference).abs / reference)

/-- Compares two counters. -/
def ofCounts (kind : MetricKind) (value reference : Nat) : Except ZeroReference Measurement := do
  let difference ← countDifference kind value reference
  return ⟨Float.ofNat value, Float.ofNat reference, difference⟩

/-- Compares two real numbers. -/
def ofReals (kind : MetricKind) (value reference : Float) : Except ZeroReference Measurement := do
  let difference ← realDifference kind value reference
  return ⟨value, reference, difference⟩

/-- A total per second, zero where no time has passed. -/
def rate (total : Nat) (seconds : Float) : Float :=
  if 0.0 < seconds then Float.ofNat total / seconds else 0.0

/-- A total in millions per second. -/
def millionRate (total : Nat) (seconds : Float) : Float :=
  rate total seconds / 1000000.0

/-- Measures one kind. Counters are compared with the reference data, rates and durations with the
totals of the generator. -/
def evaluate (kind : MetricKind) (flows reference : Dataset) (stats : GeneratorStats) :
    Except ZeroReference Measurement :=
  match kind with
  | .packets => ofCounts kind flows.totalPackets reference.totalPackets
  | .bytes => ofCounts kind flows.totalBytes reference.totalBytes
  | .flows => ofCounts kind flows.length reference.length
  | .packetRate =>
    ofReals kind (rate flows.totalPackets flows.duration) (rate stats.packets.toNat stats.duration)
  | .byteRate =>
    ofReals kind (millionRate flows.totalBytes flows.duration)
      (millionRate stats.bytes.toNat stats.duration)
  | .duration => ofReals kind flows.duration stats.duration

end Measurement

end FlowAudit
