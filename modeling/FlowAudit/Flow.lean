import FlowAudit.Address.Text
/-!
Flow summaries and their identities. A flow key names one direction of a conversation; the
conversation itself does not depend on the direction.
-/
namespace FlowAudit

/-- The identity of a flow in one direction. -/
structure FlowKey where
  protocol : UInt8
  source : Address
  destination : Address
  sourcePort : UInt16
  destinationPort : UInt16
  deriving DecidableEq

/-- The identity of both directions of a flow, with the smaller address first. -/
structure Conversation where
  first : Address
  second : Address
  firstPort : UInt16
  secondPort : UInt16
  protocol : UInt8
  deriving DecidableEq

/-- What was observed of one flow. Times are milliseconds. The flow count is set once observations
have been merged, and tells how many of them are in here. -/
structure Flow where
  key : FlowKey
  startTime : UInt64
  endTime : UInt64
  packets : UInt64
  bytes : UInt64
  flowCount : Option UInt64
  deriving DecidableEq

namespace FlowKey

/-- Protocol, addresses and ports decide in this order, the source before the destination. -/
instance : Ord FlowKey where
  compare :=
    compareLex (compareOn fun k => k.protocol.toNat) <|
    compareLex (compareOn source) <|
    compareLex (compareOn destination) <|
    compareLex (compareOn fun k => k.sourcePort.toNat) <|
    compareOn fun k => k.destinationPort.toNat

/-- The conversation a flow belongs to. The endpoints are exchanged only if the source is the
larger address, so two ports at one address stay in their order. -/
def conversation (k : FlowKey) : Conversation :=
  if compare k.source k.destination = .gt then
    ⟨k.destination, k.source, k.destinationPort, k.sourcePort, k.protocol⟩
  else ⟨k.source, k.destination, k.sourcePort, k.destinationPort, k.protocol⟩

/-- The same flow in the opposite direction. -/
def reverse (k : FlowKey) : FlowKey :=
  ⟨k.protocol, k.destination, k.source, k.destinationPort, k.sourcePort⟩

instance : ToString FlowKey where
  toString k :=
    s!"proto {k.protocol.toNat} {k.source}:{k.sourcePort.toNat} -> " ++
      s!"{k.destination}:{k.destinationPort.toNat}"

end FlowKey

/-- Addresses decide before ports, and the protocol decides last. -/
instance : Ord Conversation where
  compare :=
    compareLex (compareOn Conversation.first) <|
    compareLex (compareOn Conversation.second) <|
    compareLex (compareOn fun c => c.firstPort.toNat) <|
    compareLex (compareOn fun c => c.secondPort.toNat) <|
    compareOn fun c => c.protocol.toNat

namespace Flow

/-- The length of a flow, zero if its end precedes its start. -/
def duration (f : Flow) : UInt64 :=
  UInt64.ofNat (f.endTime.toNat - f.startTime.toNat)

/-- A flow as a table has it, where counts are not written. -/
def uncounted (f : Flow) : Flow :=
  { f with flowCount := none }

end Flow

end FlowAudit
