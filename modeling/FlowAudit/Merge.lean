import FlowAudit.Dataset
import FlowAudit.Grouping
import FlowAudit.Word
/-!
Merging flows. Flows of one key become one flow with the earliest start, the latest end and the
sums of the counters. After merging, both directions of a conversation can be given one common
time span.
-/
namespace FlowAudit

/-- The counters of one flow no longer fit a word. -/
structure CounterOverflow where
  key : FlowKey
  deriving DecidableEq

def CounterOverflow.message (e : CounterOverflow) : String :=
  s!"packet or byte counter of flow {e.key} exceeds 64 bits"

/-- Why probe flows cannot be merged. -/
inductive MergeError
  | duplicateReferenceKey (key : FlowKey) (count : Nat)
  | counterOverflow (cause : CounterOverflow)
  deriving DecidableEq

def MergeError.message : MergeError → String
  | duplicateReferenceKey key count =>
    s!"cannot merge flows, reference contains flow key {key} {count} times"
  | counterOverflow cause => cause.message

namespace Flow

/-- Adds the observations of another flow of the same key. Both counters must fit a word; the flow
count is left as it is. -/
def absorb (f g : Flow) : Except CounterOverflow Flow :=
  match Word.add? f.packets g.packets, Word.add? f.bytes g.bytes with
  | some packets, some bytes =>
    .ok { f with
      startTime := min f.startTime g.startTime
      endTime := max f.endTime g.endTime
      packets := packets
      bytes := bytes }
  | _, _ => .error ⟨f.key⟩

end Flow

/-- A merged flow together with the count of flows in it. -/
structure Merged where
  flow : Flow
  count : UInt64

namespace Merged

/-- The merged flow as an observation that knows how many flows it stands for. -/
def toFlow (m : Merged) : Flow :=
  { m.flow with flowCount := some m.count }

/-- Adds a flow to a table of merged flows with ascending keys. -/
def insert (f : Flow) : List Merged → Except CounterOverflow (List Merged)
  | [] => .ok [⟨f, 1⟩]
  | m :: rest =>
    match compare f.key m.flow.key with
    | .lt => .ok (⟨f, 1⟩ :: m :: rest)
    | .eq => do
      let flow ← m.flow.absorb f
      return ⟨flow, m.count + 1⟩ :: rest
    | .gt => do
      let rest ← insert f rest
      return m :: rest

end Merged

namespace Dataset

/-- One flow for each key, in ascending order of the keys. The first flow in the table whose
counters cannot be added any more ends the merging. -/
def mergeByKey (d : Dataset) : Except CounterOverflow Dataset := do
  let table ← d.foldlM (fun table f => Merged.insert f table) []
  return table.map Merged.toFlow

/-- Fails if a flow key occurs more than once, with the smallest such key and its count. -/
def checkUniqueKeys (d : Dataset) : Except MergeError Unit :=
  match (groupBy Flow.key d).find? fun group => decide (1 < group.2.length) with
  | some (key, members) => .error (.duplicateReferenceKey key members.length)
  | none => .ok ()

/-- Adds a flow to a table of the spans that conversations have so far, each from the earliest start
to the latest end. A conversation that is new begins with the span of the flow. -/
def extendSpans (f : Flow) : List (Conversation × UInt64 × UInt64) →
    List (Conversation × UInt64 × UInt64)
  | [] => [(f.key.conversation, f.startTime, f.endTime)]
  | (c, start, stop) :: rest =>
    if c = f.key.conversation then (c, min start f.startTime, max stop f.endTime) :: rest
    else (c, start, stop) :: extendSpans f rest

/-- The span of each conversation in a table. -/
def conversationSpans (d : Dataset) : List (Conversation × UInt64 × UInt64) :=
  d.foldl (fun spans f => extendSpans f spans) []

/-- Gives both directions of each conversation one time span. The spans are collected from the whole
table before the first flow takes one. -/
def alignConversations (d : Dataset) : Dataset :=
  let spans := d.conversationSpans
  d.map fun f =>
    match spans.lookup f.key.conversation with
    | some (start, stop) => { f with startTime := start, endTime := stop }
    | none => f

/-- Merges probe flows by key. Merging is refused if a key is not unique in the reference. -/
def merge (d reference : Dataset) (alignTimes : Bool) : Traced MergeError Dataset := do
  checkUniqueKeys reference
  let merged ← d.mergeByKey.mapError MergeError.counterOverflow
  Traced.report .debug s!"merged {d.length} probe flows into {merged.length} flow keys"
  return if alignTimes then alignConversations merged else merged

end Dataset

end FlowAudit
