import FlowAudit.Merge
/-!
Merging flows across loops, the way a flow cache sees them. The flows of one key pass through the
cache in the order of their start, and the cache holds one flow open. What starts in time is added
to the open flow. What starts a timeout or more after the flow seen last is opened in its place.
-/
namespace FlowAudit

/-- Whether the gap from the end of one flow to the start of the next one reaches the timeout.
Without a timeout it never does; overlapping flows have a negative gap. -/
def gapExpires (timeout : Option UInt64) (stop start : UInt64) : Bool :=
  timeout.any fun t => decide ((t.toNat : Int) ≤ (start.toNat : Int) - stop.toNat)

/-- The flows in the order of their start. Flows that start together keep their order. -/
def byStart (flows : List Flow) : List Flow :=
  flows.mergeSort fun f g => decide (f.startTime ≤ g.startTime)

/-- A flow cache while the flows of one key pass through it: the flows it has given up so far, those
of earlier keys included, the flow that is open, and the end of the flow it has seen last. -/
structure FlowCache where
  finished : Array Flow
  current : Flow
  lastEnd : UInt64

namespace FlowCache

/-- The cache right after a flow has been opened. -/
def opening (finished : Array Flow) (f : Flow) : FlowCache :=
  ⟨finished, f, f.endTime⟩

/-- Everything the cache gives out when no flow of the key follows. The flow count is not known. -/
def flush (c : FlowCache) : Array Flow :=
  c.finished.push c.current.uncounted

/-- The next flow of the key. The gap counts from the flow seen last, which need not be the one that
ends last. -/
def see (timeout : Option UInt64) (c : FlowCache) (f : Flow) : Except CounterOverflow FlowCache :=
  if gapExpires timeout c.lastEnd f.startTime then .ok (opening c.flush f)
  else do
    let current ← c.current.absorb f
    return { c with current, lastEnd := f.endTime }

/-- Adds what the cache makes of the flows of one key to the flows it has given up before. -/
def run (timeout : Option UInt64) (finished : Array Flow) (flows : List Flow) :
    Except CounterOverflow (Array Flow) :=
  match byStart flows with
  | [] => .ok finished
  | first :: rest => do
    let cache ← rest.foldlM (see timeout) (opening finished first)
    return cache.flush

end FlowCache

/-- Merges flows across loops, one key after the other. The result is ordered by key, then by start.
The first flow in this order whose counters cannot be added any more ends the merging. -/
def mergeAcrossLoops (flows : List Flow) (timeout : Option UInt64) :
    Except CounterOverflow (List Flow) := do
  let finished ← (groupBy Flow.key flows).foldlM
    (fun finished group => FlowCache.run timeout finished group.2) #[]
  return finished.toList

end FlowAudit
