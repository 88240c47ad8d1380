import FlowAudit.Replication.CrossLoop
import FlowAudit.Replication.Plan
/-!
Replication: the flows that a replay of recorded flows produces over several loops. Loops follow
each other without a pause, and each unit of the plan contributes a copy of every flow.
-/
namespace FlowAudit

/-- How often and how fast the flows are replayed, and whether a flow cache merges them. -/
structure ReplayOptions where
  loops : UInt32
  mergeAcrossLoops : Bool
  inactiveTimeout : Option UInt64
  speed : Float

/-- A number of loops at normal speed and without merging. -/
def ReplayOptions.plain (loops : UInt32) : ReplayOptions :=
  ⟨loops, false, none, 1.0⟩

/-- A plan and the loops that are not replayed. -/
structure Replicator where
  plan : Plan
  ignored : List UInt32

/-- The address offsets of one or more units in a loop. -/
structure Shift where
  source : UInt32
  destination : UInt32
  deriving DecidableEq

namespace Replicator

/-- A set of loops as text. -/
def loopSetText (loops : List UInt32) : String :=
  let names := loops.map fun n => toString n.toNat
  "\x7b" ++ String.intercalate ", " names ++ "\x7d"

/-- Reads a plan for a replay that leaves out some loops. -/
def make (plan : Json) (ignored : List UInt32) : Traced ReplicationError Replicator := do
  let ignored := loopSet ignored
  let plan ← Plan.parse plan ignored
  Traced.report .debug
    s!"replicator configured with {plan.units.length} units, ignoring loops {loopSetText ignored}"
  return ⟨plan, ignored⟩

/-- Scales a span by the inverse of the speed, rounding down. Spans beyond the largest word stop
there. -/
def scale (ms : UInt64) (multiplier : Float) : UInt64 :=
  if multiplier == 1.0 then ms else (Float.ofNat ms.toNat * multiplier).toUInt64

/-- The offsets of a unit in a loop. -/
def shiftOf (plan : Plan) (loop : UInt32) (u : ReplayUnit) : Shift where
  source := Modifier.offsetOf plan.perLoop.source * loop + Modifier.offsetOf u.source
  destination := Modifier.offsetOf plan.perLoop.destination * loop + Modifier.offsetOf u.destination

/-- Counts a shift among those seen so far. -/
def countShift (s : Shift) : List (Shift × Nat) → List (Shift × Nat)
  | [] => [(s, 1)]
  | (t, copies) :: rest =>
    if t = s then (t, copies + 1) :: rest else (t, copies) :: countShift s rest

/-- The different shifts of the units of a loop, each with the count of units that share it. -/
def shiftsIn (plan : Plan) (loop : UInt32) : List (Shift × Nat) :=
  ((plan.activeIn loop).map (shiftOf plan loop)).foldl (fun seen s => countShift s seen) []

/-- The time of the replay: when it starts, how long a loop lasts, and how spans are scaled. -/
structure Clock where
  start : UInt64
  loopLength : UInt64
  multiplier : Float

/-- The clock of a replay of flows between two times. -/
def Clock.of (start stop : Nat) (speed : Float) : Clock :=
  let multiplier := 1.0 / speed
  let first := UInt64.ofNat start
  ⟨first, scale (UInt64.ofNat stop - first) multiplier, multiplier⟩

/-- A flow as a loop replays it, shifted in time and in its addresses. Its counters are multiplied
by the count of units that produce it. -/
def replay (clock : Clock) (loop : UInt32) (f : Flow) (s : Shift) (copies : Nat) :
    Except CounterOverflow Flow :=
  let key := { f.key with
    source := f.key.source.shift s.source
    destination := f.key.destination.shift s.destination }
  let offset := scale (f.startTime - clock.start) clock.multiplier
  let start := Word.clamp (clock.start.toNat + loop.toNat * clock.loopLength.toNat + offset.toNat)
  let stop := Word.clamp (start.toNat + (scale f.duration clock.multiplier).toNat)
  match Word.mul? f.packets copies, Word.mul? f.bytes copies with
  | some packets, some bytes => .ok ⟨key, start, stop, packets, bytes, none⟩
  | _, _ => .error ⟨key⟩

/-- All flows of one loop, in the order of the recorded flows. -/
def replayLoop (plan : Plan) (clock : Clock) (d : Dataset) (loop : UInt32) :
    Except CounterOverflow (List Flow) := do
  let shifts := shiftsIn plan loop
  let flows ← d.mapM fun f => shifts.mapM fun (s, copies) => replay clock loop f s copies
  return flows.flatten

/-- The loops of a replay in order. -/
def loopsOf (options : ReplayOptions) : List UInt32 :=
  (List.range options.loops.toNat).map UInt32.ofNat

/-- Reports for each loop whether it is replayed. -/
def reportLoops (r : Replicator) : List UInt32 → Traced ReplicationError Unit
  | [] => pure ()
  | loop :: rest => do
    if r.ignored.contains loop then
      Traced.report .debug s!"skipping ignored loop {loop.toNat}"
    else Traced.report .debug s!"processing loop {loop.toNat}"
    r.reportLoops rest

/-- Replays recorded flows. The speed must be positive and finite; without flows nothing happens
at all. Errors come in the order of the result: of several flows whose counters no longer fit, the
first one is reported. A replay that works on the flows side by side may report any of them. -/
def replicate (r : Replicator) (d : Dataset) (options : ReplayOptions) :
    Traced ReplicationError Dataset := do
  if !options.speed.isFinite || !(0.0 < options.speed) then
    Traced.ofExcept (.error (.invalidSpeed options.speed))
  else match d.timeBounds? with
    | none => return []
    | some (start, stop) =>
      let loops := loopsOf options
      r.reportLoops loops
      let clock := Clock.of start stop options.speed
      let active := loops.filter fun loop => !r.ignored.contains loop
      let flows ← (active.mapM (replayLoop r.plan clock d)).mapError
        ReplicationError.counterOverflow
      let flows := flows.flatten
      Traced.report .verbose <|
        s!"replicated {d.length} flows into {flows.length} flows " ++
          s!"over {options.loops.toNat} loops"
      if options.mergeAcrossLoops then
        let merged ← (FlowAudit.mergeAcrossLoops flows options.inactiveTimeout).mapError
          ReplicationError.counterOverflow
        Traced.report .verbose s!"{merged.length} flows after merging across loops"
        return merged
      else return flows

end Replicator

end FlowAudit
