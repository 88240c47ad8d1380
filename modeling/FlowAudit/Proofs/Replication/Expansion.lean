import FlowAudit.Proofs.Replication.Outcome
import FlowAudit.Proofs.Replication.Shift
import FlowAudit.Proofs.Totals
/-!
Replication as a plain expansion. Each unit replays each flow on its own, with exact arithmetic;
the results of one flow that have the same addresses are added up afterwards. A replay without
merging across loops is this expansion, and it fails iff a sum of counters does not fit a word.
-/
namespace FlowAudit

/-- What one or more replays of a flow add up to. The counters may be too large for a flow. -/
structure Tally where
  key : FlowKey
  startTime : Nat
  endTime : Nat
  packets : Nat
  bytes : Nat

namespace Tally

def endpoints (t : Tally) : Address × Address :=
  (t.key.source, t.key.destination)

/-- Whether both counters fit a word. -/
def fits (t : Tally) : Bool :=
  decide (t.packets ≤ Word.largest) && decide (t.bytes ≤ Word.largest)

def toFlow (t : Tally) : Flow :=
  ⟨t.key, .ofNat t.startTime, .ofNat t.endTime, .ofNat t.packets, .ofNat t.bytes, none⟩

/-- The first tally of a list with the sums of all counters. -/
def total? : List Tally → Option Tally
  | [] => none
  | t :: rest => some { t with
      packets := ((t :: rest).map packets).sum
      bytes := ((t :: rest).map bytes).sum }

/-- Adds up the tallies with the same addresses. The result is in the order of the first tally for
each pair of addresses. -/
def merge (ts : List Tally) : List Tally :=
  (ts.map endpoints).eraseDups.filterMap fun e => total? (ts.filter fun t => t.endpoints = e)

/-- Several equal tallies together. -/
def times (t : Tally) (copies : Nat) : Tally :=
  { t with packets := t.packets * copies, bytes := t.bytes * copies }

/-- Copies of a tally add up to its multiple. -/
theorem total?_replicate (t : Tally) {copies : Nat} (h : 0 < copies) :
    total? (List.replicate copies t) = some (t.times copies) := by
  obtain ⟨n, rfl⟩ := Nat.exists_eq_add_one_of_ne_zero h.ne'
  rw [List.replicate_succ, total?, ← List.replicate_succ]
  simp only [List.map_replicate, List.sum_replicate_nat, times, Nat.mul_comm]

/-- Where different members have different addresses, only repetitions are added up. -/
theorem merge_map {α : Type} [DecidableEq α] {g : α → Tally}
    (hg : Function.Injective fun a => (g a).endpoints) (xs : List α) :
    merge (xs.map g) = xs.eraseDups.map fun a => (g a).times (xs.count a) := by
  have hGroup : ∀ a ∈ xs.eraseDups,
      total? ((xs.map g).filter fun t => t.endpoints = (g a).endpoints) =
        some ((g a).times (xs.count a)) := by
    intro a ha
    have hSame : (xs.map g).filter (fun t => t.endpoints = (g a).endpoints) =
        List.replicate (xs.count a) (g a) := by
      have hKey : ((fun t : Tally => decide (t.endpoints = (g a).endpoints)) ∘ g) =
          fun b => decide (b = a) := by
        funext b
        exact decide_eq_decide.mpr hg.eq_iff
      rw [List.filter_map, hKey, List.filter_eq, List.map_replicate]
    rw [hSame]
    exact total?_replicate _ (List.count_pos_iff.mpr (List.mem_eraseDups.mp ha))
  rw [merge, List.map_map]
  change (List.filterMap _ ((xs.map fun a => (g a).endpoints).eraseDups)) = _
  rw [eraseDups_map hg, List.filterMap_map]
  exact (List.filterMap_congr hGroup).trans (congrFun List.filterMap_eq_map' _)

end Tally

/-- The recording and the speed that decide the times of a replay. -/
structure Timing where
  start : Nat
  stop : Nat
  speed : Float

namespace Timing

/-- The length of a span of milliseconds in the replay. -/
def span (t : Timing) (ms : Nat) : Nat :=
  (Replicator.scale (.ofNat ms) (1.0 / t.speed)).toNat

/-- When a loop replays a flow. Times stop at the largest word. -/
def startOf (t : Timing) (loop : UInt32) (f : Flow) : Nat :=
  min (t.start + loop.toNat * t.span (t.stop - t.start) + t.span (f.startTime.toNat - t.start))
    Word.largest

def endOf (t : Timing) (loop : UInt32) (f : Flow) : Nat :=
  min (t.startOf loop f + t.span (f.endTime.toNat - f.startTime.toNat)) Word.largest

end Timing

namespace Replicator

/-- A flow as one unit replays it in a loop. -/
def candidate (plan : Plan) (t : Timing) (loop : UInt32) (f : Flow) (u : ReplayUnit) : Tally where
  key := { f.key with
    source := f.key.source.move (exactOffset u.source plan.perLoop.source loop)
    destination :=
      f.key.destination.move (exactOffset u.destination plan.perLoop.destination loop) }
  startTime := t.startOf loop f
  endTime := t.endOf loop f
  packets := f.packets.toNat
  bytes := f.bytes.toNat

/-- What a replay should produce, flow by flow within each loop. -/
def expansion (r : Replicator) (d : Dataset) (options : ReplayOptions) : List Tally :=
  match d.timeBounds? with
  | none => []
  | some (start, stop) =>
    let t : Timing := ⟨start, stop, options.speed⟩
    (r.activeLoops options).flatMap fun loop => d.flatMap fun f =>
      Tally.merge ((r.plan.activeIn loop).map (candidate r.plan t loop f))

/-- A flow as a shift leaves it, before counters are multiplied. -/
def shifted (t : Timing) (loop : UInt32) (f : Flow) (s : Shift) : Tally where
  key := { f.key with
    source := f.key.source.shift s.source
    destination := f.key.destination.shift s.destination }
  startTime := t.startOf loop f
  endTime := t.endOf loop f
  packets := f.packets.toNat
  bytes := f.bytes.toNat

theorem candidate_eq_shifted (plan : Plan) (t : Timing) (loop : UInt32) (f : Flow)
    (u : ReplayUnit) : candidate plan t loop f u = shifted t loop f (shiftOf plan loop u) := by
  simp only [candidate, shifted, shiftOf, shift_word_offset]

/-- Different shifts lead to different addresses, so only equal shifts collapse. -/
theorem endpoints_shifted_injective (t : Timing) (loop : UInt32) (f : Flow) :
    Function.Injective fun s => (shifted t loop f s).endpoints := by
  intro s s' h
  obtain ⟨hSource, hDestination⟩ := Prod.mk.inj h
  have hs := Address.shift_injective _ hSource
  have hd := Address.shift_injective _ hDestination
  cases s
  cases s'
  exact Shift.mk.injEq .. ▸ ⟨hs, hd⟩

/-- The units of a loop can be collapsed before any address is known. -/
theorem merge_candidates (plan : Plan) (t : Timing) (loop : UInt32) (f : Flow) :
    Tally.merge ((plan.activeIn loop).map (candidate plan t loop f)) =
      (shiftsIn plan loop).map fun s => (shifted t loop f s.1).times s.2 := by
  have hShifts : (plan.activeIn loop).map (candidate plan t loop f) =
      (unitShifts plan loop).map (shifted t loop f) := by
    rw [unitShifts, List.map_map]
    exact List.map_congr_left fun u _ => candidate_eq_shifted plan t loop f u
  rw [hShifts, Tally.merge_map (endpoints_shifted_injective t loop f), shiftsIn_eq, List.map_map]
  rfl

/-- The counters of a replayed flow are checked last, when everything else is known. -/
def check (t : Tally) : Except CounterOverflow Flow :=
  if t.fits then .ok t.toFlow else .error ⟨t.key⟩

/-- The words of the clock are the exact times of the recording. -/
theorem replay_times {start stop : Nat} (hLe : start ≤ stop) (hStop : stop ≤ Word.largest)
    (speed : Float) (loop : UInt32) {f : Flow} (hStart : start ≤ f.startTime.toNat) :
    let clock := Clock.of start stop speed
    let t : Timing := ⟨start, stop, speed⟩
    clock.start.toNat + loop.toNat * clock.loopLength.toNat +
        (scale (f.startTime - clock.start) clock.multiplier).toNat =
      t.start + loop.toNat * t.span (t.stop - t.start) + t.span (f.startTime.toNat - t.start) := by
  have hStartWord : (UInt64.ofNat start).toNat = start := Word.toNat_ofNat_of_le (by omega)
  have hStopWord : (UInt64.ofNat stop).toNat = stop := Word.toNat_ofNat_of_le hStop
  have hLength : UInt64.ofNat stop - UInt64.ofNat start = .ofNat (stop - start) := by
    rw [Word.sub_ofNat (by omega), hStopWord]
  simp only [Clock.of, Timing.span, hStartWord, hLength, Word.sub_ofNat hStart]

/-- A replay in words is the exact tally, checked at the end. Offsets within the recording do not
wrap. -/
theorem replay_eq_check {start stop : Nat} (hLe : start ≤ stop) (hStop : stop ≤ Word.largest)
    (speed : Float) (loop : UInt32) {f : Flow} (hStart : start ≤ f.startTime.toNat)
    (s : Shift) (copies : Nat) :
    replay (Clock.of start stop speed) loop f s copies =
      check ((shifted ⟨start, stop, speed⟩ loop f s).times copies) := by
  have hTimes := replay_times hLe hStop speed loop hStart
  rw [replay, hTimes]
  by_cases hPackets : f.packets.toNat * copies ≤ Word.largest
  · by_cases hBytes : f.bytes.toNat * copies ≤ Word.largest
    · have hFits : ((shifted ⟨start, stop, speed⟩ loop f s).times copies).fits := by
        simp [Tally.fits, Tally.times, shifted, hPackets, hBytes]
      rw [check, if_pos hFits, Word.mul?, Word.ofNat?_of_le hPackets, Word.mul?,
        Word.ofNat?_of_le hBytes, Word.toNat_clamp]
      rfl
    · simp [check, Tally.fits, Tally.times, shifted, Word.mul?, hBytes,
        Word.ofNat?_eq_none_iff.mpr (Nat.lt_of_not_le hBytes)]
  · simp [check, Tally.fits, Tally.times, shifted, Word.mul?, hPackets,
      Word.ofNat?_eq_none_iff.mpr (Nat.lt_of_not_le hPackets)]

/-- The recorded bounds of ordered flows are ordered words. -/
theorem timeBounds?_ordered {d : Dataset} {start stop : Nat}
    (hBounds : d.timeBounds? = some (start, stop))
    (hOrdered : ∀ f ∈ d, f.startTime ≤ f.endTime) : start ≤ stop ∧ stop ≤ Word.largest := by
  obtain ⟨⟨_, hStart⟩, ⟨f, hf, hStop⟩, hLast⟩ := Dataset.timeBounds?_eq_some_iff.mp hBounds
  have hFlow := UInt64.le_iff_toNat_le.mp (hOrdered f hf)
  have hFirst := hStart f hf
  have hWord := Word.toNat_le_largest f.endTime
  omega

/-- A loop gives for each flow the collapsed tallies of its units, in the order of the units. -/
theorem replayLoop_eq_check {d : Dataset} {start stop : Nat}
    (hBounds : d.timeBounds? = some (start, stop))
    (hOrdered : ∀ f ∈ d, f.startTime ≤ f.endTime) (plan : Plan) (speed : Float) (loop : UInt32) :
    replayLoop plan (Clock.of start stop speed) d loop =
      (d.flatMap fun f => Tally.merge
        ((plan.activeIn loop).map (candidate plan ⟨start, stop, speed⟩ loop f))).mapM check := by
  obtain ⟨hLe, hStop⟩ := timeBounds?_ordered hBounds hOrdered
  have hStart := (Dataset.timeBounds?_eq_some_iff.mp hBounds).1.2
  rw [← flatten_mapM_mapM, replayLoop]
  refine congrArg (· >>= _) (mapM_congr fun f hf => ?_)
  rw [merge_candidates, List.mapM_map]
  exact mapM_congr fun s _ => replay_eq_check hLe hStop speed loop (hStart f hf) s.1 s.2

/-- Replaying is checking the expansion. -/
theorem replayAll_eq_check (r : Replicator) {d : Dataset} (options : ReplayOptions)
    (hOrdered : ∀ f ∈ d, f.startTime ≤ f.endTime) :
    r.replayAll d options = (r.expansion d options).mapM check := by
  rw [replayAll, expansion]
  cases hBounds : d.timeBounds? with
  | none => rfl
  | some bounds =>
      obtain ⟨start, stop⟩ := bounds
      rw [← flatten_mapM_mapM]
      exact congrArg (· >>= _) (mapM_congr fun loop _ =>
        replayLoop_eq_check hBounds hOrdered r.plan options.speed loop)

/-- Without merging across loops, a replay at an accepted speed is the expansion of each flow by
each unit. It fails iff a sum of counters does not fit a word, on the first such sum. -/
theorem replicate_eq_expansion (r : Replicator) (d : Dataset) (options : ReplayOptions)
    (hOrdered : ∀ f ∈ d, f.startTime ≤ f.endTime)
    (hFinite : options.speed.isFinite) (hPositive : 0.0 < options.speed)
    (hSeparate : options.mergeAcrossLoops = false) :
    ((∀ t ∈ r.expansion d options, t.fits) →
      (r.replicate d options).outcome = .ok ((r.expansion d options).map Tally.toFlow)) ∧
    ∀ t, (r.expansion d options).find? (fun t => !t.fits) = some t →
      (r.replicate d options).outcome = .error (.counterOverflow ⟨t.key⟩) := by
  have hOutcome : (r.replicate d options).outcome =
      ((r.expansion d options).mapM check).mapError ReplicationError.counterOverflow := by
    rw [outcome_replicate r d options hFinite hPositive, replayAll_eq_check r options hOrdered,
      hSeparate]
    exact bind_ok _
  have hCheck := mapM_check Tally.fits Tally.toFlow (fun t => CounterOverflow.mk t.key)
    (r.expansion d options)
  change (r.expansion d options).mapM check = _ at hCheck
  rw [hOutcome, hCheck]
  constructor
  · intro hFits
    have hNone : (r.expansion d options).find? (fun t => !t.fits) = none := by
      simpa [List.find?_eq_none] using hFits
    rw [hNone, Option.elim_none, mapError_ok]
  · intro t hFind
    rw [hFind, Option.elim_some, mapError_error]

/-- Two of three units leave the addresses alone, so their counters are added up in each loop. -/
theorem replicate_collapsed_units :
    let key : FlowKey := ⟨6, .ofNat .v4 0x0a000001, .ofNat .v4 0x0a000002, 1, 80⟩
    let moved (source : Nat) : FlowKey := { key with source := .ofNat .v4 source }
    let r : Replicator :=
      ⟨⟨[.unchanged, ⟨some ⟨1⟩, none, .all⟩, ⟨none, some ⟨0⟩, .all⟩],
        ⟨some ⟨0xffffffff⟩, none, .all⟩⟩, [1]⟩
    let d : Dataset := [⟨key, 1000, 2000, 5, 500, none⟩]
    (∀ f ∈ d, f.startTime ≤ f.endTime) ∧
    (r.replicate d (.plain 3)).outcome = .ok
      [⟨key, 1000, 2000, 10, 1000, none⟩, ⟨moved 0x0a000002, 1000, 2000, 5, 500, none⟩,
        ⟨moved 0x09ffffff, 3000, 4000, 10, 1000, none⟩,
        ⟨moved 0x0a000000, 3000, 4000, 5, 500, none⟩] := by
  intro key moved r d
  have hOrdered : ∀ f ∈ d, f.startTime ≤ f.endTime := by decide
  have hFits : ∀ t ∈ r.expansion d (.plain 3), t.fits := by decide +kernel
  have h := (replicate_eq_expansion r d (.plain 3) hOrdered (by decide) (by decide) rfl).1 hFits
  refine ⟨hOrdered, h.trans (congrArg Except.ok ?_)⟩
  decide +kernel

end Replicator

end FlowAudit
