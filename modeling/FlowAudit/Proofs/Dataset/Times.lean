import FlowAudit.Proofs.Dataset.Derived
import FlowAudit.Proofs.Dataset.Loaded
import FlowAudit.Proofs.Replication.Expansion
/-!
Times stay in order. A row with reversed times is refused, longer spans and delays keep the order,
and a replay computes each end from its start. So the differences that a replay takes without a
check are exact on every table that it can be given.
-/
namespace FlowAudit

theorem Word.le_clamp_add (w : UInt64) (n : Nat) : w ≤ clamp (w.toNat + n) := by
  rw [UInt64.le_iff_toNat_le, toNat_clamp]
  exact Nat.le_min.mpr ⟨Nat.le_add_right .., toNat_le_largest w⟩

namespace Flow

theorem Within.ordered {f w : Flow} (h : f.Within w) (hOrdered : f.startTime ≤ f.endTime) :
    w.startTime ≤ w.endTime := by
  rw [UInt64.le_iff_toNat_le] at hOrdered ⊢
  exact Nat.le_trans (Nat.le_trans h.startTime hOrdered) h.endTime

/-- Both times may stop at the largest word, but they do so in order. -/
theorem ordered_delay {f : Flow} (hOrdered : f.startTime ≤ f.endTime) (ms : UInt64) :
    (f.delay ms).startTime ≤ (f.delay ms).endTime := by
  rw [UInt64.le_iff_toNat_le] at hOrdered ⊢
  simp only [delay, Word.toNat_clamp]
  omega

end Flow

namespace Replicator

/-- The end of a replayed flow is its start and a length, saturated. So it is not before the
start. -/
theorem ordered_replay {clock : Clock} {loop : UInt32} {f g : Flow} {s : Shift} {copies : Nat}
    (h : replay clock loop f s copies = .ok g) : g.startTime ≤ g.endTime := by
  rw [replay] at h
  split at h
  · cases h
    exact Word.le_clamp_add _ _
  · cases h

/-- This holds of all flows of a loop, whatever the plan shifts. -/
theorem ordered_replayLoop {plan : Plan} {clock : Clock} {d out : Dataset} {loop : UInt32}
    (h : replayLoop plan clock d loop = .ok out) : ∀ g ∈ out, g.startTime ≤ g.endTime := by
  obtain ⟨flows, hFlows, hOut⟩ := bind_eq_ok_iff.mp h
  cases hOut
  intro g hg
  obtain ⟨replays, hReplays, hg⟩ := List.mem_flatten.mp hg
  obtain ⟨f, _, hEach⟩ := (mem_iff_of_mapM hFlows).mp hReplays
  obtain ⟨s, _, hReplay⟩ := (mem_iff_of_mapM hEach).mp hg
  exact ordered_replay hReplay

/-- It holds of all loops, whatever times the recorded flows have. -/
theorem ordered_replayAll {r : Replicator} {d out : Dataset} {options : ReplayOptions}
    (h : r.replayAll d options = .ok out) : ∀ g ∈ out, g.startTime ≤ g.endTime := by
  rw [replayAll] at h
  cases hBounds : d.timeBounds? with
  | none =>
      rw [hBounds] at h
      cases h
      simp
  | some bounds =>
      rw [hBounds] at h
      obtain ⟨flows, hFlows, hOut⟩ := bind_eq_ok_iff.mp h
      cases hOut
      intro g hg
      obtain ⟨block, hBlock, hg⟩ := List.mem_flatten.mp hg
      obtain ⟨loop, _, hLoop⟩ := (mem_iff_of_mapM hFlows).mp hBlock
      exact ordered_replayLoop hLoop g hg

/-- The result of a replay is ordered, whatever the recorded flows are. -/
theorem ordered_replicate {r : Replicator} {d out : Dataset} {options : ReplayOptions}
    (h : (r.replicate d options).outcome = .ok out) : ∀ g ∈ out, g.startTime ≤ g.endTime := by
  obtain ⟨flows, hFlows, hOut⟩ := replayAll_of_replicate h
  have hOrdered := ordered_replayAll hFlows
  rcases hOut with rfl | hMerged
  · exact hOrdered
  · intro g hg
    obtain ⟨f, hf, hWithin⟩ := exists_within_of_mem_mergeAcrossLoops hMerged hg
    exact hWithin.ordered (hOrdered f hf)

end Replicator

namespace Dataset

/-- A table that has been read holds no flow that ends before it starts. -/
theorem Loaded.ordered {d : Dataset} (h : Loaded d) : ∀ f ∈ d, f.startTime ≤ f.endTime := by
  obtain ⟨rows, flows, hRows, rfl⟩ := h.exists_rows
  intro f hf
  obtain ⟨row, _, hRow⟩ := (mem_iff_of_mapM hRows).mp (List.mem_of_mem_filter hf)
  obtain ⟨hOrdered, hStart, hStop⟩ := Row.times_of_toFlow hRow
  rwa [hStart, hStop]

/-- In every table that any operations derive from loaded ones, no flow ends before it starts. The
clock of a replay of such a table subtracts its start from the last end and from each start, and
neither difference falls below zero. -/
theorem times_of_derived {d : Dataset} (h : d.Derived Loaded fun _ _ _ => True) :
    (∀ f ∈ d, f.startTime ≤ f.endTime) ∧
      ∀ start stop speed, d.timeBounds? = some (start, stop) →
        let clock := Replicator.Clock.of start stop speed
        clock.start.toNat = start ∧ (UInt64.ofNat stop).toNat = stop ∧
          clock.start ≤ UInt64.ofNat stop ∧ ∀ f ∈ d, clock.start ≤ f.startTime := by
  have hOrdered : ∀ f ∈ d, f.startTime ≤ f.endTime := by
    refine h.forall_mem (fun _ hd => hd.ordered) (fun f w hWithin => hWithin.ordered)
      (fun f ms hf => Flow.ordered_delay hf ms) ?_
    intro r d options out _ hReplicate _
    exact Replicator.ordered_replicate hReplicate
  refine ⟨hOrdered, fun start stop speed hBounds => ?_⟩
  obtain ⟨hLe, hStop⟩ := Replicator.timeBounds?_ordered hBounds hOrdered
  have hStartWord : (UInt64.ofNat start).toNat = start := Word.toNat_ofNat_of_le (by omega)
  have hStopWord : (UInt64.ofNat stop).toNat = stop := Word.toNat_ofNat_of_le hStop
  refine ⟨hStartWord, hStopWord, ?_, fun f hf => ?_⟩
  · rw [UInt64.le_iff_toNat_le, Replicator.Clock.of, hStartWord, hStopWord]
    exact hLe
  · rw [UInt64.le_iff_toNat_le, Replicator.Clock.of, hStartWord]
    exact (timeBounds?_eq_some_iff.mp hBounds).1.2 f hf

/-- A reference that is delayed up to the largest word, merged with common times for both directions
and replayed at half speed through a flow cache. -/
theorem times_of_derived_delayed :
    let key : FlowKey := ⟨6, .ofNat .v4 0x0a000001, .ofNat .v4 0x0a000002, 1, 80⟩
    let start : UInt64 := 0xffffffffffffffe0
    let stop : UInt64 := 0xffffffffffffffff
    let recorded : Dataset := [⟨key, 0, 4, 5, 500, none⟩, ⟨key.reverse, 2, 100, 1, 50, none⟩]
    let delayed : Dataset :=
      [⟨key, start, 0xffffffffffffffe4, 5, 500, none⟩,
        ⟨key.reverse, 0xffffffffffffffe2, stop, 1, 50, none⟩]
    let merged : Dataset :=
      [⟨key, start, stop, 5, 500, some 1⟩, ⟨key.reverse, start, stop, 1, 50, some 1⟩]
    let out : Dataset :=
      [⟨key, start, stop, 10, 1000, none⟩, ⟨key.reverse, start, stop, 2, 100, none⟩]
    let stats : GeneratorStats := ⟨start, 0, 6, 550⟩
    (parse recorded.render).outcome = .ok recorded ∧
      (Comparison.prepare [] recorded stats ⟨false, false, true⟩).outcome =
        .ok ⟨[], delayed, stats⟩ ∧
      (delayed.merge [] true).outcome = .ok merged ∧
      (Replicator.replicate ⟨.unchanged, []⟩ merged ⟨2, true, some 100, 0.5⟩).outcome = .ok out ∧
      out.timeBounds? = some (start.toNat, stop.toNat) ∧
      (∀ f ∈ out, f.startTime ≤ f.endTime) ∧
      let clock := Replicator.Clock.of start.toNat stop.toNat 2.0
      clock.start ≤ UInt64.ofNat stop.toNat ∧ ∀ f ∈ out, clock.start ≤ f.startTime := by
  intro key start stop recorded delayed merged out stats
  have hRead : (parse recorded.render).outcome = .ok recorded :=
    parse_render_eq_ok_iff.mpr ⟨by decide, by rfl⟩
  have hPrepare : (Comparison.prepare [] recorded stats ⟨false, false, true⟩).outcome =
      .ok ⟨[], delayed, stats⟩ := by
    have hAligned : Comparison.alignedTables [] recorded stats ⟨false, false, true⟩ =
        ([], delayed) := by decide +kernel
    rw [Comparison.outcome_prepare, hAligned]
    rfl
  have hMerge : (delayed.merge [] true).outcome = .ok merged := by decide +kernel
  have hReplay : (Replicator.replicate ⟨.unchanged, []⟩ merged
      ⟨2, true, some 100, 0.5⟩).outcome = .ok out := by
    let replayed : Dataset :=
      [⟨key, start, stop, 5, 500, none⟩, ⟨key.reverse, start, stop, 1, 50, none⟩,
        ⟨key, stop, stop, 5, 500, none⟩, ⟨key.reverse, stop, stop, 1, 50, none⟩]
    have hFlows : Replicator.replayAll ⟨.unchanged, []⟩ merged ⟨2, true, some 100, 0.5⟩ =
        .ok replayed := by decide +kernel
    have hCache : mergeAcrossLoops replayed (some 100) = .ok out := by
      simp only [replayed, out, key, start, stop]
      cbv
    rw [Replicator.outcome_replicate _ _ _ (by decide) (by decide), hFlows, mapError_ok, ok_bind]
    exact congrArg (Except.mapError _) hCache
  have hBounds : out.timeBounds? = some (start.toNat, stop.toNat) := by decide
  have hDerived : out.Derived Loaded fun _ _ _ => True :=
    .replay (.merge (.reference (.source (.text hRead)) hPrepare) hMerge) trivial hReplay
  obtain ⟨hOrdered, hClock⟩ := times_of_derived hDerived
  obtain ⟨_, _, hLength, hOffset⟩ := hClock _ _ 2.0 hBounds
  exact ⟨hRead, hPrepare, hMerge, hReplay, hBounds, hOrdered, hLength, hOffset⟩

end Dataset

end FlowAudit
