import FlowAudit.Proofs.Replication.Blocks
import FlowAudit.Proofs.Replication.Outcome
/-!
Conservation of traffic. Every unit that is active in a loop replays the whole recorded volume, and
neither collapsing units nor merging across loops changes the sum.
-/
namespace FlowAudit.Replicator

/-- How often the recording is replayed, counted over loops and their active units. -/
def replays (r : Replicator) (options : ReplayOptions) : Nat :=
  ((r.activeLoops options).map fun loop => (r.plan.activeIn loop).length).sum

/-- Counting a shift counts one unit more. -/
theorem sum_countShift (s : Shift) (seen : List (Shift × Nat)) :
    ((countShift s seen).map Prod.snd).sum = (seen.map Prod.snd).sum + 1 := by
  induction seen with
  | nil => rfl
  | cons entry rest ih =>
      rw [countShift]
      split
      · simp only [List.map_cons, List.sum_cons]
        omega
      · simp only [List.map_cons, List.sum_cons, ih]
        omega

/-- All units are counted, however many of them share a shift. -/
theorem sum_foldl_countShift (shifts : List Shift) (seen : List (Shift × Nat)) :
    ((shifts.foldl (fun seen s => countShift s seen) seen).map Prod.snd).sum =
      (seen.map Prod.snd).sum + shifts.length := by
  induction shifts generalizing seen with
  | nil => rfl
  | cons s rest ih =>
      rw [List.foldl_cons, ih, sum_countShift, List.length_cons]
      omega

/-- Collapsing keeps the number of units. -/
theorem sum_shiftsIn (plan : Plan) (loop : UInt32) :
    ((shiftsIn plan loop).map Prod.snd).sum = (plan.activeIn loop).length := by
  rw [shiftsIn, sum_foldl_countShift, List.length_map]
  simp

/-- A replayed flow has the counters of the recorded one as often as there are copies. -/
theorem volume_replay {clock : Clock} {loop : UInt32} {f g : Flow} {s : Shift} {copies : Nat}
    (h : replay clock loop f s copies = .ok g) : g.volume = copies • f.volume := by
  rw [replay] at h
  split at h
  · next packets bytes hPackets hBytes =>
      cases h
      rw [Flow.volume, Word.toNat_of_ofNat? hPackets, Word.toNat_of_ofNat? hBytes]
      exact Prod.ext (Nat.mul_comm _ _) (Nat.mul_comm _ _)
  · cases h

/-- One loop replays the recorded volume once for each of its active units. -/
theorem volume_replayLoop {plan : Plan} {clock : Clock} {d out : Dataset} {loop : UInt32}
    (h : replayLoop plan clock d loop = .ok out) :
    Dataset.volume out = (plan.activeIn loop).length • d.volume := by
  obtain ⟨flows, hFlows, hOut⟩ := bind_eq_ok_iff.mp h
  cases hOut
  have hEach : ∀ f replayed,
      ((shiftsIn plan loop).mapM fun s => replay clock loop f s.1 s.2) = .ok replayed →
        Dataset.volume replayed = (plan.activeIn loop).length • f.volume := by
    intro f replayed hReplayed
    rw [Dataset.volume, map_eq_map_of_mapM hReplayed fun _ _ => volume_replay, ← sum_shiftsIn,
      List.sum_smul, List.map_map]
    rfl
  rw [Dataset.volume_flatten, map_eq_map_of_mapM hFlows hEach, Dataset.volume, List.smul_sum,
    List.map_map]
  rfl

/-- Before any merging, a replay has the recorded volume as often as there are active replays. -/
theorem volume_replayAll {r : Replicator} {d out : Dataset} {options : ReplayOptions}
    (h : r.replayAll d options = .ok out) :
    Dataset.volume out = r.replays options • d.volume := by
  rw [replayAll] at h
  cases hBounds : d.timeBounds? with
  | none =>
      rw [hBounds] at h
      cases h
      rw [Dataset.timeBounds?_eq_none_iff.mp hBounds]
      simp
  | some bounds =>
      rw [hBounds] at h
      obtain ⟨flows, hFlows, hOut⟩ := bind_eq_ok_iff.mp h
      cases hOut
      rw [Dataset.volume_flatten, map_eq_map_of_mapM hFlows fun _ _ => volume_replayLoop, replays,
        List.sum_smul, List.map_map]
      rfl

/-- Whatever the speed and however flows are merged, a replay that succeeds has the recorded
packets and bytes once for each active unit of each loop. -/
theorem totals_replicate {r : Replicator} {d out : Dataset} {options : ReplayOptions}
    (h : (r.replicate d options).outcome = .ok out) :
    out.totalPackets = d.totalPackets * r.replays options ∧
      out.totalBytes = d.totalBytes * r.replays options := by
  obtain ⟨hFinite, hPositive⟩ := speed_of_replicate_ok h
  rw [outcome_replicate r d options hFinite hPositive] at h
  obtain ⟨flows, hFlows, hMerged⟩ := bind_eq_ok_iff.mp h
  have hReplayed := volume_replayAll (mapError_eq_ok_iff.mp hFlows)
  have hVolume : Dataset.volume out = r.replays options • d.volume := by
    rw [← hReplayed]
    cases hMerge : options.mergeAcrossLoops with
    | false =>
        rw [hMerge] at hMerged
        cases hMerged
        rfl
    | true =>
        rw [hMerge] at hMerged
        exact volume_mergeAcrossLoops (mapError_eq_ok_iff.mp hMerged)
  rw [Dataset.volume_eq, Dataset.volume_eq] at hVolume
  obtain ⟨hPackets, hBytes⟩ := Prod.mk.inj hVolume
  exact ⟨hPackets.trans (Nat.mul_comm _ _), hBytes.trans (Nat.mul_comm _ _)⟩

/-- Seven replays of two flows. Units collapse in every loop, the second flow meets the shifted
first one in loop one, and the ignored loop two leaves a gap that the cache does not bridge. -/
theorem totals_replicate_colliding :
    let key (source : Nat) : FlowKey := ⟨6, .ofNat .v4 source, .ofNat .v4 0x0a000002, 1, 80⟩
    let r : Replicator :=
      ⟨⟨[.unchanged, ⟨some ⟨1⟩, none, .only [1]⟩, .unchanged], .unchanged⟩, [2]⟩
    let options : ReplayOptions := ⟨4, true, some 500, 2.0⟩
    let d : Dataset :=
      [⟨key 0x0a000001, 1000, 1400, 5, 500, none⟩, ⟨key 0x0a000002, 1200, 2000, 7, 70, none⟩]
    let out : Dataset :=
      [⟨key 0x0a000001, 1000, 1700, 20, 2000, none⟩, ⟨key 0x0a000001, 2500, 2700, 10, 1000, none⟩,
        ⟨key 0x0a000002, 1100, 2000, 33, 780, none⟩, ⟨key 0x0a000002, 2600, 3000, 14, 140, none⟩,
        ⟨key 0x0a000003, 1600, 2000, 7, 70, none⟩]
    (r.replicate d options).outcome = .ok out ∧ r.replays options = 7 ∧
      out.totalPackets = d.totalPackets * r.replays options ∧
      out.totalBytes = d.totalBytes * r.replays options := by
  intro key r options d out
  let flows : Dataset :=
    [⟨key 0x0a000001, 1000, 1200, 10, 1000, none⟩, ⟨key 0x0a000002, 1100, 1500, 14, 140, none⟩,
      ⟨key 0x0a000001, 1500, 1700, 10, 1000, none⟩, ⟨key 0x0a000002, 1500, 1700, 5, 500, none⟩,
      ⟨key 0x0a000002, 1600, 2000, 14, 140, none⟩, ⟨key 0x0a000003, 1600, 2000, 7, 70, none⟩,
      ⟨key 0x0a000001, 2500, 2700, 10, 1000, none⟩, ⟨key 0x0a000002, 2600, 3000, 14, 140, none⟩]
  have hFlows : r.replayAll d options = .ok flows := by decide +kernel
  have hMerged : FlowAudit.mergeAcrossLoops flows (some 500) = .ok out := by
    simp only [flows, key, out]
    cbv
  have hOutcome : (r.replicate d options).outcome = .ok out := by
    rw [outcome_replicate r d options (by decide) (by decide), hFlows, mapError_ok, ok_bind,
      if_pos rfl]
    exact mapError_eq_ok_iff.mpr hMerged
  exact ⟨hOutcome, by decide, totals_replicate hOutcome⟩

end FlowAudit.Replicator
