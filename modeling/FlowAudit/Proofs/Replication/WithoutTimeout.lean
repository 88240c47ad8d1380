import FlowAudit.Proofs.Merge.Outcome
import FlowAudit.Proofs.Replication.Division
/-!
Merging across loops without a timeout. The flow cache never gives up a flow, so each key has a
single block, and the order in which its flows start does not matter. What comes out are the flows
that merging by key makes, without their counts.
-/
namespace FlowAudit

open Dataset (KeysFit SumsUp)

/-- Flows that never end are one block. -/
theorem map_blockMembers_cutWhere_none {flows : List Flow} (h : flows ≠ []) :
    (cutWhere (hasExpired none) flows).map blockMembers = [flows] := by
  have hWhole : CutsInto (fun f g => hasExpired none f g = true) flows [flows] := by
    refine ⟨by simp, by simpa using h.symm, ?_, .singleton _⟩
    rw [List.forall_mem_singleton]
    exact (List.pairwise_of_forall fun f g => by simp [hasExpired, gapExpires]).isChain
  exact ((cutsInto_iff fun _ _ => Iff.rfl).mp hWhole).symm

/-- Without a timeout the blocks are the groups, sorted by start. -/
theorem map_blockMembers_cacheBlocks_none (flows : List Flow) :
    (cacheBlocks flows none).map blockMembers =
      (groupBy Flow.key flows).map fun group => byStart group.2 := by
  rw [cacheBlocks, List.map_flatMap, List.map_eq_flatMap]
  refine List.flatMap_congr fun group hGroup => map_blockMembers_cutWhere_none fun hNil => ?_
  have hPerm := byStart_perm group.2
  rw [hNil] at hPerm
  exact (mem_groupBy hGroup).1 (List.nil_perm.mp hPerm)

/-- Without a timeout, success is a matter of the totals of each key. -/
theorem exists_mergeAcrossLoops_none_iff {flows : List Flow} :
    (∃ out, mergeAcrossLoops flows none = .ok out) ↔ KeysFit flows := by
  rw [exists_mergeAcrossLoops_iff, ← List.forall_mem_map, map_blockMembers_cacheBlocks_none,
    List.forall_mem_map, Dataset.keysFit_iff]
  refine forall₂_congr fun group _ => ?_
  exact Dataset.fits_congr (Dataset.volume_perm (byStart_perm group.2))

/-- The flows of merging by key stand for the blocks, but they are counted. -/
theorem mergeAcrossLoops_none_of_sumsUp {merged flows : Dataset} (h : merged.SumsUp flows) :
    mergeAcrossLoops flows none = .ok (merged.map Flow.uncounted) := by
  have hBlocks : (cacheBlocks flows none).map blockMembers =
      merged.map fun m => byStart (flows.filter fun f => f.key = m.key) := by
    rw [map_blockMembers_cacheBlocks_none, groupBy_eq, ← h.map_key, List.map_map, List.map_map]
    rfl
  rw [mergeAcrossLoops_eq_ok_iff_summarizes, hBlocks, forall₂_map_map_iff]
  exact fun m hm => ⟨((h.summarizes m hm).of_perm (byStart_perm _).symm).uncounted, rfl⟩

/-- Without a timeout, merging across loops succeeds iff merging by key does; otherwise a counter
overflows in both. The flows that come out are the same and in the same order, but only merging by
key also counts, for each of them, the flows of its key. The table is taken as it is: flows to noise
destinations, which a table loses when it is read, are merged on both sides like all others. -/
theorem mergeAcrossLoops_none_agrees (flows : List Flow) :
    Corresponds (fun _ cause => ∃ overflow, cause = .counterOverflow overflow)
      (fun out merged => out = merged.map Flow.uncounted ∧
        ∀ m ∈ merged, m.flowCount = some (.ofNat (flows.filter fun f => f.key = m.key).length))
      (mergeAcrossLoops flows none) (Dataset.merge flows [] false).outcome := by
  have hOutcome : ∀ merged, (Dataset.merge flows [] false).outcome = .ok merged ↔
      merged.SumsUp flows := by
    intro merged
    rw [Dataset.outcome_merge_eq_ok_iff]
    exact and_iff_right List.nodup_nil
  cases hMerged : (Dataset.merge flows [] false).outcome with
  | ok merged =>
      have hSums := (hOutcome merged).mp hMerged
      exact Corresponds.ok_right_iff.mpr
        ⟨_, mergeAcrossLoops_none_of_sumsUp hSums, rfl, hSums.count⟩
  | error cause =>
      cases hAcross : mergeAcrossLoops flows none with
      | ok out =>
          have hFits := exists_mergeAcrossLoops_none_iff.mp ⟨out, hAcross⟩
          rw [(hOutcome _).mpr (Dataset.sumsUp_groupBy hFits)] at hMerged
          cases hMerged
      | error overflow =>
          rcases Dataset.outcome_merge_eq_error_iff.mp hMerged with
            ⟨k, n, -, hRepeated⟩ | ⟨-, k, hCause, -⟩
          · exact absurd List.nodup_nil (Dataset.exists_firstRepeated_iff.mp ⟨k, n, hRepeated⟩)
          · exact ⟨⟨k⟩, hCause⟩

end FlowAudit
