import FlowAudit.Proofs.Replication.Division
import FlowAudit.Proofs.Replication.TiedFlows
/-!
Different timeouts. Where a longer timeout cuts, a shorter one cuts as well, so each block of the
longer one is a run of blocks of the shorter one. Merging with the longer timeout is therefore a
second step after merging with the shorter one: it joins runs of flows of one key.
-/
namespace FlowAudit

open Dataset (Fits)

section Cut

variable {α : Type} {coarse fine : α → α → Bool}

/-- Cutting in more places divides each block further. -/
theorem cutWhere_eq_flatMap (h : ∀ x y, coarse x y → fine x y) (xs : List α) :
    cutWhere fine xs = (cutWhere coarse xs).flatMap fun b => cutWhere fine (blockMembers b) := by
  induction xs with
  | nil => rfl
  | cons a rest ih =>
      cases rest with
      | nil => rfl
      | cons b rest =>
          obtain ⟨more, blocks, hEq, hCons⟩ := cutWhere_cons_cons coarse a b rest
          obtain ⟨first, pieces, hPieces, hGrown⟩ := cutWhere_cons_cons fine a b more
          rw [hEq, List.flatMap_cons, blockMembers, hPieces, List.cons_append] at ih
          rw [hCons, cutWhere_cons_of_eq ih]
          by_cases hCoarse : coarse a b = true
          · rw [if_pos hCoarse, if_pos (h a b hCoarse), List.flatMap_cons, List.flatMap_cons,
              blockMembers, blockMembers, hPieces]
            rfl
          · rw [if_neg hCoarse, List.flatMap_cons, blockMembers, hGrown]
            split <;> rfl

/-- Only what the condition says of neighbours matters. -/
theorem cutWhere_congr {xs : List α} (h : xs.IsChain fun x y => coarse x y = fine x y) :
    cutWhere coarse xs = cutWhere fine xs := by
  induction xs with
  | nil => rfl
  | cons a rest ih =>
      cases rest with
      | nil => rfl
      | cons b rest =>
          obtain ⟨hHead, hRest⟩ := List.isChain_cons_cons.mp h
          obtain ⟨more, blocks, hEq, hCons⟩ := cutWhere_cons_cons coarse a b rest
          rw [hCons, hHead, cutWhere_cons_of_eq (ih hRest ▸ hEq)]

end Cut

/-- The first timeout is not longer than the second one. No timeout at all counts as the longest. -/
def NoLonger (timeout longer : Option UInt64) : Prop :=
  ∀ s, longer = some s → ∃ t, timeout = some t ∧ t ≤ s

theorem GapReaches.of_noLonger {timeout longer : Option UInt64} (h : NoLonger timeout longer)
    {f g : Flow} (hGap : GapReaches longer f g) : GapReaches timeout f g := by
  obtain ⟨s, hLonger, hReaches⟩ := hGap
  obtain ⟨t, hTimeout, hLe⟩ := h s hLonger
  rw [UInt64.le_iff_toNat_le] at hLe
  exact ⟨t, hTimeout, by omega⟩

/-- A shorter timeout cuts the blocks of the longer one further, and never across them. -/
theorem cacheBlocks_eq_flatMap {timeout longer : Option UInt64} (h : NoLonger timeout longer)
    (flows : List Flow) :
    cacheBlocks flows timeout =
      (cacheBlocks flows longer).flatMap fun b =>
        cutWhere (hasExpired timeout) (blockMembers b) := by
  have hCut : ∀ f g, hasExpired longer f g → hasExpired timeout f g := by
    intro f g hExpired
    rw [hasExpired_iff_gapReaches] at hExpired ⊢
    exact hExpired.of_noLonger h
  rw [cacheBlocks, cacheBlocks, List.flatMap_assoc]
  simp only [← cutWhere_eq_flatMap hCut]

/-- Parts of blocks that fit do fit. -/
theorem fits_of_mem_cacheBlocks {timeout longer : Option UInt64} (h : NoLonger timeout longer)
    {flows : List Flow} (hFits : ∀ b ∈ cacheBlocks flows longer, Fits (blockMembers b)) :
    ∀ c ∈ cacheBlocks flows timeout, Fits (blockMembers c) := by
  rw [cacheBlocks_eq_flatMap h]
  intro c hc
  obtain ⟨b, hb, hc⟩ := List.mem_flatMap.mp hc
  exact (hFits b hb).of_sublist (infix_of_mem_cutWhere _ hc).sublist

/-- The flow of a block stands for the flows of all pieces of the block. -/
theorem summarizes_pieces {cut : Flow → Flow → Bool} {b : Flow × List Flow}
    (hKey : ∀ f ∈ blockMembers b, f.key = b.1.key) (hFits : Fits (blockMembers b)) :
    (blockFlow b).Summarizes ((cutWhere cut (blockMembers b)).map blockFlow) := by
  have hWhole : ((cutWhere cut (blockMembers b)).map blockMembers).flatten = blockMembers b := by
    rw [← List.flatMap_def, flatMap_cutWhere]
  have hSum := summarizes_blockFlow hKey hFits
  rw [← hWhole] at hSum
  refine hSum.of_parts (forall₂_map_map_iff.mpr fun c hc => ?_)
  have hInfix := infix_of_mem_cutWhere cut hc
  have hMembers : ∀ f ∈ blockMembers c, f.key = b.1.key := fun f hf => hKey f (hInfix.subset hf)
  have hFirst := hMembers c.1 (List.mem_cons_self ..)
  exact summarizes_blockFlow (fun f hf => (hMembers f hf).trans hFirst.symm)
    (hFits.of_sublist hInfix.sublist)

/-- No flow stands for nothing, so there are at most as many flows as members. -/
theorem length_le_of_summarizes {flows : List Flow} {runs : List (List Flow)}
    (h : List.Forall₂ Flow.Summarizes flows runs) : flows.length ≤ runs.flatten.length := by
  have hRun : ∀ n ∈ runs.map List.length, 1 ≤ n := by
    rw [List.forall_mem_map]
    intro run hRun
    obtain ⟨f, _, hSum⟩ := exists_rel_of_mem h.flip hRun
    obtain ⟨g, hg, _⟩ := hSum.exists_mem
    exact List.length_pos_of_mem hg
  have hCount := List.length_le_sum_of_one_le _ hRun
  rw [List.length_map, ← h.length_eq] at hCount
  rwa [List.length_flatten]

/-- A timeout that is larger than all gaps never ends a flow. -/
theorem cacheBlocks_eq_none {flows : List Flow} {t : UInt64}
    (h : ∀ k sorted, SortedByStart (flows.filter fun f => f.key = k) sorted →
      sorted.IsChain fun f g => f.gap g < (t.toNat : Int)) :
    cacheBlocks flows (some t) = cacheBlocks flows none := by
  have hKept : ∀ k, cutWhere (hasExpired (some t)) (byStart (flows.filter fun f => f.key = k)) =
      cutWhere (hasExpired none) (byStart (flows.filter fun f => f.key = k)) := by
    intro k
    refine cutWhere_congr ((h k _ (sortedByStart_byStart _)).imp fun f g hGap => ?_)
    rw [Flow.gap] at hGap
    simp only [hasExpired, gapExpires, Option.any_some, Option.any_none, decide_eq_false_iff_not]
    omega
  simp only [cacheBlocks, groupBy_eq, List.flatMap_map, hKept]

/-- Merging with a timeout that is not longer than one with which it succeeds succeeds as well. The
longer timeout gives no more flows: each of them stands for a run of flows of its key that the
shorter one leaves next to each other. A timeout that is larger than all gaps between neighbours of
a key has the same result as no timeout. -/
theorem mergeAcrossLoops_coarsened (flows : List Flow) :
    (∀ timeout longer : Option UInt64, NoLonger timeout longer →
      ∀ coarse, mergeAcrossLoops flows longer = .ok coarse →
        ∃ fine, mergeAcrossLoops flows timeout = .ok fine ∧ coarse.length ≤ fine.length ∧
          ∃ runs : List (List Flow), runs.flatten = fine ∧
            List.Forall₂ (fun f run => f.Summarizes run ∧ f.flowCount = none) coarse runs) ∧
      ∀ t : UInt64,
        (∀ k sorted, SortedByStart (flows.filter fun f => f.key = k) sorted →
          sorted.IsChain fun f g => f.gap g < (t.toNat : Int)) →
        mergeAcrossLoops flows (some t) = mergeAcrossLoops flows none := by
  constructor
  · intro timeout longer hLonger coarse hCoarse
    obtain ⟨hFits, rfl⟩ := mergeAcrossLoops_eq_ok_iff.mp hCoarse
    have hRuns : List.Forall₂ (fun f run => f.Summarizes run ∧ f.flowCount = none)
        ((cacheBlocks flows longer).map blockFlow)
        ((cacheBlocks flows longer).map fun b =>
          (cutWhere (hasExpired timeout) (blockMembers b)).map blockFlow) :=
      forall₂_map_map_iff.mpr fun b hb =>
        ⟨summarizes_pieces (key_eq_of_mem_cacheBlocks hb) (hFits b hb), rfl⟩
    have hFlatten : ((cacheBlocks flows longer).map fun b =>
        (cutWhere (hasExpired timeout) (blockMembers b)).map blockFlow).flatten =
          (cacheBlocks flows timeout).map blockFlow := by
      rw [← List.flatMap_def, cacheBlocks_eq_flatMap hLonger, List.map_flatMap]
    refine ⟨(cacheBlocks flows timeout).map blockFlow,
      mergeAcrossLoops_eq_ok_iff.mpr ⟨fits_of_mem_cacheBlocks hLonger hFits, rfl⟩, ?_,
      _, hFlatten, hRuns⟩
    rw [← hFlatten]
    exact length_le_of_summarizes (hRuns.imp fun _ _ h => h.1)
  · intro t hGaps
    rw [mergeAcrossLoops_eq, mergeAcrossLoops_eq, cacheBlocks_eq_none hGaps]

/-- Gaps of 20 and 60 between three flows. The shorter timeout keeps all of them apart, the longer
one joins the first two, and one that is larger than both gaps is as good as none. -/
theorem mergeAcrossLoops_coarsened_three_flows :
    let key : FlowKey := ⟨17, .ofNat .v4 0x0a000001, .ofNat .v4 0x0a000002, 5000, 53⟩
    let flows : List Flow :=
      [⟨key, 0, 10, 2, 200, none⟩, ⟨key, 30, 40, 3, 300, none⟩, ⟨key, 100, 110, 4, 400, none⟩]
    let coarse : List Flow := [⟨key, 0, 40, 5, 500, none⟩, ⟨key, 100, 110, 4, 400, none⟩]
    mergeAcrossLoops flows (some 10) = .ok flows ∧ mergeAcrossLoops flows (some 50) = .ok coarse ∧
      (∃ runs : List (List Flow), runs.flatten = flows ∧
        List.Forall₂ (fun f run => f.Summarizes run ∧ f.flowCount = none) coarse runs) ∧
      mergeAcrossLoops flows (some 61) = mergeAcrossLoops flows none := by
  intro key flows coarse
  have hFine : mergeAcrossLoops flows (some 10) = .ok flows := by
    simp only [flows, key]
    cbv
  have hCoarse : mergeAcrossLoops flows (some 50) = .ok coarse := by
    simp only [flows, key, coarse]
    cbv
  have hLonger : NoLonger (some 10) (some 50) := by
    rintro s ⟨⟩
    exact ⟨10, rfl, by decide⟩
  have hGaps : ∀ k sorted, SortedByStart (flows.filter fun f => f.key = k) sorted →
      sorted.IsChain fun f g => f.gap g < ((61 : UInt64).toNat : Int) := by
    intro k sorted hSorted
    by_cases hKey : key = k
    · have hAll : (flows.filter fun f => f.key = k) = flows := by simp [flows, hKey]
      have hOrder : StartSorted flows := by
        rw [StartSorted]
        decide
      rw [hAll] at hSorted
      obtain rfl := hSorted.ascending.eq_of_filter hOrder hSorted.stable
      decide
    · have hNone : (flows.filter fun f => f.key = k) = [] := by simp [flows, hKey]
      rw [hNone] at hSorted
      obtain rfl := hSorted.ascending.eq_of_filter .nil hSorted.stable
      exact .nil
  obtain ⟨hCoarsened, hLarge⟩ := mergeAcrossLoops_coarsened flows
  obtain ⟨_, hSame, -, hRuns⟩ := hCoarsened _ _ hLonger _ hCoarse
  obtain rfl := Except.ok.inj (hFine.symm.trans hSame)
  exact ⟨hFine, hCoarse, hRuns, hLarge 61 hGaps⟩

end FlowAudit
