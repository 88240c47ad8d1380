import FlowAudit.Proofs.Merge.Summary
import FlowAudit.Proofs.Replication.Separation
import Mathlib.Data.List.SplitBy
/-!
The division of flows that merging across loops is about. It is described by rules alone: the flows
of each key stand in the order of their start, what starts together as it came, and they are divided
where the gap to the next flow reaches the timeout. There is exactly one such division, and merging
across loops makes one flow of each block in it.
-/
namespace FlowAudit

open Dataset (Fits)

section Cut

variable {α : Type} {cut : α → α → Bool}

/-- A list in consecutive blocks, none of them empty: the condition holds between two blocks and
nowhere inside one. -/
structure CutsInto (apart : α → α → Prop) (xs : List α) (blocks : List (List α)) : Prop where
  flatten : xs = blocks.flatten
  nonempty : [] ∉ blocks
  within : ∀ block ∈ blocks, block.IsChain fun x y => ¬apart x y
  between : blocks.IsChain fun b c => ∃ hb hc, apart (b.getLast hb) (c.head hc)

/-- Between the last member of a block and the first one of the next block there is a cut. -/
theorem isChain_blockMembers_cutWhere (xs : List α) :
    ((cutWhere cut xs).map blockMembers).IsChain fun b c =>
      ∃ hb hc, cut (b.getLast hb) (c.head hc) = true := by
  induction xs with
  | nil => exact .nil
  | cons a rest ih =>
      cases rest with
      | nil => exact .singleton _
      | cons b rest =>
          obtain ⟨more, blocks, hEq, hCons⟩ := cutWhere_cons_cons cut a b rest
          rw [hEq] at ih
          rw [hCons]
          split
          · next hCut =>
              exact List.isChain_cons_cons.mpr
                ⟨⟨List.cons_ne_nil _ _, List.cons_ne_nil _ _, hCut⟩, ih⟩
          · cases blocks with
            | nil => exact .singleton _
            | cons c blocks =>
                obtain ⟨⟨hb, hc, hFirst⟩, hRest⟩ := List.isChain_cons_cons.mp ih
                refine List.isChain_cons_cons.mpr ⟨⟨List.cons_ne_nil _ _, hc, ?_⟩, hRest⟩
                exact (List.getLast_cons hb).symm ▸ hFirst

/-- Only one way of cutting a list follows the rules. -/
theorem cutsInto_iff {apart : α → α → Prop} (h : ∀ x y, cut x y = true ↔ apart x y) {xs : List α}
    {blocks : List (List α)} :
    CutsInto apart xs blocks ↔ blocks = (cutWhere cut xs).map blockMembers := by
  have hSplit : CutsInto apart xs blocks ↔ xs.splitBy (fun x y => !cut x y) = blocks := by
    rw [List.splitBy_eq_iff]
    simp only [Bool.not_eq_true', Bool.eq_false_iff, ne_eq, not_not, h]
    exact ⟨fun h => ⟨h.flatten, h.nonempty, h.within, h.between⟩,
      fun ⟨hFlatten, hNonempty, hWithin, hBetween⟩ => ⟨hFlatten, hNonempty, hWithin, hBetween⟩⟩
  have hCut : xs.splitBy (fun x y => !cut x y) = (cutWhere cut xs).map blockMembers := by
    rw [List.splitBy_eq_iff]
    refine ⟨?_, ?_, ?_, ?_⟩
    · rw [← List.flatMap_def, flatMap_cutWhere]
    · simp [blockMembers]
    · rw [List.forall_mem_map]
      intro b hb
      simpa using isChain_of_mem_cutWhere cut hb
    · simpa using isChain_blockMembers_cutWhere xs
  rw [hSplit, hCut, eq_comm]

end Cut

/-- The flows in the order of their start. Those that start together are in the order in which they
came. -/
structure SortedByStart (flows sorted : List Flow) : Prop where
  ascending : StartSorted sorted
  stable : ∀ t, (sorted.filter fun f => f.startTime = t) = flows.filter fun f => f.startTime = t

/-- Lists in the order of their start are equal if at each time the same flows start in the same
order. -/
theorem StartSorted.eq_of_filter {xs ys : List Flow} (hx : StartSorted xs) (hy : StartSorted ys)
    (h : ∀ t, (xs.filter fun f => f.startTime = t) = ys.filter fun f => f.startTime = t) :
    xs = ys := by
  induction xs generalizing ys with
  | nil =>
      cases ys with
      | nil => rfl
      | cons y ys => simpa using h y.startTime
  | cons x xs ih =>
      cases ys with
      | nil => simpa using h x.startTime
      | cons y ys =>
          have hMem : ∀ f, f ∈ x :: xs ↔ f ∈ y :: ys := by
            intro f
            have hSame := congrArg (f ∈ ·) (h f.startTime)
            simpa only [List.mem_filter, decide_true, and_true, eq_iff_iff] using hSame
          have hStart : x.startTime = y.startTime := by
            have hLe := hx.head_le_of_mem ((hMem y).mpr (List.mem_cons_self ..))
            have hGe := hy.head_le_of_mem ((hMem x).mp (List.mem_cons_self ..))
            exact UInt64.toNat_inj.mp (Nat.le_antisymm hLe hGe)
          have hFirst := h x.startTime
          rw [List.filter_cons_of_pos (by simp),
            List.filter_cons_of_pos (by simp [hStart])] at hFirst
          obtain rfl := (List.cons.inj hFirst).1
          rw [ih hx.tail hy.tail fun t => ?_]
          have hTime := h t
          by_cases ht : x.startTime = t
          · simpa [ht] using hTime
          · simpa [ht] using hTime

/-- What starts together keeps its order in a stable sort. -/
theorem sortedByStart_byStart (flows : List Flow) : SortedByStart flows (byStart flows) := by
  refine ⟨startSorted_byStart flows, fun t => ?_⟩
  have hTied : (flows.filter fun f => f.startTime = t).Pairwise fun f g =>
      decide (f.startTime ≤ g.startTime) = true := by
    refine List.pairwise_of_forall_mem_list fun f hf g hg => ?_
    have hStart : f.startTime = g.startTime :=
      (of_decide_eq_true (List.mem_filter.mp hf).2).trans
        (of_decide_eq_true (List.mem_filter.mp hg).2).symm
    exact decide_eq_true (hStart ▸ UInt64.le_refl _)
  have hSublist : (flows.filter fun f => f.startTime = t).Sublist (byStart flows) :=
    List.sublist_mergeSort decide_startTime_trans decide_startTime_total hTied List.filter_sublist
  have hFilter := hSublist.filter fun f => decide (f.startTime = t)
  simp only [List.filter_filter, Bool.and_self] at hFilter
  exact (hFilter.eq_of_length ((byStart_perm flows).filter _).length_eq.symm).symm

/-- The rules for the order fix it, so sorting is the only way to meet them. -/
theorem sortedByStart_iff {flows sorted : List Flow} :
    SortedByStart flows sorted ↔ sorted = byStart flows := by
  have hSorted := sortedByStart_byStart flows
  constructor
  · intro h
    refine h.ascending.eq_of_filter hSorted.ascending fun t => ?_
    rw [h.stable, hSorted.stable]
  · rintro rfl
    exact hSorted

/-- How long after the end of a flow the next one starts. Overlapping flows have a negative gap. -/
def Flow.gap (f g : Flow) : Int :=
  g.startTime.toNat - f.endTime.toNat

/-- There is a timeout, and the gap between two flows reaches it. -/
def GapReaches (timeout : Option UInt64) (f g : Flow) : Prop :=
  ∃ t, timeout = some t ∧ t.toNat ≤ f.gap g

theorem hasExpired_iff_gapReaches {timeout : Option UInt64} {f g : Flow} :
    hasExpired timeout f g = true ↔ GapReaches timeout f g := by
  cases timeout <;> simp [hasExpired, gapExpires, GapReaches, Flow.gap]

/-- The keys of the flows in ascending order, each with its flows in the order of their start, in
blocks that end where the gap to the next flow reaches the timeout. -/
structure Divides (timeout : Option UInt64) (flows : List Flow)
    (parts : List (FlowKey × List (List Flow))) : Prop where
  ascending : (parts.map Prod.fst).Pairwise (compare · · = .lt)
  keys : ∀ k, k ∈ parts.map Prod.fst ↔ k ∈ flows.map Flow.key
  blocks : ∀ part ∈ parts, ∃ sorted,
    SortedByStart (flows.filter fun f => f.key = part.1) sorted ∧
      CutsInto (GapReaches timeout) sorted part.2

/-- The blocks of the flow cache, key by key. -/
def cacheParts (flows : List Flow) (timeout : Option UInt64) :
    List (FlowKey × List (List Flow)) :=
  (groupBy Flow.key flows).map fun group =>
    (group.1, (cutWhere (hasExpired timeout) (byStart group.2)).map blockMembers)

theorem flatMap_cacheParts (flows : List Flow) (timeout : Option UInt64) :
    (cacheParts flows timeout).flatMap Prod.snd = (cacheBlocks flows timeout).map blockMembers := by
  rw [cacheParts, cacheBlocks, List.flatMap_map, List.map_flatMap]

theorem map_fst_cacheParts (flows : List Flow) (timeout : Option UInt64) :
    (cacheParts flows timeout).map Prod.fst = distinctKeys Flow.key flows := by
  rw [cacheParts, groupBy_eq, List.map_map, List.map_map]
  exact List.map_id _

/-- The blocks of a part are those of the flow cache for its key. -/
theorem exists_cacheParts_iff {flows : List Flow} {timeout : Option UInt64} {k : FlowKey}
    {block : List Flow} :
    (∃ part ∈ cacheParts flows timeout, part.1 = k ∧ block ∈ part.2) ↔
      ∃ b ∈ cacheBlocks flows timeout, b.1.key = k ∧ blockMembers b = block := by
  constructor
  · rintro ⟨_, hPart, rfl, hBlock⟩
    obtain ⟨group, hGroup, rfl⟩ := List.mem_map.mp hPart
    obtain ⟨b, hb, rfl⟩ := List.mem_map.mp hBlock
    exact ⟨b, List.mem_flatMap.mpr ⟨group, hGroup, hb⟩,
      key_eq_of_mem_cutWhere hGroup hb b.1 (List.mem_cons_self ..), rfl⟩
  · rintro ⟨b, hb, rfl, rfl⟩
    obtain ⟨group, hGroup, hb⟩ := List.mem_flatMap.mp hb
    exact ⟨_, List.mem_map_of_mem hGroup,
      (key_eq_of_mem_cutWhere hGroup hb b.1 (List.mem_cons_self ..)).symm,
      List.mem_map_of_mem hb⟩

/-- The flow cache follows the rules, and nothing else does. -/
theorem divides_iff {timeout : Option UInt64} {flows : List Flow}
    {parts : List (FlowKey × List (List Flow))} :
    Divides timeout flows parts ↔ parts = cacheParts flows timeout := by
  have hApart : ∀ f g, hasExpired timeout f g = true ↔ GapReaches timeout f g :=
    fun _ _ => hasExpired_iff_gapReaches
  have hBlocks : ∀ (k : FlowKey) (blocks : List (List Flow)),
      (∃ sorted, SortedByStart (flows.filter fun f => f.key = k) sorted ∧
        CutsInto (GapReaches timeout) sorted blocks) ↔
      blocks = (cutWhere (hasExpired timeout)
        (byStart (flows.filter fun f => f.key = k))).map blockMembers := by
    intro k blocks
    simp only [sortedByStart_iff, exists_eq_left, cutsInto_iff hApart]
  constructor
  · rintro ⟨hAscending, hKeys, hParts⟩
    have hFst : parts.map Prod.fst = distinctKeys Flow.key flows := by
      refine eq_of_pairwise_compare hAscending (pairwise_distinctKeys Flow.key flows) fun k => ?_
      rw [hKeys, mem_distinctKeys, List.mem_map]
    have hPart : ∀ part ∈ parts, (part.1, (cutWhere (hasExpired timeout)
        (byStart (flows.filter fun f => f.key = part.1))).map blockMembers) = part :=
      fun part hMem => Prod.ext rfl ((hBlocks part.1 part.2).mp (hParts part hMem)).symm
    calc
      parts = parts.map fun part => (part.1, (cutWhere (hasExpired timeout)
          (byStart (flows.filter fun f => f.key = part.1))).map blockMembers) := by
        rw [List.map_congr_left hPart, List.map_id']
      _ = cacheParts flows timeout := by
        rw [cacheParts, groupBy_eq, ← hFst, List.map_map, List.map_map]
        rfl
  · rintro rfl
    refine ⟨?_, fun k => ?_, ?_⟩
    · rw [map_fst_cacheParts]
      exact pairwise_distinctKeys Flow.key flows
    · rw [map_fst_cacheParts, mem_distinctKeys, List.mem_map]
    · rw [cacheParts, groupBy_eq, List.map_map, List.forall_mem_map]
      exact fun k _ => (hBlocks k _).mpr rfl

/-- Keys decide before starts. -/
def Flow.Precedes (f g : Flow) : Prop :=
  compare f.key g.key = .lt ∨ f.key = g.key ∧ f.startTime ≤ g.startTime

/-- The smallest key with a block whose totals do not fit. -/
structure FirstOverflow (parts : List (FlowKey × List (List Flow))) (k : FlowKey) : Prop where
  overflows : ∃ part ∈ parts, part.1 = k ∧ ∃ block ∈ part.2, ¬Fits block
  least : ∀ part ∈ parts, (∃ block ∈ part.2, ¬Fits block) → (compare k part.1).isLE

/-- Read block by block, the flows are in the order of their keys and, within a key, of their
starts. -/
theorem pairwise_precedes_cacheBlocks (flows : List Flow) (timeout : Option UInt64) :
    ((cacheBlocks flows timeout).flatMap blockMembers).Pairwise Flow.Precedes := by
  rw [cacheBlocks, List.flatMap_assoc]
  simp only [flatMap_cutWhere]
  rw [groupBy_eq, List.flatMap_map, List.pairwise_flatMap]
  have hKey : ∀ k, ∀ f ∈ byStart (flows.filter fun f => f.key = k), f.key = k := by
    intro k f hf
    simpa using (List.mem_filter.mp ((byStart_perm _).subset hf)).2
  constructor
  · intro k _
    refine (startSorted_byStart _).imp_of_mem fun {f g} hf hg hLe => Or.inr ⟨?_, ?_⟩
    · rw [hKey k f hf, hKey k g hg]
    · exact UInt64.le_iff_toNat_le.mpr hLe
  · refine (pairwise_distinctKeys Flow.key flows).imp fun {j k} hLt f hf g hg => Or.inl ?_
    rw [hKey j f hf, hKey k g hg]
    exact hLt

theorem startSorted_of_mem_cacheBlocks {flows : List Flow} {timeout : Option UInt64}
    {b : Flow × List Flow} (h : b ∈ cacheBlocks flows timeout) : StartSorted (blockMembers b) := by
  obtain ⟨group, _, hb⟩ := List.mem_flatMap.mp h
  exact (startSorted_byStart group.2).of_mem_cutWhere hb

/-- A block begins with its earliest start, so its flow takes the place of its first member. -/
theorem pairwise_precedes_blockFlow (flows : List Flow) (timeout : Option UInt64) :
    ((cacheBlocks flows timeout).map blockFlow).Pairwise Flow.Precedes := by
  have hBlocks := (List.pairwise_flatMap.mp (pairwise_precedes_cacheBlocks flows timeout)).2
  rw [List.pairwise_map]
  refine hBlocks.imp_of_mem fun {b c} hb hc hAll => ?_
  have hFirst := hAll b.1 (List.mem_cons_self ..) c.1 (List.mem_cons_self ..)
  rw [Flow.Precedes, startTime_blockFlow (startSorted_of_mem_cacheBlocks hb),
    startTime_blockFlow (startSorted_of_mem_cacheBlocks hc)]
  exact hFirst

/-- The flow of a block stands for its members. -/
theorem summarizes_blockFlow {b : Flow × List Flow} (hKey : ∀ f ∈ blockMembers b, f.key = b.1.key)
    (hFits : Fits (blockMembers b)) : (blockFlow b).Summarizes (blockMembers b) := by
  have hHull : (Flow.hull b.1 b.2).Summarizes (blockMembers b) :=
    Flow.summarizes_iff.mpr ⟨hKey, Flow.sameTraffic_hull hFits⟩
  exact hHull.uncounted

/-- The flows that come out stand for the blocks, one by one. -/
theorem mergeAcrossLoops_eq_ok_iff_summarizes {flows out : List Flow} {timeout : Option UInt64} :
    mergeAcrossLoops flows timeout = .ok out ↔
      List.Forall₂ (fun f block => f.Summarizes block ∧ f.flowCount = none) out
        ((cacheBlocks flows timeout).map blockMembers) := by
  have hBlocks (hFits : ∀ b ∈ cacheBlocks flows timeout, Fits (blockMembers b)) :
      List.Forall₂ (fun f block => f.Summarizes block ∧ f.flowCount = none)
        ((cacheBlocks flows timeout).map blockFlow)
        ((cacheBlocks flows timeout).map blockMembers) :=
    forall₂_map_map_iff.mpr fun b hb =>
      ⟨summarizes_blockFlow (key_eq_of_mem_cacheBlocks hb) (hFits b hb), rfl⟩
  rw [mergeAcrossLoops_eq_ok_iff]
  constructor
  · rintro ⟨hFits, rfl⟩
    exact hBlocks hFits
  · intro h
    have hFits : ∀ b ∈ cacheBlocks flows timeout, Fits (blockMembers b) := by
      intro b hb
      obtain ⟨f, _, hSum, _⟩ := exists_rel_of_mem h.flip (List.mem_map_of_mem hb)
      exact hSum.fits
    refine ⟨hFits, List.left_unique_forall₂' (fun f block g hf hg => ?_) h (hBlocks hFits)⟩
    exact hf.1.unique hg.1 (hf.2.trans hg.2.symm)

theorem exists_mergeAcrossLoops_iff {flows : List Flow} {timeout : Option UInt64} :
    (∃ out, mergeAcrossLoops flows timeout = .ok out) ↔
      ∀ b ∈ cacheBlocks flows timeout, Fits (blockMembers b) := by
  simp [mergeAcrossLoops_eq_ok_iff]

/-- The error names the smallest key that has a block whose totals do not fit. This is the key at
which the cache stops, because keys pass through it in ascending order. -/
theorem mergeAcrossLoops_eq_error_iff {flows : List Flow} {timeout : Option UInt64} {k : FlowKey} :
    mergeAcrossLoops flows timeout = .error ⟨k⟩ ↔ FirstOverflow (cacheParts flows timeout) k := by
  have hSorted : (cacheBlocks flows timeout).Pairwise fun b c =>
      (compare b.1.key c.1.key).isLE := by
    have hBlocks := (List.pairwise_flatMap.mp (pairwise_precedes_cacheBlocks flows timeout)).2
    refine hBlocks.imp fun {b c} hAll => ?_
    rcases hAll b.1 (List.mem_cons_self ..) c.1 (List.mem_cons_self ..) with hLt | ⟨hEq, _⟩
    · exact hLt ▸ rfl
    · rw [hEq, Std.ReflOrd.compare_self]
      rfl
  have hFind : mergeAcrossLoops flows timeout = .error ⟨k⟩ ↔
      ((cacheBlocks flows timeout).find? fun b => !decide (Fits (blockMembers b))).map
        (fun b => b.1.key) = some k := by
    rw [mergeAcrossLoops_eq]
    cases (cacheBlocks flows timeout).find? fun b => !decide (Fits (blockMembers b)) <;> simp
  have hLarge : ∀ j,
      (∃ part ∈ cacheParts flows timeout, part.1 = j ∧ ∃ block ∈ part.2, ¬Fits block) ↔
      ∃ b ∈ cacheBlocks flows timeout, ¬Fits (blockMembers b) ∧ b.1.key = j := by
    intro j
    constructor
    · rintro ⟨part, hPart, hKey, block, hBlock, hNot⟩
      obtain ⟨b, hb, hKey, rfl⟩ := exists_cacheParts_iff.mp ⟨part, hPart, hKey, hBlock⟩
      exact ⟨b, hb, hNot, hKey⟩
    · rintro ⟨b, hb, hNot, hKey⟩
      obtain ⟨part, hPart, hKey, hBlock⟩ := exists_cacheParts_iff.mpr ⟨b, hb, hKey, rfl⟩
      exact ⟨part, hPart, hKey, _, hBlock, hNot⟩
  rw [hFind, map_find?_eq_some_iff hSorted]
  simp only [Bool.not_eq_true', decide_eq_false_iff_not]
  constructor
  · rintro ⟨hExists, hLeast⟩
    refine ⟨(hLarge k).mpr hExists, fun part hPart hNot => ?_⟩
    obtain ⟨b, hb, hNot, hKey⟩ := (hLarge part.1).mp ⟨part, hPart, rfl, hNot⟩
    exact hKey ▸ hLeast b hb hNot
  · rintro ⟨hExists, hLeast⟩
    refine ⟨(hLarge k).mp hExists, fun b hb hNot => ?_⟩
    obtain ⟨part, hPart, hKey, hNot⟩ := (hLarge b.1.key).mpr ⟨b, hb, hNot, rfl⟩
    exact hKey ▸ hLeast part hPart hNot

/-- Exactly one division of the flows follows the rules, and it divides up all flows. Merging across
loops succeeds iff the totals of every block in it fit. Then there is one flow for each block in the
order of the keys and of the blocks, without a flow count, and it has the earliest start, the latest
end and the exact totals of the block; so the starts ascend within a key. Otherwise the error names
the smallest key with a block whose totals do not fit. -/
theorem mergeAcrossLoops_divided (flows : List Flow) (timeout : Option UInt64) :
    ∃ parts, (∀ other, Divides timeout flows other ↔ other = parts) ∧
      (parts.flatMap Prod.snd).flatten.Perm flows ∧
      ((∃ out, mergeAcrossLoops flows timeout = .ok out) ↔
        ∀ block ∈ parts.flatMap Prod.snd, Fits block) ∧
      (∀ out, mergeAcrossLoops flows timeout = .ok out ↔
        List.Forall₂ (fun f block => f.Summarizes block ∧ f.flowCount = none) out
          (parts.flatMap Prod.snd)) ∧
      (∀ out, mergeAcrossLoops flows timeout = .ok out → out.Pairwise Flow.Precedes) ∧
      ∀ k, mergeAcrossLoops flows timeout = .error ⟨k⟩ ↔ FirstOverflow parts k := by
  refine ⟨cacheParts flows timeout, fun _ => divides_iff, ?_⟩
  rw [flatMap_cacheParts]
  refine ⟨?_, ?_, fun _ => mergeAcrossLoops_eq_ok_iff_summarizes, fun out h => ?_,
    fun _ => mergeAcrossLoops_eq_error_iff⟩
  · rw [← List.flatMap_def]
    exact flatMap_cacheBlocks_perm flows timeout
  · rw [exists_mergeAcrossLoops_iff, List.forall_mem_map]
  · obtain ⟨_, rfl⟩ := mergeAcrossLoops_eq_ok_iff.mp h
    exact pairwise_precedes_blockFlow flows timeout

/-- The flow that starts last comes in first, and it starts just when the timeout ends. -/
theorem mergeAcrossLoops_divided_at_timeout :
    let key : FlowKey := ⟨17, .ofNat .v4 0x0a000001, .ofNat .v4 0x0a000002, 5000, 53⟩
    let first : Flow := ⟨key, 0, 10, 2, 200, none⟩
    let second : Flow := ⟨key, 40, 60, 3, 300, none⟩
    let third : Flow := ⟨key, 110, 120, 4, 400, none⟩
    let out : List Flow := [⟨key, 0, 60, 5, 500, none⟩, third]
    Divides (some 50) [third, first, second] [(key, [[first, second], [third]])] ∧
      mergeAcrossLoops [third, first, second] (some 50) = .ok out ∧
      List.Forall₂ (fun f block => f.Summarizes block ∧ f.flowCount = none) out
        [[first, second], [third]] ∧
      out.Pairwise Flow.Precedes := by
  intro key first second third out
  have hDivides : Divides (some 50) [third, first, second] [(key, [[first, second], [third]])] := by
    rw [divides_iff]
    simp only [first, second, third, key]
    cbv
  have hMerged : mergeAcrossLoops [third, first, second] (some 50) = .ok out := by
    simp only [first, second, third, key, out]
    cbv
  obtain ⟨_, hOnly, -, -, hFlows, hOrder, -⟩ :=
    mergeAcrossLoops_divided [third, first, second] (some 50)
  obtain rfl := (hOnly _).mp hDivides
  exact ⟨hDivides, hMerged, (hFlows out).mp hMerged, hOrder out hMerged⟩

end FlowAudit
