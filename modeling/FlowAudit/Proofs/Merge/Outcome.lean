import FlowAudit.Proofs.Comparison.Outcomes
import FlowAudit.Proofs.Merge.Summary
/-!
What merging by key ends in. A key that repeats in the reference comes first, with the smallest such
key. Then comes a key with too much traffic, and the flow with which a total of its key stops
fitting is the one that ends the merging. In all other cases there is one flow for each key, which
stands for all probe flows of the key and counts them.
-/
namespace FlowAudit

open Dataset (Fits)

/-- Only the entry of the flow's own key can refuse it. -/
theorem Merged.key_of_insert_eq_error {f : Flow} {table : List Merged} {e : CounterOverflow}
    (h : insert f table = .error e) : e.key = f.key := by
  induction table with
  | nil => cases h
  | cons m rest ih =>
      unfold insert at h
      cases hCompare : compare f.key m.flow.key with
      | lt =>
          rw [hCompare] at h
          cases h
      | eq =>
          have hAbsorb : m.flow.absorb f = .error e := by
            rw [hCompare] at h
            exact bind_ok_eq_error_iff.mp h
          rw [Flow.absorb_eq] at hAbsorb
          split at hAbsorb
          · cases hAbsorb
          · cases hAbsorb
            exact (Std.LawfulEqOrd.eq_of_compare hCompare).symm
      | gt =>
          rw [hCompare] at h
          exact ih (bind_ok_eq_error_iff.mp h)

namespace Dataset

/-- The smallest of the keys that occur more than once, and how often it occurs. -/
structure FirstRepeated (d : Dataset) (k : FlowKey) (count : Nat) : Prop where
  occurs : (d.map Flow.key).count k = count
  repeats : 1 < count
  least : ∀ j, 1 < (d.map Flow.key).count j → (compare k j).isLE

/-- The flows of a key are as many as its occurrences. -/
theorem length_filter_key (d : Dataset) (k : FlowKey) :
    (d.filter fun f => f.key = k).length = (d.map Flow.key).count k := by
  rw [List.count_eq_countP, List.countP_map, List.countP_eq_length_filter]
  rfl

theorem mem_distinctKeys_of_count {d : Dataset} {k : FlowKey}
    (h : 1 < (d.map Flow.key).count k) : k ∈ distinctKeys Flow.key d := by
  have hMem : k ∈ d.map Flow.key := List.count_pos_iff.mp (Nat.lt_of_succ_lt h)
  exact mem_distinctKeys.mpr (List.mem_map.mp hMem)

/-- The search meets the keys in ascending order, so it ends at the smallest one that is
repeated. -/
theorem find?_repeated_eq_some_iff {d : Dataset} {k : FlowKey} :
    ((distinctKeys Flow.key d).find? fun j => decide (1 < (d.map Flow.key).count j)) = some k ↔
      d.FirstRepeated k ((d.map Flow.key).count k) := by
  have hSorted : (distinctKeys Flow.key d).Pairwise fun i j => (compare i j).isLE :=
    (pairwise_distinctKeys Flow.key d).imp fun h => h ▸ rfl
  have hFind : ((distinctKeys Flow.key d).find? fun j =>
      decide (1 < (d.map Flow.key).count j)).map id = some k ↔ _ := map_find?_eq_some_iff hSorted
  rw [Option.map_id, id] at hFind
  rw [hFind]
  constructor
  · rintro ⟨⟨j, -, hRepeats, rfl⟩, hLeast⟩
    refine ⟨rfl, of_decide_eq_true hRepeats, fun i hi => ?_⟩
    exact hLeast i (mem_distinctKeys_of_count hi) (decide_eq_true hi)
  · rintro ⟨-, hRepeats, hLeast⟩
    refine ⟨⟨k, mem_distinctKeys_of_count hRepeats, decide_eq_true hRepeats, rfl⟩, ?_⟩
    exact fun j _ hj => hLeast j (of_decide_eq_true hj)

/-- The search finds nothing iff no key is repeated. -/
theorem find?_repeated_eq_none_iff {d : Dataset} :
    ((distinctKeys Flow.key d).find? fun j => decide (1 < (d.map Flow.key).count j)) = none ↔
      (d.map Flow.key).Nodup := by
  rw [List.find?_eq_none, List.nodup_iff_count_le_one]
  constructor
  · intro h k
    by_contra hMany
    have hRepeats := Nat.lt_of_not_le hMany
    exact h k (mem_distinctKeys_of_count hRepeats) (decide_eq_true hRepeats)
  · intro h k _ hk
    exact Nat.not_le_of_lt (of_decide_eq_true hk) (h k)

/-- There is a first repeated key iff some key is repeated. -/
theorem exists_firstRepeated_iff {d : Dataset} :
    (∃ k n, d.FirstRepeated k n) ↔ ¬(d.map Flow.key).Nodup := by
  rw [← find?_repeated_eq_none_iff, ← ne_eq, Option.ne_none_iff_exists']
  simp only [find?_repeated_eq_some_iff]
  constructor
  · rintro ⟨k, n, h⟩
    exact ⟨k, h.occurs.symm ▸ h⟩
  · rintro ⟨k, h⟩
    exact ⟨k, _, h⟩

/-- The check is a search for the first key that occurs more than once. -/
theorem checkUniqueKeys_eq (d : Dataset) :
    d.checkUniqueKeys =
      ((distinctKeys Flow.key d).find? fun k => decide (1 < (d.map Flow.key).count k)).elim
        (.ok ()) fun k => .error (.duplicateReferenceKey k ((d.map Flow.key).count k)) := by
  rw [checkUniqueKeys, groupBy_eq, List.find?_map]
  simp only [Function.comp_def, length_filter_key]
  cases (distinctKeys Flow.key d).find? fun k => decide (1 < (d.map Flow.key).count k) with
  | none => rfl
  | some k => simp only [Option.map_some, Option.elim_some, length_filter_key]

theorem checkUniqueKeys_eq_ok_iff {d : Dataset} {u : Unit} :
    d.checkUniqueKeys = .ok u ↔ (d.map Flow.key).Nodup := by
  rw [checkUniqueKeys_eq, ← find?_repeated_eq_none_iff]
  cases (distinctKeys Flow.key d).find? fun k => decide (1 < (d.map Flow.key).count k) <;> simp

/-- The error names the smallest repeated key and how often it occurs. -/
theorem checkUniqueKeys_eq_error_iff {d : Dataset} {e : MergeError} :
    d.checkUniqueKeys = .error e ↔
      ∃ k n, e = .duplicateReferenceKey k n ∧ d.FirstRepeated k n := by
  rw [checkUniqueKeys_eq]
  constructor
  · intro h
    cases hFind : (distinctKeys Flow.key d).find?
        fun k => decide (1 < (d.map Flow.key).count k) with
    | none =>
        rw [hFind] at h
        cases h
    | some k =>
        rw [hFind] at h
        cases h
        exact ⟨k, _, rfl, find?_repeated_eq_some_iff.mp hFind⟩
  · rintro ⟨k, n, rfl, hFirst⟩
    obtain rfl := hFirst.occurs
    rw [find?_repeated_eq_some_iff.mpr hFirst]
    rfl

/-- One flow for each key of a table, in ascending order of the keys, that stands for all flows of
the key and counts them. -/
structure SumsUp (merged flows : Dataset) : Prop where
  ascending : (merged.map Flow.key).Pairwise (compare · · = .lt)
  keys : ∀ k, k ∈ merged.map Flow.key ↔ k ∈ flows.map Flow.key
  summarizes : ∀ m ∈ merged, m.Summarizes (flows.filter fun f => f.key = m.key)
  count : ∀ m ∈ merged, m.flowCount = some (.ofNat (flows.filter fun f => f.key = m.key).length)

/-- If all keys fit, their groups sum up the table. -/
theorem sumsUp_groupBy {d : Dataset} (h : d.KeysFit) :
    SumsUp ((groupBy Flow.key d).map Flow.merged) d := by
  have hKeys : ((groupBy Flow.key d).map Flow.merged).map Flow.key = distinctKeys Flow.key d := by
    rw [groupBy_eq, List.map_map, List.map_map]
    exact List.map_id _
  refine ⟨hKeys ▸ pairwise_distinctKeys Flow.key d, fun k => ?_, ?_, ?_⟩
  · rw [hKeys, mem_distinctKeys, List.mem_map]
  · rw [List.forall_mem_map]
    intro group hGroup
    obtain ⟨hSome, hMembers⟩ := mem_groupBy hGroup
    have hFits := keysFit_iff.mp h group hGroup
    rw [groupBy_eq] at hGroup
    obtain ⟨k, _, rfl⟩ := List.mem_map.mp hGroup
    exact Flow.summarizes_merged hSome hMembers hFits
  · rw [List.forall_mem_map]
    intro group hGroup
    rw [groupBy_eq] at hGroup
    obtain ⟨k, _, rfl⟩ := List.mem_map.mp hGroup
    rfl

theorem SumsUp.map_key {merged d : Dataset} (h : merged.SumsUp d) :
    merged.map Flow.key = distinctKeys Flow.key d := by
  refine eq_of_pairwise_compare h.ascending (pairwise_distinctKeys Flow.key d) fun k => ?_
  rw [h.keys, mem_distinctKeys, List.mem_map]

/-- A flow that stands for all flows of its key and counts them is the one that merging makes. -/
theorem SumsUp.eq_groupBy {merged d : Dataset} (h : merged.SumsUp d) :
    merged = (groupBy Flow.key d).map Flow.merged := by
  have hFlow : ∀ m ∈ merged, Flow.merged (m.key, d.filter fun f => f.key = m.key) = m := by
    intro m hm
    have hSum := h.summarizes m hm
    obtain ⟨g, hg, -⟩ := hSum.exists_mem
    exact (Flow.summarizes_merged (List.ne_nil_of_mem hg) hSum.key hSum.fits).unique hSum
      (h.count m hm).symm
  calc
    merged = merged.map fun m => Flow.merged (m.key, d.filter fun f => f.key = m.key) := by
      rw [List.map_congr_left hFlow, List.map_id']
    _ = (groupBy Flow.key d).map Flow.merged := by
      rw [groupBy_eq, ← h.map_key, List.map_map, List.map_map]
      rfl

/-- A table can be summed up only if all keys fit, because the flow of a key has its exact totals as
counters. -/
theorem SumsUp.keysFit {merged d : Dataset} (h : merged.SumsUp d) : d.KeysFit := by
  intro k
  by_cases hk : k ∈ d.map Flow.key
  · obtain ⟨m, hm, rfl⟩ := List.mem_map.mp ((h.keys k).mpr hk)
    exact (h.summarizes m hm).fits
  · rw [filter_key_eq_nil (mt (fun hk => List.mem_map.mpr (mem_distinctKeys.mp hk)) hk)]
    exact ⟨Nat.zero_le _, Nat.zero_le _⟩

/-- Merging by key has exactly one possible result, the table that sums up the flows. -/
theorem mergeByKey_eq_ok_iff_sumsUp {d m : Dataset} : d.mergeByKey = .ok m ↔ m.SumsUp d := by
  rw [mergeByKey_eq_ok_iff]
  constructor
  · rintro ⟨hFits, rfl⟩
    exact sumsUp_groupBy hFits
  · exact fun h => ⟨h.keysFit, h.eq_groupBy⟩

theorem exists_mergeByKey_iff {d : Dataset} : (∃ m, d.mergeByKey = .ok m) ↔ d.KeysFit := by
  simp [mergeByKey_eq_ok_iff]

/-- Counts are exact in every table that is shorter than the number of words. -/
theorem SumsUp.toNat_count {merged d : Dataset} (h : merged.SumsUp d)
    (hLength : d.length < UInt64.size) :
    ∀ m ∈ merged, m.flowCount.map UInt64.toNat = some (d.filter fun f => f.key = m.key).length := by
  intro m hm
  have hSmall := Nat.lt_of_le_of_lt (List.length_filter_le (fun f => f.key = m.key) d) hLength
  rw [h.count m hm, Option.map_some, UInt64.toNat_ofNat_of_lt' hSmall]

/-- Each flow is counted once. -/
theorem SumsUp.sum_counts {merged d : Dataset} (h : merged.SumsUp d)
    (hLength : d.length < UInt64.size) :
    ((merged.filterMap Flow.flowCount).map UInt64.toNat).sum = d.length := by
  calc
    _ = (merged.filterMap fun m => m.flowCount.map UInt64.toNat).sum := by
      rw [List.map_filterMap]
    _ = (merged.map fun m => (d.filter fun f => f.key = m.key).length).sum := by
      rw [List.filterMap_congr (h.toNat_count hLength), List.filterMap_eq_map']
    _ = ((groupBy Flow.key d).map fun group => group.2.length).sum := by
      rw [groupBy_eq, ← h.map_key, List.map_map, List.map_map]
      rfl
    _ = d.length := by
      rw [← List.length_flatMap, (flatMap_groupBy_perm Flow.key d).length_eq]

/-- Merging ends at the first flow with which the flows seen so far have a key with too much
traffic. -/
theorem mergeByKey_eq_error_iff {d : Dataset} {k : FlowKey} :
    d.mergeByKey = .error ⟨k⟩ ↔
      ∃ before f after, d = before ++ f :: after ∧ f.key = k ∧ KeysFit before ∧
        ¬KeysFit (before ++ [f]) := by
  have hTable : ∀ e : Dataset, e.KeysFit ↔
      ∃ table, e.foldlM (fun table f => Merged.insert f table) [] = .ok table := by
    intro e
    rw [← exists_mergeByKey_iff]
    simp only [mergeByKey, bind_eq_ok_iff, pure_eq_ok_iff]
    constructor
    · rintro ⟨_, table, h, -⟩
      exact ⟨table, h⟩
    · rintro ⟨table, h⟩
      exact ⟨_, table, h, rfl⟩
  refine bind_ok_eq_error_iff.trans (foldlM_eq_error_iff.trans ?_)
  simp only [hTable, List.foldlM_append, List.foldlM_cons, List.foldlM_nil]
  constructor
  · rintro ⟨before, f, after, table, rfl, hBefore, hInsert⟩
    have hKey := Merged.key_of_insert_eq_error hInsert
    refine ⟨before, f, after, rfl, hKey.symm, ⟨table, hBefore⟩, ?_⟩
    rw [hBefore, ok_bind, hInsert]
    rintro ⟨_, h⟩
    cases h
  · rintro ⟨before, f, after, rfl, rfl, ⟨table, hBefore⟩, hNot⟩
    rw [hBefore, ok_bind] at hNot
    refine ⟨before, f, after, table, rfl, hBefore, ?_⟩
    cases hInsert : Merged.insert f table with
    | ok next =>
        rw [hInsert] at hNot
        exact absurd ⟨next, rfl⟩ hNot
    | error e =>
        rw [← Merged.key_of_insert_eq_error hInsert]

/-- Merging succeeds iff the reference repeats no key and the flows can be summed up. -/
theorem outcome_merge_eq_ok_iff {flows reference merged : Dataset} :
    (flows.merge reference false).outcome = .ok merged ↔
      (reference.map Flow.key).Nodup ∧ merged.SumsUp flows := by
  rw [outcome_merge, bind_eq_ok_iff]
  simp only [checkUniqueKeys_eq_ok_iff, bind_eq_ok_iff, mapError_eq_ok_iff,
    mergeByKey_eq_ok_iff_sumsUp, pure_eq_ok_iff]
  simp

/-- A repeated key of the reference is reported before any overflow. -/
theorem outcome_merge_eq_error_iff {flows reference : Dataset} {e : MergeError} :
    (flows.merge reference false).outcome = .error e ↔
      (∃ k n, e = .duplicateReferenceKey k n ∧ reference.FirstRepeated k n) ∨
        (reference.map Flow.key).Nodup ∧
          ∃ k, e = .counterOverflow ⟨k⟩ ∧ flows.mergeByKey = .error ⟨k⟩ := by
  rw [outcome_merge, bind_eq_error_iff, checkUniqueKeys_eq_error_iff]
  refine or_congr_right ?_
  simp only [checkUniqueKeys_eq_ok_iff, exists_and_left, exists_const]
  refine and_congr_right fun _ => bind_ok_eq_error_iff.trans (mapError_eq_error_iff.trans ?_)
  constructor
  · rintro ⟨⟨k⟩, h, rfl⟩
    exact ⟨k, rfl, h⟩
  · rintro ⟨k, rfl, h⟩
    exact ⟨⟨k⟩, h, rfl⟩

/-- Merging without time alignment. A key that repeats in the reference is refused, and the error
names the smallest one with the number of times it occurs. Then merging fails iff the packets or the
bytes of some key do not fit a counter, and the error names the first key that this happens to. In
all other cases each key of the probe flows has one flow, the keys ascend, and each flow has the
earliest start, the latest end, the exact totals and the number of the probe flows of its key; the
numbers add up as long as they fit a counter themselves. -/
theorem merge_sums_up (flows reference : Dataset) :
    let outcome := (flows.merge reference false).outcome
    ((∃ k n, outcome = .error (.duplicateReferenceKey k n)) ↔ ¬(reference.map Flow.key).Nodup) ∧
      (∀ k n, outcome = .error (.duplicateReferenceKey k n) ↔ reference.FirstRepeated k n) ∧
      ((∃ k, outcome = .error (.counterOverflow ⟨k⟩)) ↔
        (reference.map Flow.key).Nodup ∧ ∃ k, ¬Fits (flows.filter fun f => f.key = k)) ∧
      (∀ k, outcome = .error (.counterOverflow ⟨k⟩) ↔
        (reference.map Flow.key).Nodup ∧
          ∃ before f after, flows = before ++ f :: after ∧ f.key = k ∧ KeysFit before ∧
            ¬KeysFit (before ++ [f])) ∧
      ((∃ merged, outcome = .ok merged) ↔
        (reference.map Flow.key).Nodup ∧ ∀ k, Fits (flows.filter fun f => f.key = k)) ∧
      (∀ merged, outcome = .ok merged ↔
        (reference.map Flow.key).Nodup ∧ merged.SumsUp flows) ∧
      ∀ merged, outcome = .ok merged → flows.length < UInt64.size →
        (∀ m ∈ merged, m.flowCount.map UInt64.toNat =
          some (flows.filter fun f => f.key = m.key).length) ∧
        ((merged.filterMap Flow.flowCount).map UInt64.toNat).sum = flows.length := by
  intro outcome
  have hDuplicate : ∀ k n, outcome = .error (.duplicateReferenceKey k n) ↔
      reference.FirstRepeated k n := by
    intro k n
    simp [outcome, outcome_merge_eq_error_iff]
  have hOverflow : ∀ k, outcome = .error (.counterOverflow ⟨k⟩) ↔
      (reference.map Flow.key).Nodup ∧ flows.mergeByKey = .error ⟨k⟩ := by
    intro k
    simp [outcome, outcome_merge_eq_error_iff]
  have hFails : (∃ k, flows.mergeByKey = .error ⟨k⟩) ↔
      ∃ k, ¬Fits (flows.filter fun f => f.key = k) := by
    rw [← not_forall, ← KeysFit, ← exists_mergeByKey_iff]
    cases flows.mergeByKey with
    | ok merged => simp
    | error e => exact iff_of_true ⟨e.key, rfl⟩ (by simp)
  refine ⟨?_, hDuplicate, ?_, ?_, ?_, fun _ => outcome_merge_eq_ok_iff, ?_⟩
  · simp only [hDuplicate, exists_firstRepeated_iff]
  · simp only [hOverflow, exists_and_left, hFails]
  · simp only [hOverflow, mergeByKey_eq_error_iff, implies_true]
  · simp only [outcome, outcome_merge_eq_ok_iff, exists_and_left, ← mergeByKey_eq_ok_iff_sumsUp,
      exists_mergeByKey_iff, KeysFit]
  · intro merged hMerged hLength
    have hSums := (outcome_merge_eq_ok_iff.mp hMerged).2
    exact ⟨hSums.toNat_count hLength, hSums.sum_counts hLength⟩

/-- The larger key comes first and again at the end. Its later flow started and ended before. -/
theorem merge_sums_up_interleaved :
    let small : FlowKey := ⟨6, .ofNat .v4 0x0a000001, .ofNat .v4 0x0a000002, 5000, 80⟩
    let large : FlowKey := ⟨17, .ofNat .v4 0x0a000001, .ofNat .v4 0x0a000002, 5000, 53⟩
    let flows : Dataset :=
      [⟨large, 500, 900, 1, 100, none⟩, ⟨small, 0, 1000, 2, 200, none⟩,
        ⟨large, 100, 300, 4, 400, none⟩]
    let merged : Dataset :=
      [⟨small, 0, 1000, 2, 200, some 1⟩, ⟨large, 100, 900, 5, 500, some 2⟩]
    (flows.merge [] false).outcome = .ok merged ∧ merged.SumsUp flows ∧
      flows.length < UInt64.size ∧
      ((merged.filterMap Flow.flowCount).map UInt64.toNat).sum = flows.length := by
  intro small large flows merged
  have hMerged : (flows.merge [] false).outcome = .ok merged := by
    simp only [flows, merged, small, large]
    cbv
  have hLength : flows.length < UInt64.size := by decide
  obtain ⟨-, -, -, -, -, hOk, hCounts⟩ := merge_sums_up flows []
  exact ⟨hMerged, ((hOk merged).mp hMerged).2, hLength, (hCounts merged hMerged hLength).2⟩

end Dataset

end FlowAudit
