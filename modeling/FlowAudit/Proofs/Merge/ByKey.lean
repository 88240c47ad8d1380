import FlowAudit.Proofs.Flow.Order
import FlowAudit.Proofs.Grouping
import FlowAudit.Proofs.Merge.Aggregate
/-!
Merging by key. The table into which flows are merged one after the other holds one entry for each
group of the flows seen so far. It comes to the end iff no key has too much traffic, and the result
depends on the order of the flows in no way.
-/
namespace FlowAudit

open Dataset (Fits SameTraffic)

/-- The flow that stands for all flows of a key: the earliest start, the latest end, the totals and
the count of its members. -/
def Flow.merged (group : FlowKey × List Flow) : Flow :=
  let bounds := (Dataset.timeBounds? group.2).getD (0, 0)
  { key := group.1
    startTime := .ofNat bounds.1
    endTime := .ofNat bounds.2
    packets := .ofNat (Dataset.totalPackets group.2)
    bytes := .ofNat (Dataset.totalBytes group.2)
    flowCount := some (.ofNat group.2.length) }

/-- The order of the flows of a key does not matter for the flow that stands for them. -/
theorem Flow.merged_perm {k : FlowKey} {xs ys : List Flow} (h : xs.Perm ys) :
    merged (k, xs) = merged (k, ys) := by
  have hVolume := Dataset.volume_perm h
  rw [Dataset.volume_eq, Dataset.volume_eq, Prod.mk.injEq] at hVolume
  simp only [merged, Dataset.timeBounds?_perm h, hVolume.1, hVolume.2, h.length_eq]

theorem groupBy_merged_perm {d e : Dataset} (h : d.Perm e) :
    (groupBy Flow.key d).map Flow.merged = (groupBy Flow.key e).map Flow.merged := by
  rw [groupBy_eq, groupBy_eq, distinctKeys_perm h, List.map_map, List.map_map]
  exact List.map_congr_left fun k _ => Flow.merged_perm (h.filter _)

namespace Merged

/-- An entry of the table stands for the members of a group. -/
structure Represents (m : Merged) (group : FlowKey × List Flow) : Prop where
  key : m.flow.key = group.1
  count : m.count = .ofNat group.2.length
  traffic : SameTraffic [m.flow] group.2

namespace Represents

variable {m : Merged} {group : FlowKey × List Flow}

theorem single (f : Flow) : (⟨f, 1⟩ : Merged).Represents (f.key, [f]) :=
  ⟨rfl, rfl, .refl _⟩

theorem fits (h : m.Represents group) : Fits group.2 :=
  (Dataset.fits_congr h.traffic.volume).mp (Dataset.fits_singleton m.flow)

/-- An entry of the table of merged flows becomes the flow that stands for its group. -/
theorem toFlow_eq (h : m.Represents group) : m.toFlow = Flow.merged group := by
  obtain ⟨hKey, hCount, hVolume, hBounds⟩ := h
  rw [Dataset.volume_eq, Dataset.volume_eq, Prod.mk.injEq] at hVolume
  have hSpan : some m.flow.span = Dataset.timeBounds? group.2 := hBounds
  simp only [Flow.merged, ← hSpan, ← hVolume.1, ← hVolume.2, ← hKey, ← hCount, toFlow]
  simp [Flow.span, Dataset.totalPackets, Dataset.totalBytes]

/-- Adding one more flow to the entry and to the group has the same traffic. -/
theorem traffic_cons (h : m.Represents group) (f : Flow) :
    SameTraffic [m.flow, f] (f :: group.2) :=
  (h.traffic.append (.refl [f])).trans (.of_perm List.perm_append_comm)

/-- An entry takes in one more flow of its key if the totals of both together fit. -/
theorem absorb {f : Flow} (h : m.Represents group) (hFits : Fits (f :: group.2)) :
    ∃ g, m.flow.absorb f = .ok g ∧
      (⟨g, m.count + 1⟩ : Merged).Represents (group.1, f :: group.2) := by
  have hTraffic := h.traffic_cons f
  have hPair := (Dataset.fits_congr hTraffic.volume).mpr hFits
  refine ⟨Flow.hull m.flow [f], by rw [Flow.absorb_eq, if_pos hPair], h.key, ?_,
    (Flow.sameTraffic_hull hPair).trans hTraffic⟩
  rw [h.count]
  simp

/-- Otherwise the key of the entry is reported. -/
theorem absorb_refused {f : Flow} (h : m.Represents group) (hLarge : ¬Fits (f :: group.2)) :
    m.flow.absorb f = .error ⟨m.flow.key⟩ := by
  rw [Flow.absorb_eq, if_neg]
  rwa [Dataset.fits_congr (h.traffic_cons f).volume]

end Represents

/-- What has become of a table of merged flows: it stands for the groups, or a group is too
large. -/
def Holds (groups : List (FlowKey × List Flow)) : Except CounterOverflow (List Merged) → Prop
  | .ok table => List.Forall₂ Represents table groups
  | .error _ => ∃ group ∈ groups, ¬Fits group.2

/-- Insertion into the table and insertion into the groups compare the same keys. -/
theorem holds_insert (f : Flow) {table : List Merged} {groups : List (FlowKey × List Flow)}
    (h : List.Forall₂ Represents table groups) :
    Holds (insertGrouped f.key f groups) (Merged.insert f table) := by
  induction h with
  | nil => exact .cons (.single f) .nil
  | @cons m group table groups hHead hRest ih =>
      unfold insertGrouped Merged.insert
      rw [hHead.key]
      cases compare f.key group.1 with
      | lt => exact .cons (.single f) (.cons hHead hRest)
      | eq =>
          by_cases hFits : Fits (f :: group.2)
          · obtain ⟨g, hAbsorb, hMember⟩ := hHead.absorb hFits
            simp only [hAbsorb]
            exact .cons hMember hRest
          · simp only [hHead.absorb_refused hFits]
            exact ⟨_, List.mem_cons_self .., hFits⟩
      | gt =>
          cases hInsert : Merged.insert f table with
          | error e =>
              rw [hInsert] at ih
              obtain ⟨large, hMem, hLarge⟩ := ih
              exact ⟨large, List.mem_cons_of_mem _ hMem, hLarge⟩
          | ok rest =>
              rw [hInsert] at ih
              exact .cons hHead ih

end Merged

namespace Dataset

/-- No key has more packets or bytes than one flow can count. -/
def KeysFit (d : Dataset) : Prop :=
  ∀ k, Fits (d.filter fun f => f.key = k)

theorem keysFit_perm {d e : Dataset} (h : d.Perm e) : d.KeysFit ↔ e.KeysFit :=
  forall_congr' fun _ => fits_congr (volume_perm (h.filter _))

theorem KeysFit.of_append_left {d e : Dataset} (h : KeysFit (d ++ e)) : KeysFit d := by
  intro k
  have hk := h k
  rw [List.filter_append] at hk
  exact hk.of_append_left

/-- The keys that fit are those whose groups do. -/
theorem keysFit_iff {d : Dataset} : d.KeysFit ↔ ∀ group ∈ groupBy Flow.key d, Fits group.2 := by
  rw [groupBy_eq, List.forall_mem_map]
  constructor
  · exact fun h k _ => h k
  · intro h k
    by_cases hk : k ∈ distinctKeys Flow.key d
    · exact h k hk
    · rw [filter_key_eq_nil hk]
      exact ⟨Nat.zero_le _, Nat.zero_le _⟩

/-- What one flow adds to the total of its key is not taken away later, so the first overflow is
final. -/
theorem holds_foldlM (d seen : Dataset) {table : List Merged}
    (h : List.Forall₂ Merged.Represents table (groupBy Flow.key seen)) :
    Merged.Holds (groupBy Flow.key (d.reverse ++ seen))
      (d.foldlM (fun table f => Merged.insert f table) table) := by
  induction d generalizing seen table with
  | nil => exact h
  | cons f d ih =>
      have hStep : Merged.Holds (groupBy Flow.key (f :: seen)) (Merged.insert f table) :=
        Merged.holds_insert f h
      rw [List.foldlM_cons, List.reverse_cons, List.append_assoc, List.singleton_append]
      cases hInsert : Merged.insert f table with
      | ok next =>
          rw [hInsert] at hStep
          exact ih (f :: seen) hStep
      | error e =>
          rw [hInsert] at hStep
          obtain ⟨large, hMem, hLarge⟩ := hStep
          have hNot : ¬KeysFit (d.reverse ++ f :: seen) := by
            intro hFits
            have hSeen := ((keysFit_perm List.perm_append_comm).mp hFits).of_append_left
            exact hLarge (keysFit_iff.mp hSeen large hMem)
          rw [keysFit_iff] at hNot
          push Not at hNot
          exact hNot

/-- Merging by key succeeds iff the totals of each key fit, and leaves one flow for each key. -/
theorem mergeByKey_eq_ok_iff {d m : Dataset} :
    d.mergeByKey = .ok m ↔ d.KeysFit ∧ m = (groupBy Flow.key d).map Flow.merged := by
  have hEmpty : List.Forall₂ Merged.Represents [] (groupBy Flow.key []) := .nil
  have hRun := holds_foldlM d [] hEmpty
  have hPerm := List.reverse_perm d
  rw [List.append_nil] at hRun
  rw [mergeByKey, ← keysFit_perm hPerm, ← groupBy_merged_perm hPerm, keysFit_iff]
  cases hTable : d.foldlM (fun table f => Merged.insert f table) [] with
  | error e =>
      rw [hTable] at hRun
      obtain ⟨large, hMem, hLarge⟩ := hRun
      exact iff_of_false (fun h => by cases h) fun h => hLarge (h.1 large hMem)
  | ok table =>
      rw [hTable] at hRun
      have hFlows : table.map Merged.toFlow = (groupBy Flow.key d.reverse).map Flow.merged := by
        rw [← List.forall₂_eq_eq_eq, List.forall₂_map_left_iff, List.forall₂_map_right_iff]
        exact hRun.imp fun _ _ h => h.toFlow_eq
      have hFits : ∀ group ∈ groupBy Flow.key d.reverse, Fits group.2 := by
        intro group hg
        obtain ⟨m, _, hm⟩ := exists_rel_of_mem hRun.flip hg
        exact hm.fits
      rw [ok_bind, hFlows]
      constructor
      · intro h
        exact ⟨hFits, (Except.ok.inj h).symm⟩
      · rintro ⟨_, rfl⟩
        rfl

/-- A merged flow has the traffic of its group. -/
theorem sameTraffic_merged {group : FlowKey × List Flow} (hSome : group.2 ≠ [])
    (hFits : Fits group.2) : SameTraffic [Flow.merged group] group.2 := by
  obtain ⟨⟨start, stop⟩, hBounds⟩ : ∃ bounds, timeBounds? group.2 = some bounds :=
    Option.ne_none_iff_exists'.mp (mt timeBounds?_eq_none_iff.mp hSome)
  obtain ⟨⟨⟨f, _, hStart⟩, _⟩, ⟨g, _, hStop⟩, _⟩ := timeBounds?_eq_some_iff.mp hBounds
  constructor
  · rw [volume_cons, volume_nil, add_zero, volume_eq]
    exact Prod.ext (Word.toNat_ofNat_of_le hFits.1) (Word.toNat_ofNat_of_le hFits.2)
  · have hSpan : (Flow.merged group).span = (start, stop) := by
      simp only [Flow.merged, hBounds, Flow.span, Option.getD_some, ← hStart, ← hStop,
        UInt64.ofNat_toNat]
    rw [timeBounds?_cons, hSpan, hBounds]
    rfl

/-- Groups that a condition does not cut through are kept or dropped as a whole. -/
theorem sameTraffic_filter_merged {p : Flow → Bool} (hKey : p.FactorsThrough Flow.key)
    {groups : List (FlowKey × List Flow)}
    (hGroups : ∀ group ∈ groups,
      (group.2 ≠ [] ∧ ∀ f ∈ group.2, f.key = group.1) ∧ Fits group.2) :
    SameTraffic ((groups.map Flow.merged).filter p) ((groups.flatMap Prod.snd).filter p) := by
  induction groups with
  | nil => exact .refl []
  | cons group rest ih =>
      obtain ⟨⟨⟨hSome, hMembers⟩, hFits⟩, hRest⟩ := List.forall_mem_cons.mp hGroups
      have hSame : ∀ f ∈ group.2, p f = p (Flow.merged group) := fun f hf =>
        hKey (hMembers f hf)
      rw [List.map_cons, List.flatMap_cons, List.filter_append, ← List.singleton_append,
        List.filter_append]
      refine SameTraffic.append ?_ (ih hRest)
      by_cases h : p (Flow.merged group)
      · have hAll : group.2.filter p = group.2 :=
          List.filter_eq_self.mpr fun f hf => (hSame f hf).trans h
        rw [hAll, List.filter_cons_of_pos h, List.filter_nil]
        exact sameTraffic_merged hSome hFits
      · have hNone : group.2.filter p = [] :=
          List.filter_eq_nil_iff.mpr fun f hf => (hSame f hf).symm ▸ h
        rw [hNone, List.filter_cons_of_neg h, List.filter_nil]
        exact .refl []

/-- Merging changes neither totals nor time bounds of any part of a table that is chosen by key. -/
theorem sameTraffic_mergeByKey {d m : Dataset} (h : d.mergeByKey = .ok m) {p : Flow → Bool}
    (hKey : p.FactorsThrough Flow.key) : SameTraffic (m.filter p) (d.filter p) := by
  obtain ⟨hFits, rfl⟩ := mergeByKey_eq_ok_iff.mp h
  have hGroups : ∀ group ∈ groupBy Flow.key d,
      (group.2 ≠ [] ∧ ∀ f ∈ group.2, f.key = group.1) ∧ Fits group.2 := fun group hg =>
    ⟨mem_groupBy hg, keysFit_iff.mp hFits group hg⟩
  exact (sameTraffic_filter_merged hKey hGroups).trans
    (.of_perm ((flatMap_groupBy_perm Flow.key d).filter p))

end Dataset

end FlowAudit
