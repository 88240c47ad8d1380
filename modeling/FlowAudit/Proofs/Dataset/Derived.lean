import FlowAudit.Proofs.Comparison.Outcomes
import FlowAudit.Proofs.Merge.Conversations
import FlowAudit.Proofs.Replication.Blocks
import FlowAudit.Replication.Replicator
/-!
Tables that come from other tables. Selection and merging only leave out flows or widen their
spans, and alignment with the generator delays them. So a property of flows that survives this and
holds after each replay holds in every table that any sequence of operations can reach.
-/
namespace FlowAudit

/-- The second flow has the same key and lasts at least as long, from before the first one starts
until after it ends. -/
structure Flow.Within (f w : Flow) : Prop where
  key : w.key = f.key
  startTime : w.startTime.toNat ≤ f.startTime.toNat
  endTime : f.endTime.toNat ≤ w.endTime.toNat

namespace Flow.Within

theorem refl (f : Flow) : f.Within f := ⟨rfl, Nat.le_refl _, Nat.le_refl _⟩

theorem trans {f g w : Flow} (h : f.Within g) (h' : g.Within w) : f.Within w :=
  ⟨h'.key.trans h.key, Nat.le_trans h'.startTime h.startTime, Nat.le_trans h.endTime h'.endTime⟩

/-- A flow that spans a table holds each flow of it. -/
theorem of_timeBounds {d : Dataset} {f w : Flow} (hBounds : d.timeBounds? = some w.span)
    (hf : f ∈ d) (hKey : w.key = f.key) : f.Within w := by
  obtain ⟨⟨_, hFirst⟩, _, hLast⟩ := Dataset.timeBounds?_eq_some_iff.mp hBounds
  exact ⟨hKey, hFirst f hf, hLast f hf⟩

end Flow.Within

namespace Dataset

/-- A merged flow lasts at least as long as each flow that it stands for. -/
theorem exists_within_of_mem_mergeByKey {d m : Dataset} (h : d.mergeByKey = .ok m) {w : Flow}
    (hw : w ∈ m) : ∃ f ∈ d, f.Within w := by
  obtain ⟨hFits, rfl⟩ := mergeByKey_eq_ok_iff.mp h
  obtain ⟨group, hGroup, rfl⟩ := List.mem_map.mp hw
  obtain ⟨hSome, hKey⟩ := mem_groupBy hGroup
  obtain ⟨f, hf⟩ := List.exists_mem_of_ne_nil _ hSome
  have hTraffic := sameTraffic_merged hSome (keysFit_iff.mp hFits group hGroup)
  have hMember : f ∈ d := (flatMap_groupBy_perm Flow.key d).subset
    (List.mem_flatMap.mpr ⟨group, hGroup, hf⟩)
  exact ⟨f, hMember, .of_timeBounds hTraffic.timeBounds.symm hf (hKey f hf).symm⟩

theorem within_widen (d : Dataset) (f : Flow) : f.Within (d.widen f) :=
  .of_timeBounds (span_widen d f).symm (List.mem_cons_self ..) rfl

/-- Time alignment only widens spans further. -/
theorem exists_within_of_mem_merge {d reference out : Dataset} {alignTimes : Bool}
    (h : (d.merge reference alignTimes).outcome = .ok out) {w : Flow} (hw : w ∈ out) :
    ∃ f ∈ d, f.Within w := by
  rw [outcome_merge] at h
  obtain ⟨_, _, h⟩ := bind_eq_ok_iff.mp h
  obtain ⟨byKey, hByKey, h⟩ := bind_eq_ok_iff.mp h
  have hMerged := mapError_eq_ok_iff.mp hByKey
  cases h
  cases alignTimes with
  | false => exact exists_within_of_mem_mergeByKey hMerged hw
  | true =>
      rw [if_pos rfl, alignConversations_eq] at hw
      obtain ⟨g, hg, rfl⟩ := List.mem_map.mp hw
      obtain ⟨f, hf, hWithin⟩ := exists_within_of_mem_mergeByKey hMerged hg
      exact ⟨f, hf, hWithin.trans (within_widen byKey g)⟩

/-- A mask leaves flows out, whatever its length is. -/
theorem select_sublist (d : Dataset) (mask : List Bool) : (d.select mask).Sublist d := by
  induction d generalizing mask with
  | nil => exact .slnil
  | cons f d ih =>
      cases mask with
      | nil => exact List.nil_sublist _
      | cons keep mask =>
          cases keep with
          | false => exact (ih mask).cons f
          | true => exact (ih mask).cons_cons f

end Dataset

/-- The flow of a block lasts from the first start to the last end of the block. -/
theorem exists_within_of_mem_mergeAcrossLoops {flows out : List Flow} {timeout : Option UInt64}
    (h : mergeAcrossLoops flows timeout = .ok out) {w : Flow} (hw : w ∈ out) :
    ∃ f ∈ flows, f.Within w := by
  obtain ⟨_, rfl⟩ := mergeAcrossLoops_eq_ok_iff.mp h
  obtain ⟨b, hb, rfl⟩ := List.mem_map.mp hw
  have hFirst : b.1 ∈ blockMembers b := List.mem_cons_self ..
  have hMember : b.1 ∈ flows := (flatMap_cacheBlocks_perm flows timeout).subset
    (List.mem_flatMap.mpr ⟨b, hb, hFirst⟩)
  exact ⟨b.1, hMember, .of_timeBounds (Flow.timeBounds?_eq_span_hull b.1 b.2) hFirst rfl⟩

namespace Comparison

variable {flows reference : Dataset} {stats : GeneratorStats} {options : PrepareOptions}

/-- Prepared probe flows are those of the aligned table or merged from them, and the reference is
never merged. -/
theorem prepare_eq_ok {c : Comparison}
    (h : (prepare flows reference stats options).outcome = .ok c) :
    let tables := alignedTables flows reference stats options
    c.reference = tables.2 ∧ (c.flows = tables.1 ∨
      (tables.1.merge tables.2 options.alignConversations).outcome = .ok c.flows) := by
  rw [outcome_prepare] at h
  cases hMerge : options.merge with
  | false =>
      simp only [hMerge, Bool.false_eq_true, if_false] at h
      cases h
      exact ⟨rfl, .inl rfl⟩
  | true =>
      simp only [hMerge, if_true] at h
      obtain ⟨merged, hMerged, h⟩ := bind_eq_ok_iff.mp h
      cases h
      exact ⟨rfl, .inr hMerged⟩

/-- Probe flows are left out, and the reference is delayed as a whole or not at all. -/
theorem alignedTables_cases (flows reference : Dataset) (stats : GeneratorStats)
    (options : PrepareOptions) :
    (alignedTables flows reference stats options).1.Sublist flows ∧
      ((alignedTables flows reference stats options).2 = reference ∨
        (alignedTables flows reference stats options).2 =
          reference.map fun f => f.delay stats.startTime) := by
  unfold alignedTables alignTimes
  split
  · split
    · exact ⟨.refl flows, .inl rfl⟩
    · exact ⟨List.filter_sublist, .inr rfl⟩
  · exact ⟨.refl flows, .inl rfl⟩

/-- No preparation shortens a probe flow. -/
theorem exists_within_of_mem_flows {c : Comparison}
    (h : (prepare flows reference stats options).outcome = .ok c) {w : Flow} (hw : w ∈ c.flows) :
    ∃ f ∈ flows, f.Within w := by
  have hKept := (alignedTables_cases flows reference stats options).1
  rcases (prepare_eq_ok h).2 with hSame | hMerged
  · exact ⟨w, hKept.subset (hSame ▸ hw), .refl w⟩
  · obtain ⟨f, hf, hWithin⟩ := Dataset.exists_within_of_mem_merge hMerged hw
    exact ⟨f, hKept.subset hf, hWithin⟩

end Comparison

namespace Dataset

/-- The tables that sequences of operations reach from some sources, where each replay must be of
an admitted kind. Only the table that the flows of a result come from has to be reached before; the
reference of a merge and the other side of a comparison are arbitrary. -/
inductive Derived (Source : Dataset → Prop)
    (Admitted : Replicator → Dataset → ReplayOptions → Prop) : Dataset → Prop
  | source {d : Dataset} : Source d → Derived Source Admitted d
  | select {d : Dataset} (mask : List Bool) :
      Derived Source Admitted d → Derived Source Admitted (d.select mask)
  | filter {d : Dataset} (p : Flow → Bool) :
      Derived Source Admitted d → Derived Source Admitted (d.filter p)
  | merge {d reference out : Dataset} {alignTimes : Bool} :
      Derived Source Admitted d → (d.merge reference alignTimes).outcome = .ok out →
        Derived Source Admitted out
  | probe {flows reference : Dataset} {stats : GeneratorStats} {options : PrepareOptions}
      {c : Comparison} :
      Derived Source Admitted flows →
        (Comparison.prepare flows reference stats options).outcome = .ok c →
          Derived Source Admitted c.flows
  | reference {flows reference : Dataset} {stats : GeneratorStats} {options : PrepareOptions}
      {c : Comparison} :
      Derived Source Admitted reference →
        (Comparison.prepare flows reference stats options).outcome = .ok c →
          Derived Source Admitted c.reference
  | replay {r : Replicator} {d out : Dataset} {options : ReplayOptions} :
      Derived Source Admitted d → Admitted r d options →
        (r.replicate d options).outcome = .ok out → Derived Source Admitted out

/-- A property of the flows of all sources that survives a longer span, a delay and each admitted
replay is a property of the flows of all tables derived from them. -/
theorem Derived.forall_mem {Source : Dataset → Prop}
    {Admitted : Replicator → Dataset → ReplayOptions → Prop} {Q : Flow → Prop}
    (hSource : ∀ d, Source d → ∀ f ∈ d, Q f) (hWithin : ∀ f w, f.Within w → Q f → Q w)
    (hDelay : ∀ f ms, Q f → Q (f.delay ms))
    (hReplay : ∀ r d options out, Admitted r d options → (r.replicate d options).outcome = .ok out →
      (∀ f ∈ d, Q f) → ∀ g ∈ out, Q g)
    {d : Dataset} (h : Derived Source Admitted d) : ∀ f ∈ d, Q f := by
  induction h with
  | source hd => exact hSource _ hd
  | select mask _ ih => exact fun f hf => ih f ((select_sublist _ mask).subset hf)
  | filter p _ ih => exact fun f hf => ih f (List.mem_of_mem_filter hf)
  | merge _ hMerge ih =>
      intro w hw
      obtain ⟨f, hf, hLonger⟩ := exists_within_of_mem_merge hMerge hw
      exact hWithin f w hLonger (ih f hf)
  | probe _ hPrepare ih =>
      intro w hw
      obtain ⟨f, hf, hLonger⟩ := Comparison.exists_within_of_mem_flows hPrepare hw
      exact hWithin f w hLonger (ih f hf)
  | reference _ hPrepare ih =>
      rw [(Comparison.prepare_eq_ok hPrepare).1]
      rcases (Comparison.alignedTables_cases _ _ _ _).2 with hSame | hDelayed
      · rwa [hSame]
      · rw [hDelayed, List.forall_mem_map]
        exact fun f hf => hDelay f _ (ih f hf)
  | replay _ hAdmitted hReplicate ih => exact hReplay _ _ _ _ hAdmitted hReplicate ih

end Dataset

end FlowAudit
