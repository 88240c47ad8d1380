import FlowAudit.Proofs.Merge.ByKey
/-!
Flows that stand for several flows. Such a flow has the key of all of them, starts with the earliest
and ends with the latest one, and counts what they count together; the flow count apart, these facts
leave no choice. Summing up in two steps is the same as in one.
-/
namespace FlowAudit

open Dataset (Fits SameTraffic)

namespace Flow

/-- The flow stands for these flows of its key. The totals are exact, so they fit its counters. -/
structure Summarizes (f : Flow) (members : Dataset) : Prop where
  key : ∀ g ∈ members, g.key = f.key
  start : (∃ g ∈ members, g.startTime = f.startTime) ∧ ∀ g ∈ members, f.startTime ≤ g.startTime
  stop : (∃ g ∈ members, g.endTime = f.endTime) ∧ ∀ g ∈ members, g.endTime ≤ f.endTime
  packets : f.packets.toNat = members.totalPackets
  bytes : f.bytes.toNat = members.totalBytes

/-- The span of a flow is that of a table iff both its ends occur there and no flow goes beyond
them. -/
theorem timeBounds?_eq_span_iff {f : Flow} {members : Dataset} :
    members.timeBounds? = some f.span ↔
      ((∃ g ∈ members, g.startTime = f.startTime) ∧ ∀ g ∈ members, f.startTime ≤ g.startTime) ∧
        (∃ g ∈ members, g.endTime = f.endTime) ∧ ∀ g ∈ members, g.endTime ≤ f.endTime := by
  simp only [span, Dataset.timeBounds?_eq_some_iff, UInt64.toNat_inj, UInt64.le_iff_toNat_le]

/-- To stand for flows is to have their key and their traffic. -/
theorem summarizes_iff {f : Flow} {members : Dataset} :
    f.Summarizes members ↔ (∀ g ∈ members, g.key = f.key) ∧ SameTraffic [f] members := by
  have hVolume : Dataset.volume [f] = (f.packets.toNat, f.bytes.toNat) := add_zero _
  have hBounds : Dataset.timeBounds? [f] = some f.span := rfl
  constructor
  · rintro ⟨hKey, hStart, hStop, hPackets, hBytes⟩
    refine ⟨hKey, ?_, ?_⟩
    · rw [hVolume, hPackets, hBytes, Dataset.volume_eq]
    · rw [hBounds, timeBounds?_eq_span_iff.mpr ⟨hStart, hStop⟩]
  · rintro ⟨hKey, hTotals, hSpan⟩
    rw [hVolume, Dataset.volume_eq, Prod.mk.injEq] at hTotals
    obtain ⟨hStart, hStop⟩ := timeBounds?_eq_span_iff.mp (hSpan.symm.trans hBounds)
    exact ⟨hKey, hStart, hStop, hTotals.1, hTotals.2⟩

namespace Summarizes

variable {f g : Flow} {members : Dataset}

theorem traffic (h : f.Summarizes members) : SameTraffic [f] members :=
  (summarizes_iff.mp h).2

theorem fits (h : f.Summarizes members) : Fits members :=
  (Dataset.fits_congr h.traffic.volume).mp (Dataset.fits_singleton f)

theorem exists_mem (h : f.Summarizes members) : ∃ g ∈ members, g.key = f.key := by
  obtain ⟨g, hg, _⟩ := h.start.1
  exact ⟨g, hg, h.key g hg⟩

theorem of_perm {others : Dataset} (h : f.Summarizes members) (hPerm : members.Perm others) :
    f.Summarizes others :=
  summarizes_iff.mpr ⟨fun g hg => h.key g (hPerm.mem_iff.mpr hg), h.traffic.trans (.of_perm hPerm)⟩

theorem uncounted (h : f.Summarizes members) : f.uncounted.Summarizes members :=
  ⟨h.key, h.start, h.stop, h.packets, h.bytes⟩

/-- What a flow says about the flows that it stands for is determined by them. -/
theorem uncounted_unique (h : f.Summarizes members) (h' : g.Summarizes members) :
    f.uncounted = g.uncounted := by
  obtain ⟨x, hx, hKey⟩ := h.exists_mem
  have hSameKey : f.key = g.key := hKey.symm.trans (h'.key x hx)
  have hTraffic := h.traffic.trans h'.traffic.symm
  have hSpan : f.span = g.span := Option.some.inj hTraffic.timeBounds
  obtain ⟨hStart, hStop⟩ := Prod.mk.inj hSpan
  have hPackets := h.packets.trans h'.packets.symm
  have hBytes := h.bytes.trans h'.bytes.symm
  rw [UInt64.toNat_inj] at hStart hStop hPackets hBytes
  simp only [Flow.uncounted, hSameKey, hStart, hStop, hPackets, hBytes]

/-- Flows determine the one that stands for them, apart from its count. -/
theorem unique (h : f.Summarizes members) (h' : g.Summarizes members)
    (hCount : f.flowCount = g.flowCount) : f = g := by
  have hSame := h.uncounted_unique h'
  cases f
  cases g
  simp_all [Flow.uncounted]

end Summarizes

/-- The merged flow of a group stands for it. -/
theorem summarizes_merged {group : FlowKey × List Flow} (hSome : group.2 ≠ [])
    (hKey : ∀ f ∈ group.2, f.key = group.1) (hFits : Fits group.2) :
    (merged group).Summarizes group.2 :=
  summarizes_iff.mpr ⟨hKey, Dataset.sameTraffic_merged hSome hFits⟩

/-- Flows that stand for parts of a table have the traffic of the whole table. -/
theorem sameTraffic_of_forall₂_summarizes {flows : List Flow} {parts : List Dataset}
    (h : List.Forall₂ Summarizes flows parts) : SameTraffic flows parts.flatten := by
  induction h with
  | nil => exact .refl []
  | cons hHead _ ih => exact hHead.traffic.append ih

/-- A flow that stands for all members of several parts stands for the flows of the parts. -/
theorem Summarizes.of_parts {f : Flow} {flows : List Flow} {parts : List Dataset}
    (h : f.Summarizes parts.flatten) (hParts : List.Forall₂ Summarizes flows parts) :
    f.Summarizes flows := by
  refine summarizes_iff.mpr ⟨fun g hg => ?_,
    h.traffic.trans (sameTraffic_of_forall₂_summarizes hParts).symm⟩
  obtain ⟨part, hPart, hSum⟩ := exists_rel_of_mem hParts hg
  obtain ⟨x, hx, hKey⟩ := hSum.exists_mem
  exact hKey.symm.trans (h.key x (List.mem_flatten.mpr ⟨part, hPart, hx⟩))

end Flow

end FlowAudit
