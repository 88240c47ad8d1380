import FlowAudit.Merge
import FlowAudit.Proofs.Totals
import FlowAudit.Proofs.Traversal
/-!
One flow for several. Counters are added one flow after the other, and the result exists iff the
exact totals fit a word, in which case it has the earliest start, the latest end and these totals.
-/
namespace FlowAudit

/-- Whether both totals of a table fit the counters of one flow. -/
def Dataset.Fits (d : Dataset) : Prop :=
  d.totalPackets ≤ Word.largest ∧ d.totalBytes ≤ Word.largest

instance (d : Dataset) : Decidable d.Fits :=
  inferInstanceAs (Decidable (_ ∧ _))

namespace Dataset

theorem fits_congr {d e : Dataset} (h : volume d = volume e) : d.Fits ↔ e.Fits := by
  rw [volume_eq, volume_eq, Prod.mk.injEq] at h
  rw [Fits, Fits, h.1, h.2]

theorem fits_singleton (f : Flow) : Fits [f] :=
  ⟨Word.toNat_le_largest f.packets, Word.toNat_le_largest f.bytes⟩

theorem Fits.of_sublist {d e : Dataset} (h : Fits e) (hPart : d.Sublist e) : Fits d := by
  have hTotals := totals_le_of_sublist hPart
  exact ⟨hTotals.1.trans h.1, hTotals.2.trans h.2⟩

theorem Fits.of_append_left {d e : Dataset} (h : Fits (d ++ e)) : Fits d :=
  h.of_sublist (List.sublist_append_left d e)

end Dataset

namespace Flow

/-- A flow together with those that follow it, with totals that are assumed to fit. -/
def hull (first : Flow) (rest : List Flow) : Flow :=
  { first with
    startTime := (rest.map startTime).foldl min first.startTime
    endTime := (rest.map endTime).foldl max first.endTime
    packets := .ofNat (Dataset.totalPackets (first :: rest))
    bytes := .ofNat (Dataset.totalBytes (first :: rest)) }

@[simp] theorem key_hull (first : Flow) (rest : List Flow) :
    (hull first rest).key = first.key := rfl

theorem hull_nil (f : Flow) : hull f [] = f := by
  simp [hull, Dataset.totalPackets, Dataset.totalBytes]

theorem volume_hull {first : Flow} {rest : List Flow} (h : Dataset.Fits (first :: rest)) :
    (hull first rest).volume = Dataset.volume (first :: rest) := by
  rw [Dataset.volume_eq, volume]
  exact Prod.ext (Word.toNat_ofNat_of_le h.1) (Word.toNat_ofNat_of_le h.2)

theorem totals_hull_cons {first g : Flow} (rest : List Flow) (h : Dataset.Fits [first, g]) :
    Dataset.volume (hull first [g] :: rest) = Dataset.volume (first :: g :: rest) := by
  rw [Dataset.volume_cons, volume_hull h]
  simp [add_assoc]

/-- Two flows can be added iff their totals fit, and then the sum is their hull. -/
theorem absorb_eq (f g : Flow) :
    f.absorb g = if Dataset.Fits [f, g] then .ok (hull f [g]) else .error ⟨f.key⟩ := by
  have hPackets : Dataset.totalPackets [f, g] = f.packets.toNat + g.packets.toNat := by
    simp [Dataset.totalPackets]
  have hBytes : Dataset.totalBytes [f, g] = f.bytes.toNat + g.bytes.toNat := by
    simp [Dataset.totalBytes]
  rw [absorb, Word.add?, Word.add?, ← hPackets, ← hBytes]
  by_cases hp : Dataset.totalPackets [f, g] ≤ Word.largest
  · by_cases hb : Dataset.totalBytes [f, g] ≤ Word.largest
    · rw [Word.ofNat?_of_le hp, Word.ofNat?_of_le hb, if_pos ⟨hp, hb⟩]
      rfl
    · rw [Word.ofNat?_of_le hp, Word.ofNat?_eq_none_iff.mpr (Nat.lt_of_not_le hb),
        if_neg fun h => hb h.2]
  · rw [Word.ofNat?_eq_none_iff.mpr (Nat.lt_of_not_le hp), if_neg fun h => hp h.1]

/-- Adding flows one after the other can be split after the first step. -/
theorem hull_hull {first g : Flow} (rest : List Flow) (h : Dataset.Fits [first, g]) :
    hull (hull first [g]) rest = hull first (g :: rest) := by
  have hTotals := totals_hull_cons rest h
  rw [Dataset.volume_eq, Dataset.volume_eq, Prod.mk.injEq] at hTotals
  obtain ⟨hPackets, hBytes⟩ := hTotals
  calc
    _ = { first with
          startTime := ((g :: rest).map startTime).foldl min first.startTime
          endTime := ((g :: rest).map endTime).foldl max first.endTime
          packets := .ofNat (Dataset.totalPackets (hull first [g] :: rest))
          bytes := .ofNat (Dataset.totalBytes (hull first [g] :: rest)) } := rfl
    _ = hull first (g :: rest) := by rw [hPackets, hBytes]; rfl

/-- One flow that stands for a flow and those that follow it. -/
def aggregate (first : Flow) (rest : List Flow) : Except CounterOverflow Flow :=
  rest.foldlM absorb first

/-- No partial sum overflows if the total does not, so only the totals matter. -/
theorem aggregate_eq (first : Flow) (rest : List Flow) :
    aggregate first rest =
      if Dataset.Fits (first :: rest) then .ok (hull first rest) else .error ⟨first.key⟩ := by
  induction rest generalizing first with
  | nil => rw [if_pos (Dataset.fits_singleton first), hull_nil]; rfl
  | cons g rest ih =>
      change first.absorb g >>= (fun f => aggregate f rest) = _
      rw [absorb_eq]
      by_cases h : Dataset.Fits [first, g]
      · rw [if_pos h, ok_bind, ih, hull_hull rest h]
        simp only [Dataset.fits_congr (totals_hull_cons rest h), key_hull]
      · have hAll : ¬Dataset.Fits (first :: g :: rest) := fun hFits =>
          h (Dataset.Fits.of_append_left (e := rest) hFits)
        rw [if_neg h, if_neg hAll]
        rfl

theorem span_hull_singleton (f g : Flow) : (hull f [g]).span = joinSpans f.span g.span :=
  Prod.ext (Word.toNat_min _ _) (Word.toNat_max _ _)

/-- The span of a hull is the shortest one around all flows. -/
theorem timeBounds?_eq_span_hull (first : Flow) (rest : List Flow) :
    Dataset.timeBounds? (first :: rest) = some (hull first rest).span := by
  induction rest generalizing first with
  | nil => rfl
  | cons g rest ih =>
      have hSplit : (hull first (g :: rest)).span = (hull (hull first [g]) rest).span := rfl
      rw [hSplit, ← ih, Dataset.timeBounds?_cons, Dataset.timeBounds?_cons, Dataset.timeBounds?_cons,
        span_hull_singleton, ← merge_joinSpans_assoc]
      rfl

/-- The hull of flows has their totals and their time bounds. -/
theorem sameTraffic_hull {first : Flow} {rest : List Flow} (h : Dataset.Fits (first :: rest)) :
    Dataset.SameTraffic [hull first rest] (first :: rest) := by
  constructor
  · rw [Dataset.volume_cons, volume_hull h, Dataset.volume_nil, add_zero]
  · exact (timeBounds?_eq_span_hull first rest).symm

theorem endTime_hull_cons (f g : Flow) (rest : List Flow) :
    (hull f (g :: rest)).endTime = max f.endTime (hull g rest).endTime :=
  List.foldl_assoc

/-- A hull does not end before its first flow. -/
theorem endTime_le_hull (f : Flow) (rest : List Flow) :
    f.endTime.toNat ≤ (hull f rest).endTime.toNat := by
  cases rest with
  | nil => exact Nat.le_refl _
  | cons g rest =>
      rw [endTime_hull_cons, Word.toNat_max]
      exact Nat.le_max_left _ _

/-- Where no later flow starts earlier, the first one decides the start. -/
theorem startTime_hull_of_le {f : Flow} {rest : List Flow}
    (h : ∀ g ∈ rest, f.startTime.toNat ≤ g.startTime.toNat) :
    (hull f rest).startTime = f.startTime := by
  change (rest.map startTime).foldl min f.startTime = f.startTime
  induction rest with
  | nil => rfl
  | cons g rest ih =>
      obtain ⟨hHead, hRest⟩ := List.forall_mem_cons.mp h
      have hMin : min f.startTime g.startTime = f.startTime := by
        rw [← UInt64.toNat_inj, Word.toNat_min, Nat.min_eq_left hHead]
      rw [List.map_cons, List.foldl_cons, hMin, ih hRest]

end Flow

end FlowAudit
