import FlowAudit.Proofs.Comparison.Complement
import FlowAudit.Proofs.Rule.Document
/-!
Time windows that are applied one after the other. Together they are one window, from the later
start to the earlier end, and a window inside another one selects some of its flows. Windows select
from the probe data and from the reference alike.
-/
namespace FlowAudit

/-- Whether a flow starts and ends within two optional bounds. Unlike the bounds of a segment, these
may be reversed. -/
def Flow.liesBetween (startTime endTime : Option UInt64) (f : Flow) : Bool :=
  (startTime.all fun bound => decide (bound ≤ f.startTime)) &&
    endTime.all fun bound => decide (f.endTime ≤ bound)

/-- No flow with ordered times lies between reversed bounds. -/
theorem Flow.liesBetween_eq_false {f : Flow} (hTimes : f.startTime ≤ f.endTime)
    {startTime endTime : Option UInt64} {start stop : UInt64} (hStart : start ∈ startTime)
    (hStop : stop ∈ endTime) (hReversed : stop < start) :
    f.liesBetween startTime endTime = false := by
  cases hStart
  cases hStop
  rw [← Bool.not_eq_true]
  intro hBetween
  simp only [liesBetween, Option.all_some, Bool.and_eq_true, decide_eq_true_eq] at hBetween
  obtain ⟨hFirst, hLast⟩ := hBetween
  have hOrdered : start ≤ stop := UInt64.le_trans hFirst (UInt64.le_trans hTimes hLast)
  exact UInt64.not_le.mpr hReversed hOrdered

/-- A flow lies between the stricter ones of two pairs of bounds iff it lies between both pairs. -/
theorem Flow.liesBetween_merge (f : Flow) (startTime startTime' endTime endTime' : Option UInt64) :
    f.liesBetween (Option.merge max startTime startTime') (Option.merge min endTime endTime') =
      (f.liesBetween startTime endTime && f.liesBetween startTime' endTime') := by
  have hMax (x y : UInt64) :
      decide (max x y ≤ f.startTime) = (decide (x ≤ f.startTime) && decide (y ≤ f.startTime)) := by
    rw [← Bool.decide_and, decide_eq_decide]
    exact Word.max_le_iff
  have hMin (x y : UInt64) :
      decide (f.endTime ≤ min x y) = (decide (f.endTime ≤ x) && decide (f.endTime ≤ y)) := by
    rw [← Bool.decide_and, decide_eq_decide]
    exact Word.le_min_iff
  rw [liesBetween, Option.all_merge hMax, Option.all_merge hMin, liesBetween, liesBetween]
  ac_rfl

namespace TimeSegment

/-- Whether a window begins no earlier and ends no later than another one. An absent start is the
first time that there is, and an absent end the last one. -/
def IsInside (inner outer : TimeSegment) : Prop :=
  outer.startTime.getD 0 ≤ inner.startTime.getD 0 ∧
    inner.endTime.getD (.ofNat Word.largest) ≤ outer.endTime.getD (.ofNat Word.largest)

/-- An absent start is the first time that there is, and an absent end the last one. -/
theorem liesBetween_iff {s : TimeSegment} {f : Flow} :
    f.liesBetween s.startTime s.endTime ↔ s.startTime.getD 0 ≤ f.startTime ∧
      f.endTime ≤ s.endTime.getD (.ofNat Word.largest) := by
  have hFirst : 0 ≤ f.startTime := UInt64.zero_le ..
  have hLast : f.endTime ≤ .ofNat Word.largest := Nat.le_sub_one_of_lt f.endTime.toNat_lt
  cases s.startTime <;> cases s.endTime <;> simp [Flow.liesBetween, hFirst, hLast]

/-- A window inside another one selects nothing beyond it. -/
theorem IsInside.liesBetween {inner outer : TimeSegment} (h : inner.IsInside outer) {f : Flow}
    (hf : f.liesBetween inner.startTime inner.endTime) :
    f.liesBetween outer.startTime outer.endTime := by
  rw [liesBetween_iff] at hf ⊢
  exact ⟨UInt64.le_trans h.1 hf.1, UInt64.le_trans hf.2 h.2⟩

end TimeSegment

/-- Whether a table holds some flows of another one in their order, so that no counter of it is
larger. -/
structure Dataset.Narrows (d e : Dataset) : Prop where
  rows : d.Sublist e
  flows : d.length ≤ e.length
  packets : d.totalPackets ≤ e.totalPackets
  bytes : d.totalBytes ≤ e.totalBytes

theorem Dataset.Narrows.of_sublist {d e : Dataset} (h : d.Sublist e) : d.Narrows e := by
  have hTotals := totals_le_of_sublist h
  exact ⟨h, h.length_le, hTotals.1, hTotals.2⟩

namespace Comparison

/-- Both sides with only the flows that the masks of a segment select. -/
def select (c : Comparison) (segment : Option Segment) : Comparison where
  flows := c.flows.select (c.flows.mask segment)
  reference := c.reference.select (c.reference.mask segment)
  stats := c.stats

/-- Both sides with only the flows that meet a condition. -/
def keep (c : Comparison) (p : Flow → Bool) : Comparison where
  flows := c.flows.filter p
  reference := c.reference.filter p
  stats := c.stats

/-- Whether this is so on both sides. -/
structure Narrows (c c' : Comparison) : Prop where
  flows : c.flows.Narrows c'.flows
  reference : c.reference.Narrows c'.reference

/-- The masks select what the rules measure. -/
theorem select_eq_keep (c : Comparison) (segment : Option Segment) :
    c.select segment = c.keep (inScope segment) := by
  rw [select, keep, Dataset.mask, Dataset.mask, Dataset.select_map, Dataset.select_map]

theorem select_time (c : Comparison) (s : TimeSegment) :
    c.select (some (.time s)) = c.keep (Flow.liesBetween s.startTime s.endTime) :=
  select_eq_keep c (some (.time s))

theorem keep_keep (c : Comparison) (p q : Flow → Bool) :
    (c.keep p).keep q = c.keep fun f => p f && q f := by
  simp only [keep, List.filter_filter, Bool.and_comm]

theorem keep_eq_empty {c : Comparison} {p : Flow → Bool} (hFlows : ∀ f ∈ c.flows, p f = false)
    (hReference : ∀ f ∈ c.reference, p f = false) : c.keep p = ⟨[], [], c.stats⟩ := by
  rw [keep, List.filter_eq_nil_iff.mpr fun f hf => by simp [hFlows f hf],
    List.filter_eq_nil_iff.mpr fun f hf => by simp [hReference f hf]]

theorem narrows_keep (c : Comparison) {p q : Flow → Bool} (h : ∀ f, p f → q f) :
    (c.keep p).Narrows (c.keep q) :=
  ⟨.of_sublist (List.monotone_filter_right _ h), .of_sublist (List.monotone_filter_right _ h)⟩

/-- Two windows that are applied one after the other select what lies between the later start and
the earlier end, in its order. They are one window again, unless these bounds are reversed, and then
they select nothing. A window inside another one selects some of its flows, and no total is larger. -/
theorem windows_compose {c : Comparison} (hFlows : ∀ f ∈ c.flows, f.startTime ≤ f.endTime)
    (hReference : ∀ f ∈ c.reference, f.startTime ≤ f.endTime) (a b : TimeSegment) :
    let startTime := Option.merge max a.startTime b.startTime
    let endTime := Option.merge min a.endTime b.endTime
    let both := (c.select (some (.time a))).select (some (.time b))
    both = c.keep (Flow.liesBetween startTime endTime) ∧
    (∀ start ∈ startTime, ∀ stop ∈ endTime, stop < start → both = ⟨[], [], c.stats⟩) ∧
    (∀ w, TimeSegment.between startTime endTime = .ok w → both = c.select (some (.time w))) ∧
    (b.IsInside a → (c.select (some (.time b))).Narrows (c.select (some (.time a)))) := by
  intro startTime endTime both
  have hBoth : both = c.keep (Flow.liesBetween startTime endTime) := by
    calc
      both = c.keep fun f => f.liesBetween a.startTime a.endTime &&
          f.liesBetween b.startTime b.endTime := by
        simp only [both, select_time, keep_keep]
      _ = c.keep (Flow.liesBetween startTime endTime) :=
        congrArg c.keep (funext fun f => (f.liesBetween_merge ..).symm)
  refine ⟨hBoth, fun start hStart stop hStop hReversed => ?_, fun w hWindow => ?_, fun hInside => ?_⟩
  · rw [hBoth]
    exact keep_eq_empty
      (fun f hf => Flow.liesBetween_eq_false (hFlows f hf) hStart hStop hReversed)
      (fun f hf => Flow.liesBetween_eq_false (hReference f hf) hStart hStop hReversed)
  · obtain ⟨hStart, hStop⟩ := TimeSegment.between_eq_ok_iff.mp hWindow
    rw [hBoth, select_time, hStart, hStop]
  · rw [select_time, select_time]
    exact narrows_keep c fun _ => hInside.liesBetween

/-- Half-open windows that meet between their bounds, and two that do not meet. -/
theorem windows_compose_half_open :
    let flow (start stop packets bytes : UInt64) : Flow :=
      ⟨⟨6, .ofNat .v4 0x0a000001, .ofNat .v4 0xc0000201, 1, 80⟩, start, stop, packets, bytes, none⟩
    let c : Comparison :=
      ⟨[flow 500 900 1 100, flow 1000 2500 2 200, flow 1200 5000 3 300, flow 1500 3000 4 400],
        [flow 1100 2600 6 600, flow 1300 9000 7 700], .zero⟩
    let since : TimeSegment := ⟨some 1000, none, by simp⟩
    let before : TimeSegment := ⟨none, some 3000, by simp⟩
    let both : TimeSegment := ⟨some 1000, some 3000, by simp⟩
    let early : TimeSegment := ⟨none, some 900, by simp⟩
    (c.select (some (.time since))).select (some (.time before)) = c.select (some (.time both)) ∧
      c.select (some (.time both)) = ⟨[flow 1000 2500 2 200, flow 1500 3000 4 400],
        [flow 1100 2600 6 600], .zero⟩ ∧
      (c.select (some (.time since))).select (some (.time early)) = ⟨[], [], .zero⟩ ∧
      both.IsInside since ∧
      (c.select (some (.time both))).Narrows (c.select (some (.time since))) := by
  intro flow c since before both early
  have hFlows : ∀ f ∈ c.flows, f.startTime ≤ f.endTime := by decide
  have hReference : ∀ f ∈ c.reference, f.startTime ≤ f.endTime := by decide
  obtain ⟨-, -, hOne, -⟩ := windows_compose hFlows hReference since before
  obtain ⟨-, hNone, -, -⟩ := windows_compose hFlows hReference since early
  obtain ⟨-, -, -, hInside⟩ := windows_compose hFlows hReference since both
  have hSelected : c.select (some (.time both)) =
      ⟨[flow 1000 2500 2 200, flow 1500 3000 4 400], [flow 1100 2600 6 600], .zero⟩ := by
    rw [select_eq_keep, keep, mk.injEq]
    exact ⟨by decide, by decide, rfl⟩
  have hBounds : both.IsInside since := ⟨by decide, by decide⟩
  exact ⟨hOne both rfl, hSelected, hNone 1000 rfl 900 rfl (by decide), hBounds, hInside hBounds⟩

end Comparison

end FlowAudit
