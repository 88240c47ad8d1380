import FlowAudit.Proofs.Traversal
import FlowAudit.Replication.Replicator
/-!
What a replay produces, without its messages: all loops are replayed one after the other, and the
flow cache sees the result if it is asked for.
-/
namespace FlowAudit

theorem mergeAcrossLoops_nil (timeout : Option UInt64) : mergeAcrossLoops [] timeout = .ok [] := rfl

namespace Replicator

/-- The loops that are replayed, in order. -/
def activeLoops (r : Replicator) (options : ReplayOptions) : List UInt32 :=
  (loopsOf options).filter fun loop => !r.ignored.contains loop

/-- The flows of all loops before any merging. -/
def replayAll (r : Replicator) (d : Dataset) (options : ReplayOptions) :
    Except CounterOverflow Dataset :=
  match d.timeBounds? with
  | none => .ok []
  | some (start, stop) => do
    let flows ← (r.activeLoops options).mapM
      (replayLoop r.plan (Clock.of start stop options.speed) d)
    return flows.flatten

@[simp] theorem outcome_reportLoops (r : Replicator) (loops : List UInt32) :
    (r.reportLoops loops).outcome = .ok () := by
  induction loops with
  | nil => rfl
  | cons loop rest ih =>
      rw [reportLoops]
      split <;> simp [ih]

/-- A replay at an accepted speed. -/
theorem outcome_replicate (r : Replicator) (d : Dataset) (options : ReplayOptions)
    (hFinite : options.speed.isFinite) (hPositive : 0.0 < options.speed) :
    (r.replicate d options).outcome = do
      let flows ← (r.replayAll d options).mapError ReplicationError.counterOverflow
      if options.mergeAcrossLoops then
        (FlowAudit.mergeAcrossLoops flows options.inactiveTimeout).mapError
          ReplicationError.counterOverflow
      else return flows := by
  have hSpeed : (!options.speed.isFinite || !decide (0.0 < options.speed)) = false := by
    simp [hFinite, hPositive]
  rw [replicate, hSpeed, if_neg Bool.false_ne_true, replayAll]
  cases d.timeBounds? with
  | none =>
      cases options.mergeAcrossLoops <;> simp [mergeAcrossLoops_nil]
  | some bounds =>
      obtain ⟨start, stop⟩ := bounds
      simp only [Traced.outcome_bind, outcome_reportLoops, ok_bind, Traced.outcome_lift]
      rw [← activeLoops]
      cases (r.activeLoops options).mapM
          (replayLoop r.plan (Clock.of start stop options.speed) d) with
      | error e => rfl
      | ok flows =>
          cases options.mergeAcrossLoops <;> simp

/-- A speed that is not positive and finite is refused before anything else. -/
theorem speed_of_replicate_ok {r : Replicator} {d out : Dataset} {options : ReplayOptions}
    (h : (r.replicate d options).outcome = .ok out) :
    options.speed.isFinite ∧ 0.0 < options.speed := by
  by_contra hSpeed
  have hRefused : (!options.speed.isFinite || !decide (0.0 < options.speed)) = true := by
    by_cases hFinite : options.speed.isFinite
    · simpa [hFinite] using hSpeed
    · simp [hFinite]
  rw [replicate, if_pos hRefused, Traced.outcome_ofExcept] at h
  cases h

/-- What comes out is what the loops replay, or what a flow cache makes of it. -/
theorem replayAll_of_replicate {r : Replicator} {d out : Dataset}
    {options : ReplayOptions} (h : (r.replicate d options).outcome = .ok out) :
    ∃ flows, r.replayAll d options = .ok flows ∧
      (out = flows ∨ FlowAudit.mergeAcrossLoops flows options.inactiveTimeout = .ok out) := by
  obtain ⟨hFinite, hPositive⟩ := speed_of_replicate_ok h
  rw [outcome_replicate r d options hFinite hPositive] at h
  obtain ⟨flows, hFlows, hMerged⟩ := bind_eq_ok_iff.mp h
  refine ⟨flows, mapError_eq_ok_iff.mp hFlows, ?_⟩
  cases hMerge : options.mergeAcrossLoops with
  | false =>
      rw [hMerge] at hMerged
      cases hMerged
      exact .inl rfl
  | true =>
      rw [hMerge] at hMerged
      exact .inr (mapError_eq_ok_iff.mp hMerged)

end Replicator

end FlowAudit
