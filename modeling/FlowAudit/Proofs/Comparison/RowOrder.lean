import FlowAudit.Proofs.Merge.Outcome
/-!
The order of rows. Preparation either merges the probe flows into a table with an order of its own,
or leaves the rows as they are; and whatever is measured on a part of a table does not depend on the
order of its rows.
-/
namespace FlowAudit

namespace Dataset

theorem restrict_perm {d e : Dataset} (h : d.Perm e) (segment : Option Segment) :
    (d.restrict segment).Perm (e.restrict segment) :=
  h.filter _

/-- The smallest key that repeats is found whatever the order of the table is. -/
theorem checkUniqueKeys_perm {d e : Dataset} (h : d.Perm e) :
    d.checkUniqueKeys = e.checkUniqueKeys := by
  have hCount := (h.map Flow.key).count_eq
  simp only [checkUniqueKeys_eq, distinctKeys_perm h, hCount]

/-- Merging succeeds for both orders or for none, and leaves the same table. -/
theorem mergeByKey_perm {d e : Dataset} (h : d.Perm e) :
    Corresponds (fun _ _ => True) (· = ·) d.mergeByKey e.mergeByKey := by
  cases hd : d.mergeByKey with
  | ok m =>
      obtain ⟨hFits, rfl⟩ := mergeByKey_eq_ok_iff.mp hd
      rw [mergeByKey_eq_ok_iff.mpr ⟨(keysFit_perm h).mp hFits, groupBy_merged_perm h⟩]
      exact rfl
  | error cause =>
      cases he : e.mergeByKey with
      | error cause' => trivial
      | ok m =>
          obtain ⟨hFits, _⟩ := mergeByKey_eq_ok_iff.mp he
          rw [mergeByKey_eq_ok_iff.mpr ⟨(keysFit_perm h).mpr hFits, rfl⟩] at hd
          cases hd

end Dataset

namespace MergeError

/-- Errors that name the same repeated key of the reference, or both an overflow. Which of several
keys overflows first is a matter of the order. -/
def Alike : MergeError → MergeError → Prop
  | counterOverflow _, counterOverflow _ => True
  | e, e' => e = e'

theorem Alike.refl (e : MergeError) : e.Alike e := by
  cases e with
  | duplicateReferenceKey key count => rfl
  | counterOverflow cause => trivial

end MergeError

/-- The order of the rows changes neither the merged flows nor whether there is an error. Of several
counters that overflow, it decides which one is named. -/
theorem Dataset.merge_perm {d d' e e' : Dataset} (h : d.Perm d') (hReference : e.Perm e')
    (alignTimes : Bool) :
    Corresponds MergeError.Alike (· = ·) (d.merge e alignTimes).outcome
      (d'.merge e' alignTimes).outcome := by
  rw [outcome_merge, outcome_merge, checkUniqueKeys_perm hReference]
  cases e'.checkUniqueKeys with
  | error cause => exact MergeError.Alike.refl cause
  | ok _ =>
      rw [ok_bind, ok_bind]
      have hMerged := (mergeByKey_perm h).mapError (F := MergeError.Alike)
        (f := MergeError.counterOverflow) (g := MergeError.counterOverflow) fun _ _ _ => trivial
      refine hMerged.bind ?_
      rintro m _ rfl
      exact rfl

namespace Comparison

/-- Both sides have the same rows, in any order. -/
structure SameRows (c c' : Comparison) : Prop where
  flows : c.flows.Perm c'.flows
  reference : c.reference.Perm c'.reference
  stats : c.stats = c'.stats

namespace SameRows

variable {c c' : Comparison}

/-- A metric looks at sums, counts and time bounds, none of which depends on the order. -/
theorem outcome_eq (h : c.SameRows c') (rule : Rule) (metric : Metric) :
    c.outcome rule metric = c'.outcome rule metric := by
  have hFlows := Dataset.restrict_perm h.flows rule.segment
  have hReference := Dataset.restrict_perm h.reference rule.segment
  rw [outcome, outcome, h.stats]
  by_cases hKind : metric.kind = .flows
  · simp only [hKind, Measurement.evaluate, hFlows.length_eq, hReference.length_eq]
  · rw [Measurement.evaluate_congr hKind (.of_perm hFlows) (.of_perm hReference)]

theorem outcomesOf_eq (h : c.SameRows c') (rules : List (Rule × Nat)) :
    c.outcomesOf rules = c'.outcomesOf rules :=
  outcomesOf_congr fun rule _ => funext (h.outcome_eq rule.1)

theorem complementOutcomes_eq (h : c.SameRows c') (rules : List Rule) :
    c.complementOutcomes rules = c'.complementOutcomes rules := by
  have hVolume := Dataset.volume_perm (h.flows.filter fun f => !coveredBy rules f)
  rw [Dataset.volume_eq, Dataset.volume_eq, Prod.mk.injEq] at hVolume
  rw [complementOutcomes, complementOutcomes, uncovered, uncovered, hVolume.1, hVolume.2]

theorem validate_eq (h : c.SameRows c') (rules : List Rule) (checkComplement : Bool) :
    (c.validate rules checkComplement).outcome = (c'.validate rules checkComplement).outcome := by
  rw [outcome_validate_eq, outcome_validate_eq, h.outcomesOf_eq, h.complementOutcomes_eq]

end SameRows

/-- Each row is left out or delayed by its own times, whatever its place in the table. -/
theorem alignedTables_perm {flows flows' reference reference' : Dataset}
    (hFlows : flows.Perm flows') (hReference : reference.Perm reference') (stats : GeneratorStats)
    (options : PrepareOptions) :
    (alignedTables flows reference stats options).1.Perm
        (alignedTables flows' reference' stats options).1 ∧
      (alignedTables flows reference stats options).2.Perm
        (alignedTables flows' reference' stats options).2 := by
  rw [alignedTables, alignedTables]
  cases options.alignReference with
  | false => exact ⟨hFlows, hReference⟩
  | true =>
      rw [if_pos rfl, if_pos rfl, alignTimes, alignTimes]
      by_cases hStart : stats.startTime = 0
      · rw [if_pos hStart, if_pos hStart]
        exact ⟨hFlows, hReference⟩
      · rw [if_neg hStart, if_neg hStart]
        exact ⟨hFlows.filter _, hReference.map _⟩

/-- Preparation of permuted tables gives permuted data, or errors that are alike. -/
theorem sameRows_prepare {flows flows' reference reference' : Dataset}
    (hFlows : flows.Perm flows') (hReference : reference.Perm reference') (stats : GeneratorStats)
    (options : PrepareOptions) :
    Corresponds MergeError.Alike SameRows (prepare flows reference stats options).outcome
      (prepare flows' reference' stats options).outcome := by
  obtain ⟨hProbe, hExpected⟩ := alignedTables_perm hFlows hReference stats options
  rw [outcome_prepare, outcome_prepare]
  cases options.merge with
  | false => exact ⟨hProbe, hExpected, rfl⟩
  | true =>
      refine (Dataset.merge_perm hProbe hExpected options.alignConversations).bind ?_
      rintro merged _ rfl
      exact ⟨.refl _, hExpected, rfl⟩

/-- Reordering the rows of either side changes no verdict. Preparation succeeds for both orders or
for none, with the same repeated key of the reference if that is the reason; after that every
validation gives the same report or the same error. -/
theorem validate_reordered {flows flows' reference reference' : Dataset}
    (hFlows : flows.Perm flows') (hReference : reference.Perm reference') (stats : GeneratorStats)
    (options : PrepareOptions) :
    Corresponds MergeError.Alike
      (fun c c' => ∀ rules checkComplement,
        (c.validate rules checkComplement).outcome = (c'.validate rules checkComplement).outcome)
      (prepare flows reference stats options).outcome
      (prepare flows' reference' stats options).outcome := by
  exact (sameRows_prepare hFlows hReference stats options).imp fun _ _ h => h.validate_eq

/-- The first probe flow starts before the run and is left out; the others count in either order. -/
theorem validate_reordered_three_flows :
    let flow (source : Nat) (start packets : UInt64) : Flow :=
      ⟨⟨6, .ofNat .v4 source, .ofNat .v4 0xc0000201, 1, 80⟩, start, 9000, packets, 100, none⟩
    let flows : Dataset := [flow 1 500 7, flow 2 1000 1, flow 3 2000 2]
    let flows' : Dataset := [flow 3 2000 2, flow 1 500 7, flow 2 1000 1]
    let reference : Dataset := [flow 2 0 1, flow 3 1000 3]
    let reference' : Dataset := [flow 3 1000 3, flow 2 0 1]
    let stats : GeneratorStats := ⟨1000, 10000, 3, 200⟩
    let c : Comparison :=
      ⟨[flow 2 1000 1, flow 3 2000 2], reference.map fun f => f.delay 1000, stats⟩
    let c' : Comparison :=
      ⟨[flow 3 2000 2, flow 2 1000 1], reference'.map fun f => f.delay 1000, stats⟩
    flows.Perm flows' ∧ reference.Perm reference' ∧
      (prepare flows reference stats ⟨false, false, true⟩).outcome = .ok c ∧
      (prepare flows' reference' stats ⟨false, false, true⟩).outcome = .ok c' ∧
      ∀ rules checkComplement,
        (c.validate rules checkComplement).outcome =
          (c'.validate rules checkComplement).outcome := by
  intro flow flows flows' reference reference' stats c c'
  have hFlows : flows.Perm flows' := by decide
  have hReference : reference.Perm reference' := by decide
  have hLeft : (prepare flows reference stats ⟨false, false, true⟩).outcome = .ok c := by
    rfl
  have hRight : (prepare flows' reference' stats ⟨false, false, true⟩).outcome = .ok c' := by
    rfl
  have h := validate_reordered hFlows hReference stats ⟨false, false, true⟩
  rw [hLeft, hRight] at h
  exact ⟨hFlows, hReference, hLeft, hRight, h⟩

end Comparison

end FlowAudit
