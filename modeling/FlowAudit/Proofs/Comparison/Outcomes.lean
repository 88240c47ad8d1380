import FlowAudit.Proofs.Comparison.Complement
/-!
What preparation and validation produce, without their messages. Validation is a traversal of the
rules, each with its position; the marks of covered flows decide the complement only.
-/
namespace FlowAudit

/-- Merging without its messages: the reference is checked before the first flow is added. -/
theorem Dataset.outcome_merge (d reference : Dataset) (alignTimes : Bool) :
    (d.merge reference alignTimes).outcome = (do
      reference.checkUniqueKeys
      let merged ← d.mergeByKey.mapError MergeError.counterOverflow
      return if alignTimes then merged.alignConversations else merged) := by
  rw [merge]
  simp only [Traced.outcome_bind, Traced.outcome_lift, Traced.outcome_report,
    Traced.outcome_pure, ok_bind]
  rfl

/-- Except for the number of flows, a measurement looks at totals and time bounds only. -/
theorem Measurement.evaluate_congr {kind : MetricKind} {flows flows' reference reference' : Dataset}
    (hKind : kind ≠ .flows) (hFlows : flows.SameTraffic flows')
    (hReference : reference.SameTraffic reference') (stats : GeneratorStats) :
    evaluate kind flows reference stats = evaluate kind flows' reference' stats := by
  have hProbe := hFlows.volume
  have hExpected := hReference.volume
  rw [Dataset.volume_eq, Dataset.volume_eq, Prod.mk.injEq] at hProbe hExpected
  have hDuration : flows.duration = flows'.duration := by
    rw [Dataset.duration, hFlows.timeBounds, Dataset.duration]
  cases kind with
  | packets => simp only [evaluate, hProbe.1, hExpected.1]
  | bytes => simp only [evaluate, hProbe.2, hExpected.2]
  | flows => exact absurd rfl hKind
  | packetRate => simp only [evaluate, hProbe.1, hDuration]
  | byteRate => simp only [evaluate, hProbe.2, hDuration]
  | duration => simp only [evaluate, hDuration]

namespace Comparison

/-- Both sides with their times aligned, if that is wished. -/
def alignedTables (flows reference : Dataset) (stats : GeneratorStats) (options : PrepareOptions) :
    Dataset × Dataset :=
  if options.alignReference then alignTimes flows reference stats.startTime else (flows, reference)

/-- Preparation without its messages: times are aligned first, and only the probe flows are
merged. -/
theorem outcome_prepare (flows reference : Dataset) (stats : GeneratorStats)
    (options : PrepareOptions) :
    (prepare flows reference stats options).outcome =
      let tables := alignedTables flows reference stats options
      if options.merge then
        (tables.1.merge tables.2 options.alignConversations).outcome >>= fun merged =>
          .ok ⟨merged, tables.2, stats⟩
      else .ok ⟨tables.1, tables.2, stats⟩ := by
  rw [prepare, alignedTables]
  generalize (if options.alignReference then _ else _ : Dataset × Dataset) = tables
  cases options.merge with
  | false => rfl
  | true =>
      simp only [if_true, Traced.outcome_bind]
      rfl

/-- Preparation passes the statistics of the generator on. -/
theorem stats_of_prepare {flows reference : Dataset} {stats : GeneratorStats}
    {options : PrepareOptions} {c : Comparison}
    (h : (prepare flows reference stats options).outcome = .ok c) : c.stats = stats := by
  rw [outcome_prepare] at h
  cases hMerge : options.merge with
  | false =>
      simp only [hMerge, Bool.false_eq_true, if_false] at h
      cases h
      rfl
  | true =>
      simp only [hMerge, if_true] at h
      obtain ⟨_, _, h⟩ := bind_eq_ok_iff.mp h
      cases h
      rfl

/-- A rule without its messages: repeated metrics are refused before anything is measured. -/
theorem outcome_evaluateRule (c : Comparison) (index : Nat) (rule : Rule) :
    (c.evaluateRule index rule).outcome =
      (rule.checkDistinct.mapError ValidationError.duplicateMetric >>= fun _ =>
        (rule.metrics.mapM (c.outcome rule)).mapError (ValidationError.metric index)) := by
  rw [evaluateRule]
  simp only [Traced.outcome_bind, Traced.outcome_lift, Traced.outcome_report, ok_bind,
    Traced.outcome_ofExcept]

/-- Data on which all metrics of a rule come out the same. -/
theorem outcome_evaluateRule_congr {c c' : Comparison} {rule : Rule}
    (h : c.outcome rule = c'.outcome rule) (index : Nat) :
    (c.evaluateRule index rule).outcome = (c'.evaluateRule index rule).outcome := by
  rw [outcome_evaluateRule, outcome_evaluateRule, h]

/-- The outcomes of rules with their positions. -/
def outcomesOf (c : Comparison) (rules : List (Rule × Nat)) :
    Except ValidationError (List Outcome) := do
  let blocks ← rules.mapM fun rule => (c.evaluateRule rule.2 rule.1).outcome
  return blocks.flatten

/-- The two outcomes of the complement check. -/
def complementOutcomes (c : Comparison) (rules : List Rule) : List Outcome :=
  [complementOutcome .packets (c.uncovered rules).totalPackets,
    complementOutcome .bytes (c.uncovered rules).totalBytes]

/-- Data on which the metrics of all rules come out the same have the same outcomes. -/
theorem outcomesOf_congr {c c' : Comparison} {rules : List (Rule × Nat)}
    (h : ∀ rule ∈ rules, c.outcome rule.1 = c'.outcome rule.1) :
    c.outcomesOf rules = c'.outcomesOf rules := by
  rw [outcomesOf, outcomesOf, mapM_congr fun rule hRule =>
    outcome_evaluateRule_congr (h rule hRule) rule.2]

theorem outcomesOf_cons (c : Comparison) (rule : Rule × Nat) (rest : List (Rule × Nat)) :
    c.outcomesOf (rule :: rest) =
      (c.evaluateRule rule.2 rule.1).outcome >>= fun outcomes =>
        (outcomes ++ ·) <$> c.outcomesOf rest := by
  rw [outcomesOf, outcomesOf, List.mapM_cons]
  cases (c.evaluateRule rule.2 rule.1).outcome with
  | error e => rfl
  | ok outcomes => cases rest.mapM fun rule => (c.evaluateRule rule.2 rule.1).outcome <;> rfl

/-- Marks have no influence on the outcomes of rules. -/
theorem map_fst_evaluateRules (c : Comparison) (index : Nat) (marks : List Bool)
    (rules : List Rule) :
    Prod.fst <$> (c.evaluateRules index marks rules).outcome =
      c.outcomesOf (rules.zipIdx index) := by
  induction rules generalizing index marks with
  | nil => rfl
  | cons rule rest ih =>
      rw [List.zipIdx_cons, outcomesOf_cons, evaluateRules, Traced.outcome_bind,
        ← ih (index + 1) (mark marks (c.flows.mask rule.segment))]
      cases (c.evaluateRule index rule).outcome with
      | error e => rfl
      | ok outcomes =>
          simp only [ok_bind, Traced.outcome_bind, Traced.outcome_pure]
          cases (c.evaluateRules (index + 1) (mark marks (c.flows.mask rule.segment))
              rest).outcome <;> rfl

/-- Validation is a traversal of the rules in order, and then the complement. -/
theorem outcome_validate_eq (c : Comparison) (rules : List Rule) (checkComplement : Bool) :
    (c.validate rules checkComplement).outcome =
      c.outcomesOf rules.zipIdx >>= fun outcomes =>
        .ok (if checkComplement then outcomes ++ c.complementOutcomes rules else outcomes) := by
  rw [outcome_validate, ← map_fst_evaluateRules c 0 (List.replicate c.flows.length false)]
  cases (c.evaluateRules 0 (List.replicate c.flows.length false) rules).outcome with
  | error e => rfl
  | ok result => rfl

end Comparison

end FlowAudit
