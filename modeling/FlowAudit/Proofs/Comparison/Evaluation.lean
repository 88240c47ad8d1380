import FlowAudit.Proofs.Comparison.Outcomes
/-!
Which rules can be evaluated. A rule has a block of outcomes that does not depend on where the rule
stands; its position only shows in an error. A report is the blocks of its rules in order, followed
by the complement.
-/
namespace FlowAudit

/-- The same error for a rule that stands a number of places further back. -/
def ValidationError.shift (places : Nat) : ValidationError → ValidationError
  | duplicateMetric cause => duplicateMetric cause
  | metric rule cause => metric (rule + places) cause

/-- The first repetition of a list without members seen before. -/
theorem firstRepeated_eq_none_iff {α : Type} [DecidableEq α] {seen xs : List α} :
    firstRepeated seen xs = none ↔ xs.Nodup ∧ ∀ a ∈ xs, a ∉ seen := by
  induction xs generalizing seen with
  | nil => simp [firstRepeated]
  | cons x rest ih =>
      rw [firstRepeated]
      split
      · next hSeen => simp [hSeen]
      · next hSeen =>
          rw [ih, List.nodup_cons, List.forall_mem_cons]
          simp only [List.mem_cons, not_or, hSeen, not_false_iff, true_and]
          constructor
          · rintro ⟨hNodup, hRest⟩
            exact ⟨⟨fun hx => (hRest x hx).1 rfl, hNodup⟩, fun a ha => (hRest a ha).2⟩
          · rintro ⟨⟨hx, hNodup⟩, hRest⟩
            exact ⟨hNodup, fun a ha => ⟨fun hEq => hx (hEq ▸ ha), hRest a ha⟩⟩

/-- A rule is accepted iff no kind of metric occurs in it twice. -/
theorem Rule.checkDistinct_eq_ok_iff {rule : Rule} :
    rule.checkDistinct = .ok () ↔ rule.kinds.Nodup := by
  have hNone : firstRepeated [] rule.kinds = none ↔ rule.kinds.Nodup := by
    simp [firstRepeated_eq_none_iff]
  rw [← hNone, checkDistinct]
  cases firstRepeated [] rule.kinds <;> simp

namespace Comparison

/-- The position of a rule occurs in its errors and nowhere else. -/
theorem outcome_evaluateRule_add (c : Comparison) (index places : Nat) (rule : Rule) :
    (c.evaluateRule (index + places) rule).outcome =
      (c.evaluateRule index rule).outcome.mapError (.shift places) := by
  rw [outcome_evaluateRule, outcome_evaluateRule]
  cases rule.checkDistinct with
  | error cause => rfl
  | ok _ => cases rule.metrics.mapM (c.outcome rule) <;> rfl

/-- The outcomes of a rule, none if it is refused. -/
def block (c : Comparison) (rule : Rule) : List Outcome :=
  match (c.evaluateRule 0 rule).outcome with
  | .ok outcomes => outcomes
  | .error _ => []

/-- Whether a rule can be evaluated. -/
def Evaluates (c : Comparison) (rule : Rule) : Prop :=
  (c.evaluateRule 0 rule).outcome = .ok (c.block rule)

/-- A rule that can be evaluated has one block of outcomes; no other rule has any. -/
theorem outcome_evaluateRule_eq_ok_iff {c : Comparison} {index : Nat} {rule : Rule}
    {outcomes : List Outcome} :
    (c.evaluateRule index rule).outcome = .ok outcomes ↔
      c.Evaluates rule ∧ outcomes = c.block rule := by
  have hIndex := c.outcome_evaluateRule_add 0 index rule
  rw [Nat.zero_add] at hIndex
  rw [hIndex, mapError_eq_ok_iff, Evaluates, block]
  cases (c.evaluateRule 0 rule).outcome with
  | error e => simp
  | ok outcomes' => simp [eq_comm]

theorem evaluates_iff_exists {c : Comparison} {rule : Rule} (index : Nat) :
    c.Evaluates rule ↔ ∃ outcomes, (c.evaluateRule index rule).outcome = .ok outcomes := by
  simp only [outcome_evaluateRule_eq_ok_iff, exists_and_left, exists_eq, and_true]

/-- A rule can be evaluated iff no kind repeats and each metric can be measured. -/
theorem evaluates_iff {c : Comparison} {rule : Rule} :
    c.Evaluates rule ↔
      rule.kinds.Nodup ∧ ∀ metric ∈ rule.metrics, ∃ o, c.outcome rule metric = .ok o := by
  rw [evaluates_iff_exists 0, outcome_evaluateRule, ← Rule.checkDistinct_eq_ok_iff,
    ← exists_mapM_eq_ok_iff]
  cases rule.checkDistinct with
  | error cause => simp [bind, Except.bind]
  | ok _ => simp only [mapError_ok, ok_bind, mapError_eq_ok_iff, true_and]

theorem Evaluates.mapM_outcome {c : Comparison} {rule : Rule} (h : c.Evaluates rule) :
    rule.metrics.mapM (c.outcome rule) = .ok (c.block rule) := by
  rw [Evaluates, outcome_evaluateRule] at h
  obtain ⟨_, _, h⟩ := bind_eq_ok_iff.mp h
  exact mapError_eq_ok_iff.mp h

/-- An outcome carries the metric and the scope that it is about. -/
theorem labels_outcome {c : Comparison} {rule : Rule} {metric : Metric} {o : Outcome}
    (h : c.outcome rule metric = .ok o) :
    (o.metric, o.scope) = (metric, .ofSegment rule.segment) := by
  rw [outcome] at h
  obtain ⟨m, _, h⟩ := bind_eq_ok_iff.mp h
  cases h
  rfl

/-- A rule has one outcome for each metric, in the order of its metrics. -/
theorem labels_block {c : Comparison} {rule : Rule} (h : c.Evaluates rule) :
    (c.block rule).map (fun o => (o.metric, o.scope)) =
      rule.metrics.map fun metric => (metric, .ofSegment rule.segment) :=
  map_eq_map_of_mapM h.mapM_outcome fun _ _ => labels_outcome

theorem length_block {c : Comparison} {rule : Rule} (h : c.Evaluates rule) :
    (c.block rule).length = rule.metrics.length := by
  simpa using congrArg List.length (labels_block h)

/-- Rules have outcomes iff each of them can be evaluated on its own, and their blocks follow each
other in the order of the rules. -/
theorem outcomesOf_eq_ok_iff {c : Comparison} {rules : List Rule} {index : Nat}
    {outcomes : List Outcome} :
    c.outcomesOf (rules.zipIdx index) = .ok outcomes ↔
      (∀ rule ∈ rules, c.Evaluates rule) ∧ outcomes = rules.flatMap c.block := by
  induction rules generalizing index outcomes with
  | nil =>
      change Except.ok [] = Except.ok outcomes ↔ _
      simp [eq_comm]
  | cons rule rest ih =>
      rw [List.zipIdx_cons, outcomesOf_cons, bind_eq_ok_iff, List.forall_mem_cons,
        List.flatMap_cons]
      simp only [outcome_evaluateRule_eq_ok_iff, map_eq_ok_iff, ih]
      constructor
      · rintro ⟨_, ⟨hRule, rfl⟩, _, ⟨hRest, rfl⟩, rfl⟩
        exact ⟨⟨hRule, hRest⟩, rfl⟩
      · rintro ⟨⟨hRule, hRest⟩, rfl⟩
        exact ⟨_, ⟨hRule, rfl⟩, _, ⟨hRest, rfl⟩, rfl⟩

/-- What a report consists of: the blocks of the rules, and the complement if it is checked. -/
theorem outcome_validate_eq_ok_iff {c : Comparison} {rules : List Rule} {checkComplement : Bool}
    {report : Report} :
    (c.validate rules checkComplement).outcome = .ok report ↔
      (∀ rule ∈ rules, c.Evaluates rule) ∧
        report = rules.flatMap c.block ++
          if checkComplement then c.complementOutcomes rules else [] := by
  rw [outcome_validate_eq, bind_eq_ok_iff]
  simp only [outcomesOf_eq_ok_iff]
  cases checkComplement <;> simp [eq_comm]

end Comparison

end FlowAudit
