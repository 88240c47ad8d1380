import FlowAudit.Proofs.Comparison.Outcomes
import FlowAudit.Proofs.Merge.Conversations
/-!
What merging changes. A segment of networks never separates flows that merging puts together, and a
two-way segment never separates the directions of a conversation. So all measurements but the number
of flows are the same before and after merging.
-/
namespace FlowAudit

/-- A condition that treats alike all flows that merging puts together, or whose times it aligns. -/
structure KeepsTogether (alignTimes : Bool) (p : Flow → Bool) : Prop where
  key : p.FactorsThrough Flow.key
  conversation : alignTimes → p.FactorsThrough fun f => f.key.conversation

/-- Merging keeps the traffic of each part that holds together what it joins. -/
theorem Dataset.sameTraffic_merge {d reference m : Dataset} {alignTimes : Bool}
    (h : (d.merge reference alignTimes).outcome = .ok m) {p : Flow → Bool}
    (hp : KeepsTogether alignTimes p) : SameTraffic (m.filter p) (d.filter p) := by
  rw [outcome_merge] at h
  obtain ⟨_, _, h⟩ := bind_eq_ok_iff.mp h
  obtain ⟨byKey, hByKey, h⟩ := bind_eq_ok_iff.mp h
  cases h
  have hMerged := sameTraffic_mergeByKey (mapError_eq_ok_iff.mp hByKey) hp.key
  cases alignTimes with
  | false => exact hMerged
  | true => exact (sameTraffic_alignConversations byKey (hp.conversation rfl)).trans hMerged

/-- No segment, or networks that take both directions if times are aligned. -/
def Rule.IsSpatial (alignTimes : Bool) (rule : Rule) : Prop :=
  ∀ s ∈ rule.segment, ∃ n : SubnetSegment, s = .subnet n ∧ (alignTimes → n.twoWay)

/-- A segment for both directions does not tell a flow from its reverse. -/
theorem SubnetSegment.contains_reverse {n : SubnetSegment} (hTwoWay : n.twoWay) {f g : Flow}
    (h : f.key = g.key.reverse) : n.contains f = n.contains g := by
  rw [contains, contains, hTwoWay, h, Bool.true_and, Bool.true_and, Bool.or_comm]
  rfl

namespace Rule.IsSpatial

variable {alignTimes : Bool}

/-- The scope of a rule without time bounds holds together what merging joins. If times are aligned,
it has to be a scope for both directions. -/
theorem keepsTogether {rule : Rule} (h : rule.IsSpatial alignTimes) :
    KeepsTogether alignTimes (inScope rule.segment) := by
  rw [IsSpatial] at h
  cases hSegment : rule.segment with
  | none => exact ⟨fun _ _ _ => rfl, fun _ _ _ _ => rfl⟩
  | some s =>
      obtain ⟨n, rfl, hTwoWay⟩ := h s hSegment
      have hKey : (inScope (some (.subnet n))).FactorsThrough Flow.key := by
        intro f g hfg
        change n.contains f = n.contains g
        rw [SubnetSegment.contains, SubnetSegment.contains, hfg]
      refine ⟨hKey, fun hAlign f g hfg => ?_⟩
      rcases FlowKey.eq_or_eq_reverse_of_conversation_eq hfg with hSame | hReverse
      · exact hKey hSame
      · exact SubnetSegment.contains_reverse (hTwoWay hAlign) hReverse

/-- So does the part that no such rule covers. -/
theorem keepsTogether_uncovered {rules : List Rule} (h : ∀ rule ∈ rules, rule.IsSpatial alignTimes) :
    KeepsTogether alignTimes fun f => !coveredBy rules f := by
  have hSame : ∀ f g, (∀ rule ∈ rules, inScope rule.segment f = inScope rule.segment g) →
      (!coveredBy rules f) = !coveredBy rules g := by
    intro f g hRules
    refine congrArg not (Bool.eq_iff_iff.mpr ?_)
    rw [coveredBy_iff, coveredBy_iff]
    exact exists_congr fun rule => and_congr_right fun hRule => by rw [hRules rule hRule]
  constructor
  · exact fun f g hfg => hSame f g fun rule hRule => (h rule hRule).keepsTogether.key hfg
  · exact fun hAlign f g hfg => hSame f g fun rule hRule =>
      (h rule hRule).keepsTogether.conversation hAlign hfg

end Rule.IsSpatial

/-- Two outcomes of one metric that agree, unless flows are counted. -/
structure Outcome.Agrees (o o' : Outcome) : Prop where
  metric : o.metric = o'.metric
  scope : o.scope = o'.scope
  reference : o.reference = o'.reference
  measured : o.metric.kind ≠ .flows → o.value = o'.value ∧ o.difference = o'.difference

theorem Outcome.Agrees.refl (o : Outcome) : o.Agrees o :=
  ⟨rfl, rfl, rfl, fun _ => ⟨rfl, rfl⟩⟩

/-- Errors of one kind that name the same value, unless flows are counted. -/
structure ZeroReference.Agrees (e e' : ZeroReference) : Prop where
  kind : e.kind = e'.kind
  value : e.kind ≠ .flows → e.value = e'.value

theorem ZeroReference.Agrees.refl (e : ZeroReference) : e.Agrees e :=
  ⟨rfl, fun _ => rfl⟩

/-- Errors at the same rule and for the same reason. -/
def ValidationError.Agrees : ValidationError → ValidationError → Prop
  | metric rule cause, metric rule' cause' => rule = rule' ∧ cause.Agrees cause'
  | e, e' => e = e'

namespace Comparison

variable {c c' : Comparison} {alignTimes : Bool}

/-- The same reference, and probe flows that have the same traffic in every part that keeps together
what belongs together. -/
structure SameTraffic (alignTimes : Bool) (c c' : Comparison) : Prop where
  flows : ∀ p, KeepsTogether alignTimes p →
    Dataset.SameTraffic (c.flows.filter p) (c'.flows.filter p)
  reference : c.reference = c'.reference
  stats : c.stats = c'.stats

/-- Counts of flows are compared with the same count, which alone decides on failure. -/
theorem outcome_flows_agrees (h : c.reference = c'.reference) (rule : Rule) {metric : Metric}
    (hKind : metric.kind = .flows) :
    Corresponds ZeroReference.Agrees Outcome.Agrees (c.outcome rule metric)
      (c'.outcome rule metric) := by
  rw [outcome, outcome, h]
  simp only [hKind, Measurement.evaluate, Measurement.ofCounts, Measurement.countDifference]
  by_cases hZero : (c'.reference.restrict rule.segment).length = 0
  · simp only [hZero, if_true]
    exact ⟨rfl, fun hOther => absurd rfl hOther⟩
  · simp only [hZero, if_false]
    exact ⟨rfl, rfl, rfl, fun hOther => absurd hKind hOther⟩

namespace SameTraffic

/-- One metric of such a rule on both sides: equal values unless it counts flows, and an error for
the same reason. -/
theorem outcome_agrees (h : SameTraffic alignTimes c c') {rule : Rule}
    (hRule : rule.IsSpatial alignTimes) (metric : Metric) :
    Corresponds ZeroReference.Agrees Outcome.Agrees (c.outcome rule metric)
      (c'.outcome rule metric) := by
  by_cases hKind : metric.kind = .flows
  · exact outcome_flows_agrees h.reference rule hKind
  · have hFlows : (c.flows.restrict rule.segment).SameTraffic (c'.flows.restrict rule.segment) :=
      h.flows _ hRule.keepsTogether
    rw [outcome, outcome, h.reference, h.stats,
      Measurement.evaluate_congr hKind hFlows (.refl _)]
    exact Corresponds.refl ZeroReference.Agrees.refl Outcome.Agrees.refl _

/-- All metrics of a rule agree, and the check for repeated metrics does not look at flows at
all. -/
theorem evaluateRule_agrees (h : SameTraffic alignTimes c c') {rule : Rule}
    (hRule : rule.IsSpatial alignTimes) (index : Nat) :
    Corresponds ValidationError.Agrees (List.Forall₂ Outcome.Agrees)
      (c.evaluateRule index rule).outcome (c'.evaluateRule index rule).outcome := by
  rw [outcome_evaluateRule, outcome_evaluateRule]
  cases rule.checkDistinct with
  | error cause => exact rfl
  | ok _ =>
      have hMetrics : Corresponds ZeroReference.Agrees (List.Forall₂ Outcome.Agrees)
          (rule.metrics.mapM (c.outcome rule)) (rule.metrics.mapM (c'.outcome rule)) :=
        Corresponds.mapM fun metric _ => h.outcome_agrees hRule metric
      exact hMetrics.mapError fun _ _ hCause => ⟨rfl, hCause⟩

theorem outcomesOf_agrees (h : SameTraffic alignTimes c c') {rules : List (Rule × Nat)}
    (hRules : ∀ rule ∈ rules, rule.1.IsSpatial alignTimes) :
    Corresponds ValidationError.Agrees (List.Forall₂ Outcome.Agrees) (c.outcomesOf rules)
      (c'.outcomesOf rules) := by
  have hBlocks := Corresponds.mapM fun rule hRule => h.evaluateRule_agrees (hRules rule hRule) rule.2
  exact hBlocks.bind fun blocks blocks' hAll => List.rel_flatten hAll

theorem complementOutcomes_eq (h : SameTraffic alignTimes c c') {rules : List Rule}
    (hRules : ∀ rule ∈ rules, rule.IsSpatial alignTimes) :
    c.complementOutcomes rules = c'.complementOutcomes rules := by
  have hVolume := (h.flows _ (Rule.IsSpatial.keepsTogether_uncovered hRules)).volume
  rw [Dataset.volume_eq, Dataset.volume_eq, Prod.mk.injEq] at hVolume
  rw [complementOutcomes, complementOutcomes, uncovered, uncovered, hVolume.1, hVolume.2]

/-- Data with the same traffic in all such scopes have reports that agree. -/
theorem validate_agrees (h : SameTraffic alignTimes c c') {rules : List Rule}
    (hRules : ∀ rule ∈ rules, rule.IsSpatial alignTimes) (checkComplement : Bool) :
    Corresponds ValidationError.Agrees (List.Forall₂ Outcome.Agrees)
      (c.validate rules checkComplement).outcome (c'.validate rules checkComplement).outcome := by
  have hIndexed : ∀ rule ∈ rules.zipIdx, rule.1.IsSpatial alignTimes := fun rule hRule =>
    hRules rule.1 (List.fst_mem_of_mem_zipIdx hRule)
  rw [outcome_validate_eq, outcome_validate_eq]
  refine (h.outcomesOf_agrees hIndexed).bind fun outcomes outcomes' hOutcomes => ?_
  cases checkComplement with
  | false => exact hOutcomes
  | true =>
      rw [h.complementOutcomes_eq hRules]
      exact List.rel_append hOutcomes (List.forall₂_same.mpr fun o _ => .refl o)

end SameTraffic

/-- Preparation with and without merging, from the same tables. -/
theorem sameTraffic_prepare {flows reference : Dataset} {stats : GeneratorStats}
    {alignTimes alignTimes' alignReference : Bool} {plain merged : Comparison}
    (hPlain : (prepare flows reference stats ⟨false, alignTimes', alignReference⟩).outcome =
      .ok plain)
    (hMerged : (prepare flows reference stats ⟨true, alignTimes, alignReference⟩).outcome =
      .ok merged) : SameTraffic alignTimes plain merged := by
  rw [outcome_prepare] at hPlain hMerged
  cases hPlain
  obtain ⟨probe, hProbe, hMerged⟩ := bind_eq_ok_iff.mp hMerged
  cases hMerged
  exact ⟨fun p hp => (Dataset.sameTraffic_merge hProbe hp).symm, rfl, rfl⟩

/-- Merging the probe flows changes only how many there are. For rules without time windows, and
with two-way segments only if times are aligned, validation fails in both cases or in none; and all
outcomes, those of the complement included, agree but for the value and difference of counts of
flows. -/
theorem validate_merged_agrees {flows reference : Dataset} {stats : GeneratorStats}
    {alignTimes alignTimes' alignReference : Bool} {plain merged : Comparison}
    (hPlain : (prepare flows reference stats ⟨false, alignTimes', alignReference⟩).outcome =
      .ok plain)
    (hMerged : (prepare flows reference stats ⟨true, alignTimes, alignReference⟩).outcome =
      .ok merged)
    {rules : List Rule} (hRules : ∀ rule ∈ rules, rule.IsSpatial alignTimes)
    (checkComplement : Bool) :
    Corresponds ValidationError.Agrees (List.Forall₂ Outcome.Agrees)
      (plain.validate rules checkComplement).outcome
      (merged.validate rules checkComplement).outcome :=
  (sameTraffic_prepare hPlain hMerged).validate_agrees hRules checkComplement

/-- Three probe flows of one conversation become two with a common span; the fourth one leaks. -/
theorem validate_merged_agrees_conversation :
    let key : FlowKey := ⟨6, .ofNat .v4 0x0a000001, .ofNat .v4 0xc0000201, 1, 80⟩
    let leak : FlowKey := { key with source := .ofNat .v4 0x0b000001 }
    let flows : Dataset :=
      [⟨key, 1000, 1500, 5, 500, none⟩, ⟨key.reverse, 900, 2000, 3, 300, none⟩,
        ⟨key, 1800, 2500, 2, 200, none⟩, ⟨leak, 0, 9000, 1, 10, none⟩]
    let reference : Dataset := [⟨key, 0, 1500, 10, 1000, none⟩]
    let stats : GeneratorStats := ⟨0, 10000, 11, 1010⟩
    let plain : Comparison := ⟨flows, reference, stats⟩
    let merged : Comparison :=
      ⟨[⟨key, 900, 2500, 7, 700, some 2⟩, ⟨leak, 0, 9000, 1, 10, some 1⟩,
        ⟨key.reverse, 900, 2500, 3, 300, some 1⟩], reference, stats⟩
    let network : SubnetSegment := ⟨some ⟨.ofNat .v4 0x0a000000, 8, by decide⟩, none, true⟩
    let rules : List Rule := [⟨[.exact .packets, .exact .flows], some (.subnet network)⟩]
    (prepare flows reference stats ⟨false, true, false⟩).outcome = .ok plain ∧
      (prepare flows reference stats ⟨true, true, false⟩).outcome = .ok merged ∧
      (∀ rule ∈ rules, rule.IsSpatial true) ∧
      ∃ report report', (plain.validate rules true).outcome = .ok report ∧
        (merged.validate rules true).outcome = .ok report' ∧
        List.Forall₂ Outcome.Agrees report report' := by
  intro key leak flows reference stats plain merged network rules
  have hPlain : (prepare flows reference stats ⟨false, true, false⟩).outcome = .ok plain := by
    rfl
  have hMerged : (prepare flows reference stats ⟨true, true, false⟩).outcome = .ok merged := by
    rfl
  have hRules : ∀ rule ∈ rules, rule.IsSpatial true := by
    simp [rules, Rule.IsSpatial, network]
  have h := validate_merged_agrees hPlain hMerged hRules true
  obtain ⟨report, hReport⟩ := exists_eq_ok_of_isOk
    (show (plain.validate rules true).outcome.isOk by decide +kernel)
  obtain ⟨report', hReport'⟩ := exists_eq_ok_of_isOk
    (show (merged.validate rules true).outcome.isOk by decide +kernel)
  rw [hReport, hReport'] at h
  exact ⟨hPlain, hMerged, hRules, report, report', hReport, hReport', h⟩

end Comparison

end FlowAudit
