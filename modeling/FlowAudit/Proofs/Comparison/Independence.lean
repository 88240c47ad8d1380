import FlowAudit.Proofs.Comparison.Evaluation
/-!
Rules are evaluated independently of each other. Lists of rules can be joined, permuted, repeated
and split, and the complement depends on their segments alone.
-/
namespace FlowAudit

/-- A rule that evaluates some of the metrics of another one, in any order, on the same segment. -/
structure Rule.PartOf (part rule : Rule) : Prop where
  segment : part.segment = rule.segment
  metrics : part.metrics.Subperm rule.metrics

/-- Two lists of rules that look at the same segments, however often. -/
def SameSegments (rules rules' : List Rule) : Prop :=
  ∀ segment, segment ∈ rules.map Rule.segment ↔ segment ∈ rules'.map Rule.segment

theorem SameSegments.of_perm {rules rules' : List Rule} (h : rules.Perm rules') :
    SameSegments rules rules' :=
  fun _ => (h.map Rule.segment).mem_iff

/-- What is covered depends on the set of segments only. -/
theorem SameSegments.coveredBy_eq {rules rules' : List Rule} (h : SameSegments rules rules')
    (f : Flow) : coveredBy rules f = coveredBy rules' f := by
  have hSegments : ∀ rules : List Rule,
      coveredBy rules f = (rules.map Rule.segment).any fun segment => inScope segment f := by
    intro rules
    rw [coveredBy, List.any_map]
    rfl
  rw [hSegments, hSegments, Bool.eq_iff_iff, List.any_eq_true, List.any_eq_true]
  exact exists_congr fun segment => and_congr_left fun _ => h segment

namespace Comparison

/-- Rules in front have no influence on those that follow, except that their errors come first. -/
theorem outcomesOf_append (c : Comparison) (rules more : List (Rule × Nat)) :
    c.outcomesOf (rules ++ more) = c.outcomesOf rules >>= fun outcomes =>
      c.outcomesOf more >>= fun further => .ok (outcomes ++ further) := by
  simp only [outcomesOf, List.mapM_append]
  cases rules.mapM fun rule => (c.evaluateRule rule.2 rule.1).outcome with
  | error e => rfl
  | ok blocks =>
      cases more.mapM fun rule => (c.evaluateRule rule.2 rule.1).outcome with
      | error e => rfl
      | ok blocks' => exact congrArg Except.ok List.flatten_append

/-- Later positions move the errors and leave the outcomes as they are. -/
theorem outcomesOf_zipIdx_add (c : Comparison) (rules : List Rule) (index places : Nat) :
    c.outcomesOf (rules.zipIdx (index + places)) =
      (c.outcomesOf (rules.zipIdx index)).mapError (.shift places) := by
  induction rules generalizing index with
  | nil => rfl
  | cons rule rest ih =>
      rw [List.zipIdx_cons, List.zipIdx_cons, outcomesOf_cons, outcomesOf_cons,
        outcome_evaluateRule_add, Nat.add_right_comm, ih]
      cases (c.evaluateRule index rule).outcome with
      | error e => rfl
      | ok outcomes => cases c.outcomesOf (rest.zipIdx (index + 1)) <;> rfl

/-- What a metric of a rule measures depends on the segment of the rule only. -/
theorem outcome_congr (c : Comparison) {rule rule' : Rule} (h : rule.segment = rule'.segment) :
    c.outcome rule = c.outcome rule' := by
  funext metric
  rw [outcome, outcome, h]

/-- A part of a rule has fewer metrics, and none that the rule does not have. -/
theorem Evaluates.of_partOf {c : Comparison} {part rule : Rule} (h : c.Evaluates rule)
    (hPart : part.PartOf rule) : c.Evaluates part := by
  rw [evaluates_iff] at h ⊢
  rw [c.outcome_congr hPart.segment]
  obtain ⟨kept, hPerm, hKept⟩ := hPart.metrics
  have hNodup : part.kinds.Nodup :=
    (hPerm.map Metric.kind).nodup_iff.mp (h.1.sublist (hKept.map Metric.kind))
  exact ⟨hNodup, fun metric hMetric => h.2 metric (hPart.metrics.subset hMetric)⟩

theorem complementOutcomes_congr (c : Comparison) {rules rules' : List Rule}
    (h : SameSegments rules rules') : c.complementOutcomes rules = c.complementOutcomes rules' := by
  have hUncovered : c.uncovered rules = c.uncovered rules' := by
    simp only [uncovered, h.coveredBy_eq]
  rw [complementOutcomes, complementOutcomes, hUncovered]

/-- The complement is checked after all rules. -/
theorem outcome_validate_true (c : Comparison) (rules : List Rule) :
    (c.validate rules true).outcome = (c.validate rules false).outcome >>= fun outcomes =>
      .ok (outcomes ++ c.complementOutcomes rules) := by
  rw [outcome_validate_eq, outcome_validate_eq]
  cases c.outcomesOf rules.zipIdx <;> rfl

/-- Joined lists of rules are checked one after the other. Errors of the second list name positions
in the joined one. -/
theorem outcome_validate_append (c : Comparison) (rules more : List Rule) :
    (c.validate (rules ++ more) false).outcome = do
      let outcomes ← (c.validate rules false).outcome
      let further ← (c.validate more false).outcome.mapError (.shift rules.length)
      return outcomes ++ further := by
  simp only [outcome_validate_eq, Bool.false_eq_true, if_false, bind_ok]
  rw [List.zipIdx_append, outcomesOf_append, outcomesOf_zipIdx_add]
  rfl

/-- Rules are evaluated independently of each other. Lists of rules can be joined, and an error in
the second list only counts its position further. Each rule has its block of outcomes, which moves
with the rule when rules are permuted. The outcomes of the complement depend on the segments of the
rules only. -/
theorem validate_independent (c : Comparison) :
    (∀ rules more : List Rule, (c.validate (rules ++ more) false).outcome = do
      let outcomes ← (c.validate rules false).outcome
      let further ← (c.validate more false).outcome.mapError (.shift rules.length)
      return outcomes ++ further) ∧
    (∀ (rules : List Rule) (checkComplement : Bool) (report : Report),
      (c.validate rules checkComplement).outcome = .ok report →
      ∃ (block : Rule → Report) (complement : Report),
        (∀ rule ∈ rules, (c.validate [rule] false).outcome = .ok (block rule)) ∧
        complement.length = (if checkComplement then 2 else 0) ∧
        report = rules.flatMap block ++ complement ∧
        ∀ rules' : List Rule, rules'.Perm rules →
          (c.validate rules' checkComplement).outcome =
            .ok (rules'.flatMap block ++ complement)) ∧
    (∀ rules : List Rule, ∃ packets bytes : Outcome,
      packets.scope = .complement ∧ bytes.scope = .complement ∧
      ∀ rules' : List Rule, SameSegments rules rules' →
        (c.validate rules' true).outcome =
          (c.validate rules' false).outcome >>= fun outcomes =>
            .ok (outcomes ++ [packets, bytes])) ∧
    (∀ (rules : List Rule) (report : Report), (c.validate rules false).outcome = .ok report →
      ∀ parts : List Rule, (∀ part ∈ parts, ∃ rule ∈ rules, part.PartOf rule) →
        ∃ report', (c.validate parts false).outcome = .ok report') := by
  refine ⟨c.outcome_validate_append, fun rules checkComplement report h => ?_, fun rules => ?_,
    fun rules report h parts hParts => ?_⟩
  · obtain ⟨hRules, rfl⟩ := outcome_validate_eq_ok_iff.mp h
    refine ⟨c.block, _, fun rule hRule => ?_, ?_, rfl, fun rules' hPerm => ?_⟩
    · rw [outcome_validate_eq_ok_iff]
      simpa using hRules rule hRule
    · cases checkComplement <;> rfl
    · rw [outcome_validate_eq_ok_iff, c.complementOutcomes_congr (.of_perm hPerm)]
      exact ⟨fun rule hRule => hRules rule (hPerm.mem_iff.mp hRule), rfl⟩
  · refine ⟨complementOutcome .packets (c.uncovered rules).totalPackets,
      complementOutcome .bytes (c.uncovered rules).totalBytes, rfl, rfl, fun rules' hSame => ?_⟩
    rw [outcome_validate_true, ← c.complementOutcomes_congr hSame]
    rfl
  · obtain ⟨hRules, _⟩ := outcome_validate_eq_ok_iff.mp h
    refine ⟨_, outcome_validate_eq_ok_iff.mpr ⟨fun part hPart => ?_, rfl⟩⟩
    obtain ⟨rule, hRule, hPartOf⟩ := hParts part hPart
    exact (hRules rule hRule).of_partOf hPartOf

/-- A rule on all data and one on a network overlap. A third one has no reference, so it fails at
the place where it stands. -/
theorem validate_independent_overlapping_rules :
    let flow (source : Nat) (packets bytes : UInt64) : Flow :=
      ⟨⟨6, .ofNat .v4 source, .ofNat .v4 0xc0000201, 1, 80⟩, 0, 1000, packets, bytes, none⟩
    let network (address : Nat) : Segment :=
      .subnet ⟨some ⟨.ofNat .v4 address, 8, by change 8 ≤ 32; decide⟩, none, true⟩
    let all : Rule := ⟨[.exact .packets, .exact .flows], none⟩
    let ten : Rule := ⟨[.exact .bytes, .exact .packets], some (network 0x0a000000)⟩
    let empty : Rule := ⟨[.exact .flows], some (network 0x0c000000)⟩
    let c : Comparison :=
      ⟨[flow 0x0a000001 5 500, flow 0x0b000001 3 300], [flow 0x0a000001 6 600], .zero⟩
    (c.validate ([all, ten] ++ [empty]) false).outcome =
        .error (.metric 2 ⟨.flows, Float.ofNat 0⟩) ∧
      (∃ (block : Rule → Report) (complement : Report),
        (c.validate [all] false).outcome = .ok (block all) ∧
        (c.validate [ten] false).outcome = .ok (block ten) ∧ complement.length = 2 ∧
        (c.validate [all, ten] true).outcome = .ok (block all ++ block ten ++ complement) ∧
        (c.validate [ten, all] true).outcome = .ok (block ten ++ block all ++ complement)) ∧
      (∃ packets bytes : Outcome,
        (c.validate [ten] true).outcome = (c.validate [ten] false).outcome >>=
          (fun outcomes => .ok (outcomes ++ [packets, bytes])) ∧
        (c.validate [ten, ten] true).outcome = (c.validate [ten, ten] false).outcome >>=
          fun outcomes => .ok (outcomes ++ [packets, bytes])) ∧
      ∃ report, (c.validate [⟨[.exact .packets], ten.segment⟩, all, ten] false).outcome =
        .ok report := by
  intro flow network all ten empty c
  obtain ⟨report, hReport⟩ := exists_eq_ok_of_isOk
    (show (c.validate [all, ten] true).outcome.isOk by decide +kernel)
  obtain ⟨plain, hPlain⟩ := exists_eq_ok_of_isOk
    (show (c.validate [all, ten] false).outcome.isOk by decide +kernel)
  obtain ⟨hAppend, hPermuted, hComplement, hParts⟩ := c.validate_independent
  refine ⟨?_, ?_, ?_, ?_⟩
  · have hFlows : c.flows.restrict empty.segment = [] := by decide +kernel
    have hReference : c.reference.restrict empty.segment = [] := by decide +kernel
    have hMetric : c.outcome empty (.exact .flows) = .error ⟨.flows, Float.ofNat 0⟩ := by
      rw [outcome, hFlows, hReference]
      rfl
    have hEmpty : (c.validate [empty] false).outcome =
        .error (.metric 0 ⟨.flows, Float.ofNat 0⟩) := by
      rw [outcome_validate_eq, List.zipIdx_cons, outcomesOf_cons, outcome_evaluateRule,
        List.mapM_cons, hMetric]
      rfl
    rw [hAppend, hPlain, hEmpty]
    rfl
  · obtain ⟨block, complement, hBlocks, hLength, rfl, hOrder⟩ :=
      hPermuted [all, ten] true report hReport
    refine ⟨block, complement, hBlocks all (by simp), hBlocks ten (by simp), hLength, ?_, ?_⟩
    · simpa using hOrder [all, ten] (List.Perm.refl _)
    · simpa using hOrder [ten, all] (List.Perm.swap all ten [])
  · obtain ⟨packets, bytes, _, _, hSame⟩ := hComplement [ten]
    exact ⟨packets, bytes, hSame [ten] fun _ => Iff.rfl,
      hSame [ten, ten] fun segment => by simp⟩
  · refine hParts [all, ten] plain hPlain _ fun part hPart => ?_
    have hTen : Rule.PartOf ⟨[.exact .packets], ten.segment⟩ ten :=
      ⟨rfl, List.singleton_subperm_iff.mpr (by simp [ten])⟩
    have hSelf (rule : Rule) : rule.PartOf rule := ⟨rfl, List.Subperm.refl _⟩
    rcases List.mem_cons.mp hPart with rfl | hPart
    · exact ⟨ten, by simp, hTen⟩
    · exact ⟨part, hPart, hSelf part⟩

end Comparison

end FlowAudit
