import FlowAudit.Comparison
import FlowAudit.Proofs.Totals
import FlowAudit.Proofs.Traversal
/-!
The complement of all rules. Marks that the rules add one after the other are, for each probe flow,
whether some rule holds it; so the complement counts each flow that no rule holds exactly once.
-/
namespace FlowAudit

/-- Whether a flow lies in the segment of some rule. -/
def coveredBy (rules : List Rule) (f : Flow) : Bool :=
  rules.any fun rule => inScope rule.segment f

theorem coveredBy_iff {rules : List Rule} {f : Flow} :
    coveredBy rules f ↔ ∃ rule ∈ rules, inScope rule.segment f :=
  List.any_eq_true

/-- A mask that is computed flow by flow selects like a filter. -/
theorem Dataset.select_map (d : Dataset) (p : Flow → Bool) : d.select (d.map p) = d.filter p := by
  induction d with
  | nil => rfl
  | cons f d ih =>
      rw [select] at ih ⊢
      rw [List.map_cons, List.zip_cons_cons, List.filterMap_cons, ih]
      cases hKeep : p f
      · simp [hKeep]
      · simp [hKeep]

namespace Comparison

/-- The probe flows that some rule holds. -/
def covered (c : Comparison) (rules : List Rule) : Dataset :=
  c.flows.filter (coveredBy rules)

/-- The probe flows that no rule holds. -/
def uncovered (c : Comparison) (rules : List Rule) : Dataset :=
  c.flows.filter fun f => !coveredBy rules f

theorem volume_covered_add_volume_uncovered (c : Comparison) (rules : List Rule) :
    (c.covered rules).volume + (c.uncovered rules).volume = c.flows.volume :=
  Dataset.volume_filter_add_volume_filter_not c.flows (coveredBy rules)

/-- Nothing leaks iff each flow that has a packet or a byte is in the scope of some rule. A flow
without both may be left over. -/
theorem volume_uncovered_eq_zero_iff {c : Comparison} {rules : List Rule} :
    (c.uncovered rules).volume = 0 ↔
      ∀ f ∈ c.flows, f.packets ≠ 0 ∨ f.bytes ≠ 0 → ∃ rule ∈ rules, inScope rule.segment f := by
  rw [Dataset.volume_eq_zero_iff]
  constructor
  · intro hZero f hf hTraffic
    by_contra hNone
    have hNot : coveredBy rules f = false := by
      rw [← Bool.not_eq_true, coveredBy_iff]
      exact hNone
    have hFlow := hZero f (List.mem_filter.mpr ⟨hf, by rw [hNot]; rfl⟩)
    rcases hTraffic with hPackets | hBytes
    · exact hPackets hFlow.1
    · exact hBytes hFlow.2
  · intro hCovered f hf
    obtain ⟨hMem, hNot⟩ := List.mem_filter.mp hf
    by_contra hTraffic
    have hSome : ∃ rule ∈ rules, inScope rule.segment f :=
      hCovered f hMem (not_and_or.mp hTraffic)
    rw [coveredBy_iff.mpr hSome] at hNot
    cases hNot

theorem mark_map (flows : List Flow) (p q : Flow → Bool) :
    mark (flows.map p) (flows.map q) = flows.map fun f => p f || q f := by
  induction flows with
  | nil => rfl
  | cons f rest ih => rw [List.map_cons, List.map_cons, mark, ih, List.map_cons]

/-- A rule that can be evaluated adds its own flows to the marks. -/
theorem outcome_evaluateRules_cons (c : Comparison) (index : Nat) (p : Flow → Bool) (rule : Rule)
    (rest : List Rule) :
    (c.evaluateRules index (c.flows.map p) (rule :: rest)).outcome = do
      let outcomes ← (c.evaluateRule index rule).outcome
      let (more, marks) ← (c.evaluateRules (index + 1)
        (c.flows.map fun f => p f || inScope rule.segment f) rest).outcome
      return (outcomes ++ more, marks) := by
  rw [evaluateRules, Traced.outcome_bind]
  simp only [Dataset.mask, mark_map, Traced.outcome_bind, Traced.outcome_pure]
  rfl

/-- After all rules, a flow is marked iff it was marked before or some rule holds it. -/
theorem marks_evaluateRules {c : Comparison} {rules : List Rule} {index : Nat} {p : Flow → Bool}
    {outcomes : List Outcome} {marks : List Bool}
    (h : (c.evaluateRules index (c.flows.map p) rules).outcome = .ok (outcomes, marks)) :
    marks = c.flows.map fun f => p f || coveredBy rules f := by
  induction rules generalizing index p outcomes with
  | nil =>
      rw [evaluateRules, Traced.outcome_pure] at h
      cases h
      simp [coveredBy]
  | cons rule rest ih =>
      rw [outcome_evaluateRules_cons] at h
      obtain ⟨_, _, h⟩ := bind_eq_ok_iff.mp h
      obtain ⟨⟨more, rest'⟩, hRest, h⟩ := bind_eq_ok_iff.mp h
      cases h
      rw [ih hRest]
      simp only [coveredBy, List.any_cons, Bool.or_assoc]

/-- The complement check only appends two outcomes to those of the rules. -/
theorem outcome_validate (c : Comparison) (rules : List Rule) (checkComplement : Bool) :
    (c.validate rules checkComplement).outcome = do
      let (outcomes, _) ← (c.evaluateRules 0 (List.replicate c.flows.length false) rules).outcome
      return if checkComplement then
          outcomes ++ [complementOutcome .packets (c.uncovered rules).totalPackets,
            complementOutcome .bytes (c.uncovered rules).totalBytes]
        else outcomes := by
  have hUnmarked : List.replicate c.flows.length false = c.flows.map fun _ => false :=
    List.map_const'.symm
  rw [validate, Traced.outcome_bind, hUnmarked]
  cases hRun : (c.evaluateRules 0 (c.flows.map fun _ => false) rules).outcome with
  | error e => rfl
  | ok result =>
      obtain ⟨outcomes, marks⟩ := result
      have hMarks : marks = c.flows.map (coveredBy rules) := by
        rw [marks_evaluateRules hRun]
        simp only [Bool.false_or]
      have hLeaked : c.flows.select (marks.map not) = c.uncovered rules := by
        rw [hMarks, List.map_map, Dataset.select_map]
        rfl
      cases checkComplement with
      | false => rfl
      | true => simp [hLeaked]

/-- One leaked packet or byte is enough to fail. -/
theorem passes_complementOutcome (kind : MetricKind) (total : Nat) :
    (complementOutcome kind total).passes ↔ total = 0 := by
  have hZero : (0.0 : Float) ≤ 0.0 := by decide
  have hOne : ¬(1.0 : Float) ≤ 0.0 := by decide
  by_cases h : total = 0
  · simp [Outcome.passes, complementOutcome, Metric.exact, h, hZero]
  · simp [Outcome.passes, complementOutcome, Metric.exact, h, hOne]

/-- The outcomes of the rules are followed by the exact totals of the flows that no rule holds.
Both pass iff every flow with traffic is held by a rule. -/
theorem complement_of_validate {c : Comparison} {rules : List Rule} {report : Report}
    (h : (c.validate rules true).outcome = .ok report) :
    ∃ (outcomes : Report) (packets bytes : Outcome),
      (c.validate rules false).outcome = .ok outcomes ∧ report = outcomes ++ [packets, bytes] ∧
      (packets.metric = .exact .packets ∧ packets.scope = .complement ∧
        packets.value = Float.ofNat (c.uncovered rules).totalPackets) ∧
      (bytes.metric = .exact .bytes ∧ bytes.scope = .complement ∧
        bytes.value = Float.ofNat (c.uncovered rules).totalBytes) ∧
      ((packets.passes ∧ bytes.passes) ↔
        ∀ f ∈ c.flows, f.packets ≠ 0 ∨ f.bytes ≠ 0 → ∃ rule ∈ rules, inScope rule.segment f) ∧
      (c.covered rules).totalPackets + (c.uncovered rules).totalPackets = c.flows.totalPackets ∧
      (c.covered rules).totalBytes + (c.uncovered rules).totalBytes = c.flows.totalBytes := by
  rw [outcome_validate] at h
  obtain ⟨⟨outcomes, marks⟩, hRun, hReport⟩ := bind_eq_ok_iff.mp h
  cases hReport
  have hPlain : (c.validate rules false).outcome = .ok outcomes := by
    rw [outcome_validate, hRun]
    rfl
  have hPasses : (complementOutcome .packets (c.uncovered rules).totalPackets).passes ∧
      (complementOutcome .bytes (c.uncovered rules).totalBytes).passes ↔
        (c.uncovered rules).volume = 0 := by
    rw [passes_complementOutcome, passes_complementOutcome, Dataset.volume_eq, Prod.mk_eq_zero]
  have hTotals := volume_covered_add_volume_uncovered c rules
  rw [Dataset.volume_eq, Dataset.volume_eq, Dataset.volume_eq, Prod.mk_add_mk,
    Prod.mk.injEq] at hTotals
  exact ⟨outcomes, _, _, hPlain, rfl, ⟨rfl, rfl, rfl⟩, ⟨rfl, rfl, rfl⟩,
    hPasses.trans volume_uncovered_eq_zero_iff, hTotals⟩

/-- Two overlapping rules. The third flow leaks, and the last one has no traffic to leak. -/
theorem complement_overlapping_rules :
    let flow (source : Nat) (stop packets bytes : UInt64) : Flow :=
      ⟨⟨6, .ofNat .v4 source, .ofNat .v4 0xc0000201, 1, 80⟩, 0, stop, packets, bytes, none⟩
    let network : SubnetSegment := ⟨some ⟨.ofNat .v4 0x0a000000, 8, by decide⟩, none, true⟩
    let window : TimeSegment := ⟨none, some 1000, by simp⟩
    let rules : List Rule :=
      [⟨[.exact .packets], some (.subnet network)⟩, ⟨[], some (.time window)⟩]
    let c : Comparison :=
      ⟨[flow 0x0a000001 1000 5 500, flow 0x0a000002 9000 7 700, flow 0x0b000001 9000 3 300,
        flow 0x0b000002 9000 0 0], [flow 0x0a000001 1000 6 600], .zero⟩
    ∃ report outcomes packets bytes, (c.validate rules true).outcome = .ok report ∧
      (c.validate rules false).outcome = .ok outcomes ∧ report = outcomes ++ [packets, bytes] ∧
      packets.value = Float.ofNat 3 ∧ bytes.value = Float.ofNat 300 ∧
      ¬(packets.passes ∧ bytes.passes) ∧
      (c.covered rules).totalPackets + 3 = c.flows.totalPackets ∧
      (c.covered rules).totalBytes + 300 = c.flows.totalBytes := by
  intro flow network window rules c
  obtain ⟨report, hReport⟩ := exists_eq_ok_of_isOk
    (show (c.validate rules true).outcome.isOk by decide +kernel)
  have hPacketSum : (c.uncovered rules).totalPackets = 3 := by decide
  have hByteSum : (c.uncovered rules).totalBytes = 300 := by decide
  have hLeak : ¬∀ f ∈ c.flows, f.packets ≠ 0 ∨ f.bytes ≠ 0 →
      ∃ rule ∈ rules, inScope rule.segment f := by decide
  obtain ⟨outcomes, packets, bytes, hPlain, hEq, ⟨_, _, hPackets⟩, ⟨_, _, hBytes⟩, hPasses,
    hTotals⟩ := complement_of_validate hReport
  rw [hPacketSum] at hPackets hTotals
  rw [hByteSum] at hBytes hTotals
  exact ⟨report, outcomes, packets, bytes, hReport, hPlain, hEq, hPackets, hBytes,
    fun h => hLeak (hPasses.mp h), hTotals⟩

end Comparison

end FlowAudit
