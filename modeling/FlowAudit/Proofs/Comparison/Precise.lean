import FlowAudit.Proofs.Comparison.Evaluation
import FlowAudit.Proofs.Float.Magnitude
/-!
Exactness of the counters. A counter that tolerates no difference passes iff the exact numbers on
both sides are equal, however large they are, because their distance is taken before anything is
rounded. So the precise rules decide equality of packets, bytes and flows on each of their parts.
-/
namespace FlowAudit

/-- The exact counter that a kind compares, if it compares one. -/
def MetricKind.counter? : MetricKind → Option (Dataset → Nat)
  | packets => some Dataset.totalPackets
  | bytes => some Dataset.totalBytes
  | flows => some List.length
  | packetRate | byteRate | duration => none

/-- A table whose counters all fit 128 bits. -/
structure Dataset.FitsAccumulator (d : Dataset) : Prop where
  length_lt : d.length < 2 ^ 128
  totalPackets_lt : d.totalPackets < 2 ^ 128
  totalBytes_lt : d.totalBytes < 2 ^ 128

namespace Dataset

/-- A word is the most that one flow adds to a counter. -/
theorem volume_le (d : Dataset) :
    d.volume ≤ (d.length * (2 ^ 64 - 1), d.length * (2 ^ 64 - 1)) := by
  induction d with
  | nil => exact le_rfl
  | cons f d ih =>
      have hFlow : f.volume ≤ (2 ^ 64 - 1, 2 ^ 64 - 1) :=
        ⟨Nat.le_pred_of_lt f.packets.toNat_lt, Nat.le_pred_of_lt f.bytes.toNat_lt⟩
      rw [volume_cons, List.length_cons, Nat.succ_mul, Nat.add_comm, ← Prod.mk_add_mk]
      exact add_le_add hFlow ih

/-- A table of at most `2 ^ 64` flows fits. -/
theorem FitsAccumulator.of_length {d : Dataset} (h : d.length ≤ 2 ^ 64) : d.FitsAccumulator := by
  have hVolume := d.volume_le
  rw [volume_eq, Prod.mk_le_mk] at hVolume
  exact ⟨by omega, by omega, by omega⟩

theorem FitsAccumulator.filter {d : Dataset} (h : d.FitsAccumulator) (p : Flow → Bool) :
    FitsAccumulator (d.filter p) := by
  have hPart : (List.filter p d).Sublist d := List.filter_sublist
  have hTotals := totals_le_of_sublist hPart
  exact ⟨hPart.length_le.trans_lt h.length_lt, hTotals.1.trans_lt h.totalPackets_lt,
    hTotals.2.trans_lt h.totalBytes_lt⟩

/-- The sums of such a table fit the accumulator, whichever counter is added up. -/
theorem FitsAccumulator.counter_lt {d : Dataset} (h : d.FitsAccumulator) {kind : MetricKind}
    {counter : Dataset → Nat} (hCounter : kind.counter? = some counter) : counter d < 2 ^ 128 := by
  cases kind <;> cases hCounter
  · exact h.totalPackets_lt
  · exact h.totalBytes_lt
  · exact h.length_lt

end Dataset

namespace Measurement

theorem evaluate_of_counter {kind : MetricKind} {counter : Dataset → Nat}
    (h : kind.counter? = some counter) (flows reference : Dataset) (stats : GeneratorStats) :
    evaluate kind flows reference stats = ofCounts kind (counter flows) (counter reference) := by
  cases kind <;> cases h <;> rfl

/-- The quotient of two whole numbers rounds to zero iff the first one is zero. -/
theorem ofNat_div_le_zero_iff {n d : Nat} (hn : n < 2 ^ 128) (hd : d < 2 ^ 128) (hPos : 0 < d) :
    Float.ofNat n / Float.ofNat d ≤ 0.0 ↔ n = 0 := by
  have hDivisor : HasMagnitude 1 131 (Float.ofNat d) := .ofNat 128 hPos hd (by decide)
  rcases Nat.eq_zero_or_pos n with rfl | hn'
  · have hQuotient : Float.ofNat 0 / Float.ofNat d = 0.0 := hDivisor.zero_div
    rw [hQuotient]
    exact iff_of_true (by decide) rfl
  · have hDividend : HasMagnitude 1 131 (Float.ofNat n) := .ofNat 128 hn' hn (by decide)
    exact iff_of_false (hDividend.div hDivisor (by decide) (by decide)).not_le_zero hn'.ne'

/-- The relative difference of two counters is zero iff they are equal: their exact difference is
divided, and no quotient in this range is rounded to zero. -/
theorem difference_le_zero_iff {kind : MetricKind} {value reference : Nat} {m : Measurement}
    (hValue : value < 2 ^ 128) (hReference : reference < 2 ^ 128)
    (h : ofCounts kind value reference = .ok m) : m.difference ≤ 0.0 ↔ value = reference := by
  rw [ofCounts, countDifference] at h
  split at h
  · cases h
  · next hNonzero =>
      cases h
      exact (ofNat_div_le_zero_iff (by omega) hReference (Nat.pos_of_ne_zero hNonzero)).trans
        (by omega)

end Measurement

/-- The parts of the data that the precise rules look at, with their scopes: everything, or for each
network the flows with an end in it. -/
def preciseParts (networks : List Network) : List (Scope × (Flow → Bool)) :=
  if networks.isEmpty then [(.whole, fun _ => true)]
  else networks.map fun n => (.segment (.subnet ⟨some n, none, true⟩),
    fun f => n.contains f.key.source || n.contains f.key.destination)

/-- A network alone at one end of a two-way segment may stand at either end. -/
theorem inScope_network (n : Network) (f : Flow) :
    inScope (some (.subnet ⟨some n, none, true⟩)) f =
      (n.contains f.key.source || n.contains f.key.destination) := by
  simp [inScope, Segment.contains, SubnetSegment.contains, SubnetSegment.matchesDirection,
    SubnetSegment.admits]

/-- The parts of the precise check are the scopes of its rules. -/
theorem preciseParts_eq (networks : List Network) :
    preciseParts networks =
      (Rule.precise networks).map fun rule => (.ofSegment rule.segment, inScope rule.segment) := by
  rw [preciseParts, Rule.precise]
  split
  · rfl
  · rw [List.map_map]
    refine List.map_congr_left fun n _ => Prod.ext rfl (funext fun f => ?_)
    exact (inScope_network n f).symm

theorem metrics_precise {networks : List Network} {rule : Rule} (h : rule ∈ Rule.precise networks) :
    rule.metrics = MetricKind.all.map .exact := by
  rw [Rule.precise] at h
  split at h
  · cases List.mem_singleton.mp h
    rfl
  · obtain ⟨n, _, rfl⟩ := List.mem_map.mp h
    rfl

namespace Comparison

/-- Outcomes of all kinds on one part of the data, where the counters pass iff they are equal on
both sides. -/
structure ExactBlock (c : Comparison) (part : Scope × (Flow → Bool)) (block : List Outcome) :
    Prop where
  outcomes : block.map (fun o => (o.metric, o.scope)) =
    MetricKind.all.map fun kind => (.exact kind, part.1)
  exact : ∀ o ∈ block, ∀ counter, o.metric.kind.counter? = some counter →
    (o.passes ↔ counter (c.flows.filter part.2) = counter (c.reference.filter part.2))

/-- An exact metric passes iff both exact sums are equal. -/
theorem passes_iff_of_counter {c : Comparison} {rule : Rule} {kind : MetricKind}
    {counter : Dataset → Nat} {o : Outcome} (hFlows : c.flows.FitsAccumulator)
    (hReference : c.reference.FitsAccumulator) (hCounter : kind.counter? = some counter)
    (h : c.outcome rule (.exact kind) = .ok o) :
    o.passes ↔ counter (c.flows.restrict rule.segment) =
      counter (c.reference.restrict rule.segment) := by
  rw [outcome, Metric.exact, Measurement.evaluate_of_counter hCounter] at h
  obtain ⟨m, hMeasured, hOutcome⟩ := bind_eq_ok_iff.mp h
  cases hOutcome
  rw [Outcome.passes, decide_eq_true_iff]
  exact Measurement.difference_le_zero_iff ((hFlows.filter _).counter_lt hCounter)
    ((hReference.filter _).counter_lt hCounter) hMeasured

/-- The block of an exact rule says of each metric whether probe and reference agree in it. -/
theorem exactBlock {c : Comparison} {rule : Rule} (hFlows : c.flows.FitsAccumulator)
    (hReference : c.reference.FitsAccumulator) (hRule : c.Evaluates rule)
    (hMetrics : rule.metrics = MetricKind.all.map .exact) :
    c.ExactBlock (.ofSegment rule.segment, inScope rule.segment) (c.block rule) := by
  constructor
  · rw [labels_block hRule, hMetrics, List.map_map]
    rfl
  · intro o ho counter hCounter
    obtain ⟨metric, hMetric, hOutcome⟩ := (mem_iff_of_mapM hRule.mapM_outcome).mp ho
    rw [hMetrics] at hMetric
    obtain ⟨kind, _, rfl⟩ := List.mem_map.mp hMetric
    rw [(Prod.mk.inj (labels_outcome hOutcome)).1] at hCounter
    exact passes_iff_of_counter hFlows hReference hCounter hOutcome

/-- The counters of the precise rules are exact. If they can be evaluated, the outcomes of packets,
bytes and flows on each part pass iff the numbers on both sides are equal. -/
theorem validate_precise_exact {c : Comparison} {networks : List Network} {checkComplement : Bool}
    {report : Report} (hFlows : c.flows.FitsAccumulator) (hReference : c.reference.FitsAccumulator)
    (h : (c.validate (Rule.precise networks) checkComplement).outcome = .ok report) :
    ∃ (blocks : List (List Outcome)) (complement : Report),
      report = blocks.flatten ++ complement ∧
      complement.length = (if checkComplement then 2 else 0) ∧
      List.Forall₂ c.ExactBlock (preciseParts networks) blocks := by
  obtain ⟨hRules, rfl⟩ := outcome_validate_eq_ok_iff.mp h
  refine ⟨(Rule.precise networks).map c.block,
    if checkComplement then c.complementOutcomes (Rule.precise networks) else [], ?_, ?_, ?_⟩
  · rw [List.flatMap_def]
  · cases checkComplement <;> rfl
  · rw [preciseParts_eq, List.forall₂_map_left_iff, List.forall₂_map_right_iff, List.forall₂_same]
    exact fun rule hRule =>
      exactBlock hFlows hReference (hRules rule hRule) (metrics_precise hRule)

/-- Counters beyond 53 bits that differ by one byte on one network and agree on the other, where
they round to the same numbers. -/
theorem validate_precise_exact_large_counters :
    let flow (source : Nat) (bytes : UInt64) : Flow :=
      ⟨⟨6, .ofNat .v4 source, .ofNat .v4 0xc0000201, 1, 80⟩, 0, 1000, 1, bytes, none⟩
    let network (address : Nat) : Network := ⟨.ofNat .v4 address, 8, by change 8 ≤ 32; decide⟩
    let c : Comparison :=
      ⟨[flow 0x0a000001 (2 ^ 63 + 1), flow 0x0b000001 (2 ^ 63)],
        [flow 0x0a000001 (2 ^ 63), flow 0x0b000001 (2 ^ 63)], ⟨0, 1000, 2, 1⟩⟩
    c.flows.FitsAccumulator ∧ c.reference.FitsAccumulator ∧
      ∃ report, (c.validate (Rule.precise [network 0x0a000000, network 0x0b000000]) true).outcome =
          .ok report ∧
        ∃ ten eleven complement, report = ten ++ eleven ++ complement ∧
          (∀ o ∈ ten, o.metric.kind = .bytes → ¬o.passes) ∧
          ∀ o ∈ eleven, o.metric.kind = .bytes → o.passes := by
  intro flow network c
  have hFlows : c.flows.FitsAccumulator := .of_length (by decide)
  have hReference : c.reference.FitsAccumulator := .of_length (by decide)
  obtain ⟨report, hReport⟩ := exists_eq_ok_of_isOk
    (show (c.validate (Rule.precise [network 0x0a000000, network 0x0b000000]) true).outcome.isOk by
      decide +kernel)
  refine ⟨hFlows, hReference, report, hReport, ?_⟩
  obtain ⟨blocks, complement, rfl, _, hBlocks⟩ :=
    validate_precise_exact hFlows hReference hReport
  obtain ⟨ten, rest, hTen, hRest, rfl⟩ := List.forall₂_cons_left_iff.mp hBlocks
  obtain ⟨eleven, _, hEleven, hNil, rfl⟩ := List.forall₂_cons_left_iff.mp hRest
  cases hNil
  refine ⟨ten, eleven, complement, by simp, fun o ho hKind => ?_, fun o ho hKind => ?_⟩
  · rw [hTen.exact o ho Dataset.totalBytes (by rw [hKind]; rfl)]
    decide +kernel
  · rw [hEleven.exact o ho Dataset.totalBytes (by rw [hKind]; rfl)]
    decide +kernel

end Comparison

end FlowAudit
