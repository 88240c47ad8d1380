import FlowAudit.Proofs.Comparison.Evaluation
import FlowAudit.Proofs.Comparison.Merging
/-!
Traffic seen from its other end. A rule that takes both directions selects the same rows whichever
ends they were seen from, and what is measured of the selected rows does not look at their keys.
-/
namespace FlowAudit

/-- The flow as it is seen from its other end. -/
def Flow.reverse (f : Flow) : Flow :=
  { f with key := f.key.reverse }

namespace Dataset

/-- The rows at the chosen positions reversed, and the others as they are. -/
def turn (d : Dataset) (chosen : Nat → Bool) : Dataset :=
  d.mapIdx fun i f => if chosen i then f.reverse else f

/-- The same rows in the same order, some of them reversed. -/
def Turned (d e : Dataset) : Prop :=
  List.Forall₂ (fun f g => g = f ∨ g = f.reverse) d e

/-- Exchanging the ends of chosen rows turns a table. -/
theorem turned_turn (d : Dataset) (chosen : Nat → Bool) : d.Turned (d.turn chosen) := by
  induction d generalizing chosen with
  | nil => exact .nil
  | cons f d ih =>
      rw [turn, List.mapIdx_cons]
      refine .cons ?_ (ih fun i => chosen (i + 1))
      by_cases h : chosen 0
      · exact .inr (if_pos h)
      · exact .inl (if_neg h)

namespace Turned

variable {d e : Dataset}

/-- Whatever is the same for a flow and its reverse is the same row by row. -/
theorem map_eq {α : Type} (h : d.Turned e) {v : Flow → α} (hv : ∀ f, v f.reverse = v f) :
    e.map v = d.map v := by
  refine map_eq_map_of_forall₂ h ?_
  rintro f g (rfl | rfl)
  · rfl
  · exact hv f

/-- A condition that does not look at the direction selects the same rows of both tables. -/
theorem filter (h : d.Turned e) {p : Flow → Bool} (hp : ∀ f, p f.reverse = p f) :
    Turned (d.filter p) (e.filter p) := by
  refine List.rel_filter ?_ h
  rintro f g (rfl | rfl)
  · exact Iff.rfl
  · exact (Bool.eq_iff_iff.mp (hp f)).symm

theorem delay (h : d.Turned e) (ms : UInt64) :
    Turned (d.map fun f => f.delay ms) (e.map fun f => f.delay ms) := by
  refine List.rel_map ?_ h
  rintro f g (rfl | rfl)
  · exact .inl rfl
  · exact .inr rfl

/-- Counters and times have no direction, so turned tables have the same traffic. -/
theorem sameTraffic (h : d.Turned e) : SameTraffic d e := by
  have hVolume : e.map Flow.volume = d.map Flow.volume := h.map_eq fun _ => rfl
  have hStarts : (e.map fun f => f.startTime.toNat) = d.map fun f => f.startTime.toNat :=
    h.map_eq fun _ => rfl
  have hStops : (e.map fun f => f.endTime.toNat) = d.map fun f => f.endTime.toNat :=
    h.map_eq fun _ => rfl
  constructor
  · rw [volume, volume, hVolume]
  · rw [timeBounds?, timeBounds?, hStarts, hStops]

end Turned

/-- A reversed flow goes to its former source. -/
theorem ofFlows_turn {d : Dataset} {chosen : Nat → Bool}
    (hSources : ∀ i f, d[i]? = some f → chosen i → f.key.source.isNoise = false)
    (hTable : ofFlows d = d) : ofFlows (d.turn chosen) = d.turn chosen := by
  rw [ofFlows, List.filter_eq_self] at hTable ⊢
  intro g hg
  obtain ⟨i, hi, rfl⟩ := List.mem_mapIdx.mp hg
  by_cases h : chosen i
  · have hSource := hSources i d[i] (List.getElem?_eq_getElem hi) h
    rw [if_pos h]
    exact congrArg not hSource
  · rw [if_neg h]
    exact hTable _ (List.getElem_mem hi)

end Dataset

/-- A scope for both directions holds a flow and its reverse. -/
theorem inScope_reverse {rule : Rule} (h : rule.IsSpatial true) (f : Flow) :
    inScope rule.segment f.reverse = inScope rule.segment f := by
  rw [Rule.IsSpatial] at h
  cases hSegment : rule.segment with
  | none => rfl
  | some s =>
      obtain ⟨n, rfl, hTwoWay⟩ := h s hSegment
      exact SubnetSegment.contains_reverse (hTwoWay rfl) rfl

theorem coveredBy_reverse {rules : List Rule} (h : ∀ rule ∈ rules, rule.IsSpatial true) (f : Flow) :
    coveredBy rules f.reverse = coveredBy rules f := by
  rw [Bool.eq_iff_iff, coveredBy_iff, coveredBy_iff]
  exact exists_congr fun rule => and_congr_right fun hRule => by
    rw [inScope_reverse (h rule hRule)]

namespace Comparison

/-- Both sides have the same rows, some of them reversed. -/
structure Turned (c c' : Comparison) : Prop where
  flows : c.flows.Turned c'.flows
  reference : c.reference.Turned c'.reference
  stats : c.stats = c'.stats

namespace Turned

variable {c c' : Comparison}

/-- Metrics of such a scope come out the same. -/
theorem outcome_eq (h : c.Turned c') {rule : Rule} (hRule : rule.IsSpatial true) :
    c.outcome rule = c'.outcome rule := by
  funext metric
  have hFlows : (c.flows.restrict rule.segment).Turned (c'.flows.restrict rule.segment) :=
    h.flows.filter (inScope_reverse hRule)
  have hReference :
      (c.reference.restrict rule.segment).Turned (c'.reference.restrict rule.segment) :=
    h.reference.filter (inScope_reverse hRule)
  rw [outcome, outcome, h.stats]
  by_cases hKind : metric.kind = .flows
  · simp only [hKind, Measurement.evaluate, hFlows.length_eq, hReference.length_eq]
  · rw [Measurement.evaluate_congr hKind hFlows.sameTraffic hReference.sameTraffic]

theorem complementOutcomes_eq (h : c.Turned c') {rules : List Rule}
    (hRules : ∀ rule ∈ rules, rule.IsSpatial true) :
    c.complementOutcomes rules = c'.complementOutcomes rules := by
  have hOutside : (c.uncovered rules).Turned (c'.uncovered rules) :=
    h.flows.filter fun f => congrArg not (coveredBy_reverse hRules f)
  have hVolume := hOutside.sameTraffic.volume
  rw [Dataset.volume_eq, Dataset.volume_eq, Prod.mk.injEq] at hVolume
  rw [complementOutcomes, complementOutcomes, hVolume.1, hVolume.2]

theorem block_eq (h : c.Turned c') {rule : Rule} (hRule : rule.IsSpatial true) :
    c.block rule = c'.block rule := by
  rw [block, block, outcome_evaluateRule_congr (h.outcome_eq hRule)]

/-- Reports on turned data are equal if all rules are for both directions. -/
theorem validate_eq (h : c.Turned c') {rules : List Rule}
    (hRules : ∀ rule ∈ rules, rule.IsSpatial true) (checkComplement : Bool) :
    (c.validate rules checkComplement).outcome = (c'.validate rules checkComplement).outcome := by
  have hOutcomes : ∀ rule ∈ rules.zipIdx, c.outcome rule.1 = c'.outcome rule.1 := fun rule hRule =>
    h.outcome_eq (hRules rule.1 (List.fst_mem_of_mem_zipIdx hRule))
  rw [outcome_validate_eq, outcome_validate_eq, outcomesOf_congr hOutcomes,
    h.complementOutcomes_eq hRules]

end Turned

/-- Alignment leaves out and delays rows by their times alone, so turned rows stay turned. -/
theorem turned_alignedTables {flows flows' reference reference' : Dataset}
    (hFlows : flows.Turned flows') (hReference : reference.Turned reference')
    (stats : GeneratorStats) (options : PrepareOptions) :
    let tables := alignedTables flows reference stats options
    let tables' := alignedTables flows' reference' stats options
    tables.1.Turned tables'.1 ∧ tables.2.Turned tables'.2 := by
  simp only [alignedTables, alignTimes]
  split
  · split
    · exact ⟨hFlows, hReference⟩
    · exact ⟨hFlows.filter fun _ => rfl, hReference.delay _⟩
  · exact ⟨hFlows, hReference⟩

/-- Traffic is the same from both ends to rules that take both directions. Whichever rows of a table
are reversed before it is prepared without merging, such a rule selects the same positions, and
such rules give the same report with the same complement, or the same error. Next to other rules,
they keep their outcomes in the report. Reversed rows are kept in the table as long as none of
them had a source that is a noise destination. -/
theorem validate_turned (flows reference : Dataset) (stats : GeneratorStats)
    (alignConversations alignReference : Bool) (chosen chosen' : Nat → Bool) :
    let options : PrepareOptions := ⟨false, alignConversations, alignReference⟩
    ∃ c c', (prepare flows reference stats options).outcome = .ok c ∧
      (prepare (flows.turn chosen) (reference.turn chosen') stats options).outcome = .ok c' ∧
      (∀ rule : Rule, rule.IsSpatial true →
        c.flows.mask rule.segment = c'.flows.mask rule.segment ∧
          c.reference.mask rule.segment = c'.reference.mask rule.segment) ∧
      (∀ (rules : List Rule) (checkComplement : Bool), (∀ rule ∈ rules, rule.IsSpatial true) →
        (c.validate rules checkComplement).outcome =
          (c'.validate rules checkComplement).outcome) ∧
      (∀ (rules : List Rule) (checkComplement : Bool) (report report' : Report),
        (c.validate rules checkComplement).outcome = .ok report →
        (c'.validate rules checkComplement).outcome = .ok report' →
        ∃ (block block' : Rule → Report) (complement complement' : Report),
          report = rules.flatMap block ++ complement ∧
          report' = rules.flatMap block' ++ complement' ∧
          complement.length = (if checkComplement then 2 else 0) ∧
          complement'.length = complement.length ∧
          ∀ rule ∈ rules, (block rule).length = rule.metrics.length ∧
            (block' rule).length = rule.metrics.length ∧
            (rule.IsSpatial true → block rule = block' rule)) ∧
      ∀ (d : Dataset) (rows : Nat → Bool),
        (∀ i f, d[i]? = some f → rows i → f.key.source.isNoise = false) →
          Dataset.ofFlows d = d → Dataset.ofFlows (d.turn rows) = d.turn rows := by
  intro options
  obtain ⟨hFlows, hReference⟩ := turned_alignedTables (flows.turned_turn chosen)
    (reference.turned_turn chosen') stats options
  have h : Turned ⟨_, _, stats⟩ ⟨_, _, stats⟩ := ⟨hFlows, hReference, rfl⟩
  refine ⟨_, _, outcome_prepare flows reference stats options,
    outcome_prepare (flows.turn chosen) (reference.turn chosen') stats options,
    fun rule hRule => ⟨?_, ?_⟩, fun rules checkComplement hRules => h.validate_eq hRules _,
    fun rules checkComplement report report' hReport hReport' => ?_,
    fun d rows => Dataset.ofFlows_turn⟩
  · exact (h.flows.map_eq (inScope_reverse hRule)).symm
  · exact (h.reference.map_eq (inScope_reverse hRule)).symm
  · obtain ⟨hRules, rfl⟩ := outcome_validate_eq_ok_iff.mp hReport
    obtain ⟨hRules', rfl⟩ := outcome_validate_eq_ok_iff.mp hReport'
    refine ⟨block _, block _, _, _, rfl, rfl, ?_, ?_, fun rule hRule => ⟨?_, ?_, h.block_eq⟩⟩
    · cases checkComplement <;> rfl
    · cases checkComplement <;> rfl
    · exact length_block (hRules rule hRule)
    · exact length_block (hRules' rule hRule)

/-- One of two flows from ten networks is reversed on each side, beside a flow of the long family. A
rule that takes only one direction misses it, and the rule behind that one does not. -/
theorem validate_turned_two_families :
    let key (source : Nat) : FlowKey :=
      ⟨6, .ofNat .v4 source, .ofNat .v4 0xc0000201, 1000, 80⟩
    let long : FlowKey := ⟨6, .ofNat .v6 1, .ofNat .v6 2, 1000, 80⟩
    let flow (key : FlowKey) (packets : UInt64) : Flow := ⟨key, 0, 1000, packets, 100, none⟩
    let ten : Network := ⟨.ofNat .v4 0x0a000000, 8, by decide⟩
    let servers : Network := ⟨.ofNat .v4 0xc0000200, 24, by decide⟩
    let both : Rule :=
      ⟨[.exact .packets, .exact .flows], some (.subnet ⟨some ten, some servers, true⟩)⟩
    let oneWay : Rule := ⟨[.exact .packets], some (.subnet ⟨some ten, none, false⟩)⟩
    let flows : Dataset := [flow (key 0x0a000001) 5, flow long 3, flow (key 0x0a000002) 2]
    let reference : Dataset := [flow (key 0x0a000001) 5, flow (key 0x0a000002) 2]
    let c : Comparison := ⟨flows, reference, .zero⟩
    let c' : Comparison :=
      ⟨[flow (key 0x0a000001).reverse 5, flow long 3, flow (key 0x0a000002) 2],
        [flow (key 0x0a000001) 5, flow (key 0x0a000002).reverse 2], .zero⟩
    both.IsSpatial true ∧ flows.turn (· == 0) = c'.flows ∧ reference.turn (· == 1) = c'.reference ∧
      c.flows.mask both.segment = [true, false, true] ∧
      c'.flows.mask both.segment = [true, false, true] ∧
      (c.validate [both] true).outcome = (c'.validate [both] true).outcome ∧
      (∃ first first' same, (c.validate [oneWay, both] false).outcome = .ok (first ++ same) ∧
        (c'.validate [oneWay, both] false).outcome = .ok (first' ++ same) ∧
        first.length = 1 ∧ first'.length = 1 ∧ same.length = 2) ∧
      Dataset.ofFlows c'.flows = c'.flows := by
  intro key long flow ten servers both oneWay flows reference c c'
  have hBoth : both.IsSpatial true := by
    simp [both, Rule.IsSpatial]
  have hOneWay : oneWay ∈ [oneWay, both] := List.mem_cons_self ..
  have hLast : both ∈ [oneWay, both] := List.mem_cons_of_mem _ (List.mem_singleton_self _)
  have hSources : ∀ i f, flows[i]? = some f → (i == 0) = true → f.key.source.isNoise = false := by
    rintro i f hf hi
    rw [beq_iff_eq.mp hi] at hf
    cases hf
    rfl
  obtain ⟨_, _, hc, hc', hMask, hSame, hMixed, hKept⟩ :=
    validate_turned flows reference .zero false false (· == 0) (· == 1)
  cases hc
  cases hc'
  obtain ⟨report, hReport⟩ := exists_eq_ok_of_isOk
    (show (c.validate [oneWay, both] false).outcome.isOk by decide +kernel)
  obtain ⟨report', hReport'⟩ := exists_eq_ok_of_isOk
    (show (c'.validate [oneWay, both] false).outcome.isOk by decide +kernel)
  have hFlows : c.flows.mask both.segment = [true, false, true] := by decide +kernel
  refine ⟨hBoth, rfl, rfl, hFlows, (hMask both hBoth).1.symm.trans hFlows,
    hSame [both] true (by simpa using hBoth), ?_, hKept flows _ hSources (by decide +kernel)⟩
  obtain ⟨block, block', complement, complement', rfl, rfl, hNone, hNone', hBlocks⟩ :=
    hMixed _ _ report report' hReport hReport'
  obtain ⟨hFirst, hFirst', _⟩ := hBlocks oneWay hOneWay
  obtain ⟨hLength, _, hEq⟩ := hBlocks both hLast
  have hComplement : complement = [] := List.eq_nil_of_length_eq_zero hNone
  have hComplement' : complement' = [] := List.eq_nil_of_length_eq_zero (hNone'.trans hNone)
  subst hComplement hComplement'
  refine ⟨block oneWay, block' oneWay, block both, ?_, ?_, hFirst, hFirst', hLength⟩
  · simpa using hReport
  · simpa [hEq hBoth] using hReport'

end Comparison

end FlowAudit
