import FlowAudit.Proofs.Comparison.Evaluation
import FlowAudit.Proofs.Float.Magnitude
/-!
When validation fails, and with which error. A rule is faulty if it repeats a kind or lists a metric
whose reference is zero. Validation fails iff some rule is faulty, and the error names the first
cause in the first such rule. Rounding never makes a reference zero, because a positive counter and
the duration of a run both lie far inside the range of floating-point numbers.
-/
namespace FlowAudit

/-- The first repetition stands behind members that do not repeat. -/
theorem firstRepeated_eq_some_iff {α : Type} [DecidableEq α] {seen xs : List α} {a : α} :
    firstRepeated seen xs = some a ↔ ∃ before after, xs = before ++ a :: after ∧
      firstRepeated seen before = none ∧ (a ∈ seen ∨ a ∈ before) := by
  induction xs generalizing seen with
  | nil => simp [firstRepeated]
  | cons x rest ih =>
      rw [firstRepeated]
      split
      · next hSeen =>
          constructor
          · intro h
            cases h
            exact ⟨[], rest, rfl, rfl, .inl hSeen⟩
          · rintro ⟨before, after, hxs, hBefore, _⟩
            rcases List.cons_eq_append_iff.mp hxs with ⟨rfl, hCons⟩ | ⟨tail, rfl, _⟩
            · cases hCons
              rfl
            · rw [firstRepeated, if_pos hSeen] at hBefore
              cases hBefore
      · next hSeen =>
          rw [ih]
          constructor
          · rintro ⟨before, after, rfl, hBefore, ha⟩
            refine ⟨x :: before, after, rfl, ?_, ?_⟩
            · rw [firstRepeated, if_neg hSeen]
              exact hBefore
            · simpa [or_assoc, or_left_comm] using ha
          · rintro ⟨before, after, hxs, hBefore, ha⟩
            rcases List.cons_eq_append_iff.mp hxs with ⟨rfl, hCons⟩ | ⟨tail, rfl, rfl⟩
            · cases hCons
              simp [hSeen] at ha
            · rw [firstRepeated, if_neg hSeen] at hBefore
              exact ⟨tail, after, rfl, hBefore, by simpa [or_assoc, or_left_comm] using ha⟩

namespace Rule

/-- The kind that a rule lists again after kinds that are all different. -/
def FirstRepeats (rule : Rule) (kind : MetricKind) : Prop :=
  ∃ before after, rule.kinds = before ++ kind :: after ∧ before.Nodup ∧ kind ∈ before

/-- The kind that is reported is the first one that has occurred before. -/
theorem checkDistinct_eq_error_iff {rule : Rule} {cause : DuplicateMetric} :
    rule.checkDistinct = .error cause ↔ rule.FirstRepeats cause.kind := by
  have hSome : firstRepeated [] rule.kinds = some cause.kind ↔ rule.FirstRepeats cause.kind := by
    simp [firstRepeated_eq_some_iff, firstRepeated_eq_none_iff, FirstRepeats]
  obtain ⟨kind⟩ := cause
  rw [← hSome, checkDistinct]
  cases firstRepeated [] rule.kinds <;> simp

end Rule

namespace Measurement

/-- What a kind amounts to in observed flows. -/
def observed (kind : MetricKind) (flows : Dataset) : Float :=
  match kind with
  | .packets => Float.ofNat flows.totalPackets
  | .bytes => Float.ofNat flows.totalBytes
  | .flows => Float.ofNat flows.length
  | .packetRate => rate flows.totalPackets flows.duration
  | .byteRate => millionRate flows.totalBytes flows.duration
  | .duration => flows.duration

/-- Counters have no relative difference to a reference of zero, and this is the only error. -/
theorem ofCounts_eq_error_iff {kind : MetricKind} {value reference : Nat} {cause : ZeroReference} :
    ofCounts kind value reference = .error cause ↔
      reference = 0 ∧ cause = ⟨kind, Float.ofNat value⟩ := by
  rw [ofCounts, countDifference]
  by_cases h : reference = 0
  · simp [h, bind, Except.bind, eq_comm]
  · simp [h, bind, Except.bind, pure, Except.pure]

/-- The same holds of rates and durations. A negative zero counts as zero. -/
theorem ofReals_eq_error_iff {kind : MetricKind} {value reference : Float} {cause : ZeroReference} :
    ofReals kind value reference = .error cause ↔ reference == 0.0 ∧ cause = ⟨kind, value⟩ := by
  rw [ofReals, realDifference]
  by_cases h : reference == 0.0
  · simp [h, bind, Except.bind, eq_comm]
  · simp [h, bind, Except.bind, pure, Except.pure]

variable {total : Nat} {seconds : Float}

/-- A run takes at least a millisecond and less than `2 ^ 55` seconds. -/
theorem hasMagnitude_spanSeconds {stop : Nat} (start : Nat) (h : stop < 2 ^ 64) :
    HasMagnitude (-9) 60 (Dataset.spanSeconds start stop) :=
  (HasMagnitude.ofNat 65 (Nat.succ_pos _) (by omega) (by decide)).div .thousand
    (by decide) (by decide)

/-- A total that is not zero gives a rate far away from underflow and overflow. -/
theorem hasMagnitude_rate (hTotal : 0 < total) (hWord : total < 2 ^ 64)
    (hSeconds : HasMagnitude (-9) 60 seconds) : HasMagnitude (-59) 78 (rate total seconds) := by
  rw [rate, if_pos hSeconds.pos]
  exact (HasMagnitude.ofNat 64 hTotal hWord (by decide)).div hSeconds (by decide)
    (by decide)

theorem rate_zero (hSeconds : HasMagnitude (-9) 60 seconds) : rate 0 seconds = 0.0 := by
  rw [rate, if_pos hSeconds.pos]
  exact hSeconds.zero_div

/-- A number that is zero for an exact zero and has a magnitude otherwise. -/
theorem beq_zero_iff {x : Float} {lo hi : Int} (hZero : total = 0 → x = 0.0)
    (hPos : 0 < total → HasMagnitude lo hi x) : x == 0.0 ↔ total = 0 := by
  rcases Nat.eq_zero_or_pos total with h | h
  · rw [hZero h]
    exact iff_of_true rfl h
  · rw [(hPos h).ne_zero]
    exact iff_of_false Bool.false_ne_true h.ne'

theorem rate_beq_zero_iff (hWord : total < 2 ^ 64) (hSeconds : HasMagnitude (-9) 60 seconds) :
    rate total seconds == 0.0 ↔ total = 0 := by
  refine beq_zero_iff (fun h => ?_) fun h => hasMagnitude_rate h hWord hSeconds
  rw [h, rate_zero hSeconds]

theorem millionRate_beq_zero_iff (hWord : total < 2 ^ 64)
    (hSeconds : HasMagnitude (-9) 60 seconds) : millionRate total seconds == 0.0 ↔ total = 0 := by
  refine beq_zero_iff (fun h => ?_) fun h =>
    (hasMagnitude_rate h hWord hSeconds).div .million (by decide) (by decide)
  rw [h, millionRate, rate_zero hSeconds, HasMagnitude.million.zero_div]

end Measurement

namespace Comparison

/-- Whether a kind has no reference on a segment. Counters are compared with the reference data,
rates with the totals of the generator, and a run always has a duration. -/
def ReferenceIsZero (c : Comparison) (segment : Option Segment) : MetricKind → Prop
  | .packets => (c.reference.restrict segment).totalPackets = 0
  | .bytes => (c.reference.restrict segment).totalBytes = 0
  | .flows => ∀ f ∈ c.reference, ¬inScope segment f
  | .packetRate => c.stats.packets = 0
  | .byteRate => c.stats.bytes = 0
  | .duration => False

instance (c : Comparison) (segment : Option Segment) : DecidablePred (c.ReferenceIsZero segment)
  | .packets => inferInstanceAs (Decidable (_ = 0))
  | .bytes => inferInstanceAs (Decidable (_ = 0))
  | .flows => inferInstanceAs (Decidable (∀ f ∈ c.reference, ¬inScope segment f))
  | .packetRate => inferInstanceAs (Decidable (c.stats.packets = 0))
  | .byteRate => inferInstanceAs (Decidable (c.stats.bytes = 0))
  | .duration => inferInstanceAs (Decidable False)

/-- A metric fails iff the reference is zero in the scope. The error tells what the probe has seen
there. -/
theorem outcome_eq_error_iff {c : Comparison} {rule : Rule} {metric : Metric}
    {cause : ZeroReference} :
    c.outcome rule metric = .error cause ↔ c.ReferenceIsZero rule.segment metric.kind ∧
      cause = ⟨metric.kind, Measurement.observed metric.kind (c.flows.restrict rule.segment)⟩ := by
  have hOutcome : c.outcome rule metric = .error cause ↔
      Measurement.evaluate metric.kind (c.flows.restrict rule.segment)
        (c.reference.restrict rule.segment) c.stats = .error cause := by
    rw [outcome]
    cases Measurement.evaluate metric.kind (c.flows.restrict rule.segment)
      (c.reference.restrict rule.segment) c.stats <;> simp [bind, Except.bind, pure, Except.pure]
  have hSeconds : HasMagnitude (-9) 60 c.stats.duration :=
    Measurement.hasMagnitude_spanSeconds _ c.stats.endTime.toNat_lt
  rw [hOutcome]
  cases metric.kind with
  | packets => exact Measurement.ofCounts_eq_error_iff
  | bytes => exact Measurement.ofCounts_eq_error_iff
  | flows =>
      rw [ReferenceIsZero, ← List.filter_eq_nil_iff, ← List.length_eq_zero_iff]
      exact Measurement.ofCounts_eq_error_iff
  | packetRate =>
      rw [ReferenceIsZero, ← UInt64.toNat_inj]
      refine Measurement.ofReals_eq_error_iff.trans (and_congr_left fun _ => ?_)
      exact Measurement.rate_beq_zero_iff c.stats.packets.toNat_lt hSeconds
  | byteRate =>
      rw [ReferenceIsZero, ← UInt64.toNat_inj]
      refine Measurement.ofReals_eq_error_iff.trans (and_congr_left fun _ => ?_)
      exact Measurement.millionRate_beq_zero_iff c.stats.bytes.toNat_lt hSeconds
  | duration =>
      refine Measurement.ofReals_eq_error_iff.trans (and_congr_left fun _ => ?_)
      rw [hSeconds.ne_zero]
      exact iff_of_false Bool.false_ne_true id

/-- Whether a rule repeats a kind or lists a metric without a reference. -/
def Faulty (c : Comparison) (rule : Rule) : Prop :=
  ¬rule.kinds.Nodup ∨ ∃ metric ∈ rule.metrics, c.ReferenceIsZero rule.segment metric.kind

instance (c : Comparison) : DecidablePred c.Faulty := fun rule =>
  inferInstanceAs (Decidable (_ ∨ ∃ metric ∈ rule.metrics, _))

/-- The first metric of a rule without a reference, with its amount on the probe side. -/
def FirstZeroReference (c : Comparison) (rule : Rule) (cause : ZeroReference) : Prop :=
  ∃ before metric after, rule.metrics = before ++ metric :: after ∧
    (∀ earlier ∈ before, ¬c.ReferenceIsZero rule.segment earlier.kind) ∧
    c.ReferenceIsZero rule.segment metric.kind ∧
    cause = ⟨metric.kind, Measurement.observed metric.kind (c.flows.restrict rule.segment)⟩

/-- The error that a faulty rule at a position ends with. Repetitions are found before anything is
measured. -/
def RefusedWith (c : Comparison) (index : Nat) (rule : Rule) : ValidationError → Prop
  | .duplicateMetric cause => rule.FirstRepeats cause.kind
  | .metric position cause =>
      position = index ∧ rule.kinds.Nodup ∧ c.FirstZeroReference rule cause

theorem exists_outcome_iff {c : Comparison} {rule : Rule} {metric : Metric} :
    (∃ o, c.outcome rule metric = .ok o) ↔ ¬c.ReferenceIsZero rule.segment metric.kind := by
  have hError : (∃ cause, c.outcome rule metric = .error cause) ↔
      c.ReferenceIsZero rule.segment metric.kind := by
    simp only [outcome_eq_error_iff, exists_and_left, exists_eq, and_true]
  rw [← hError]
  cases c.outcome rule metric <;> simp

theorem evaluates_iff_not_faulty {c : Comparison} {rule : Rule} :
    c.Evaluates rule ↔ ¬c.Faulty rule := by
  simp only [evaluates_iff, exists_outcome_iff, Faulty, not_or, not_not, not_exists, not_and]

/-- Metrics are measured in order, so the first one with a reference of zero is reported. -/
theorem mapM_outcome_eq_error_iff {c : Comparison} {rule : Rule} {cause : ZeroReference} :
    rule.metrics.mapM (c.outcome rule) = .error cause ↔ c.FirstZeroReference rule cause := by
  rw [mapM_eq_error_iff, FirstZeroReference]
  simp only [exists_outcome_iff, outcome_eq_error_iff]

/-- A rule is refused for its first repeated metric, and only without one for its first reference of
zero. -/
theorem outcome_evaluateRule_eq_error_iff {c : Comparison} {index : Nat} {rule : Rule}
    {e : ValidationError} :
    (c.evaluateRule index rule).outcome = .error e ↔ c.RefusedWith index rule e := by
  rw [outcome_evaluateRule]
  -- the check for repetitions decides which of the two kinds of errors is possible at all
  cases hDistinct : rule.checkDistinct with
  | error cause =>
      cases e with
      | duplicateMetric cause' =>
          rw [RefusedWith, ← Rule.checkDistinct_eq_error_iff, hDistinct]
          simp [bind, Except.bind]
      | metric position cause' =>
          rw [RefusedWith, ← Rule.checkDistinct_eq_ok_iff, hDistinct]
          simp [bind, Except.bind]
  | ok _ =>
      cases e with
      | duplicateMetric cause =>
          rw [RefusedWith, ← Rule.checkDistinct_eq_error_iff, hDistinct]
          simp [mapError_eq_error_iff]
      | metric position cause =>
          rw [RefusedWith, ← Rule.checkDistinct_eq_ok_iff, hDistinct]
          simp only [mapError_ok, ok_bind, mapError_eq_error_iff, mapM_outcome_eq_error_iff,
            ValidationError.metric.injEq]
          constructor
          · rintro ⟨_, hFirst, rfl, rfl⟩
            exact ⟨rfl, trivial, hFirst⟩
          · rintro ⟨rfl, _, hFirst⟩
            exact ⟨cause, hFirst, rfl, rfl⟩

/-- The error is that of the first rule that cannot be evaluated. -/
theorem outcomesOf_eq_error_iff {c : Comparison} {rules : List Rule} {index : Nat}
    {e : ValidationError} :
    c.outcomesOf (rules.zipIdx index) = .error e ↔
      ∃ before rule after, rules = before ++ rule :: after ∧
        (∀ earlier ∈ before, c.Evaluates earlier) ∧
        (c.evaluateRule (index + before.length) rule).outcome = .error e := by
  refine bind_ok_eq_error_iff.trans (mapM_eq_error_iff.trans ?_)
  constructor
  · rintro ⟨before, rule, after, hSplit, hBefore, hError⟩
    obtain ⟨earlier, rest, rfl, rfl, hRest⟩ := List.zipIdx_eq_append_iff.mp hSplit
    cases rest with
    | nil => cases hRest
    | cons rule' rest =>
        cases hRest
        refine ⟨earlier, rule', rest, rfl, fun a ha => ?_, hError⟩
        rw [← List.zipIdx_map_fst index earlier] at ha
        obtain ⟨⟨_, i⟩, hi, rfl⟩ := List.mem_map.mp ha
        exact (evaluates_iff_exists i).mpr (hBefore _ hi)
  · rintro ⟨before, rule, after, rfl, hBefore, hError⟩
    refine ⟨before.zipIdx index, (rule, index + before.length),
      after.zipIdx (index + before.length + 1), ?_, ?_, hError⟩
    · rw [List.zipIdx_append, List.zipIdx_cons]
    · rintro ⟨earlier, i⟩ hEarlier
      exact (evaluates_iff_exists i).mp (hBefore earlier (List.fst_mem_of_mem_zipIdx hEarlier))

/-- Validation fails iff some rule is faulty, with the error of the first one. The complement has no
errors of its own. -/
theorem outcome_validate_eq_error_iff {c : Comparison} {rules : List Rule} {checkComplement : Bool}
    {e : ValidationError} :
    (c.validate rules checkComplement).outcome = .error e ↔
      ∃ before rule after, rules = before ++ rule :: after ∧
        (∀ earlier ∈ before, ¬c.Faulty earlier) ∧ c.RefusedWith before.length rule e := by
  rw [outcome_validate_eq]
  refine bind_ok_eq_error_iff.trans (outcomesOf_eq_error_iff.trans ?_)
  simp only [Nat.zero_add, evaluates_iff_not_faulty, outcome_evaluateRule_eq_error_iff]

/-- Validation fails iff some rule is faulty, with the cause in the first such rule. Otherwise the
report has one outcome for each metric of each rule in order, and after them the complement. -/
theorem validate_fails_iff (c : Comparison) (rules : List Rule) (checkComplement : Bool) :
    ((∃ e, (c.validate rules checkComplement).outcome = .error e) ↔
      ∃ rule ∈ rules, c.Faulty rule) ∧
    (∀ e, (c.validate rules checkComplement).outcome = .error e ↔
      ∃ before rule after, rules = before ++ rule :: after ∧
        (∀ earlier ∈ before, ¬c.Faulty earlier) ∧ c.RefusedWith before.length rule e) ∧
    ∀ report, (c.validate rules checkComplement).outcome = .ok report →
      report.map (fun o => (o.metric, o.scope)) =
        (rules.flatMap fun rule => rule.metrics.map fun metric =>
          (metric, Scope.ofSegment rule.segment)) ++
        if checkComplement then
          [(.exact .packets, .complement), (.exact .bytes, .complement)] else [] := by
  refine ⟨?_, fun e => outcome_validate_eq_error_iff, fun report h => ?_⟩
  · have hOk : (∃ report, (c.validate rules checkComplement).outcome = .ok report) ↔
        ¬∃ rule ∈ rules, c.Faulty rule := by
      simp only [outcome_validate_eq_ok_iff, evaluates_iff_not_faulty, exists_and_left, exists_eq,
        and_true, not_exists, not_and]
    rw [← not_iff_not, ← hOk]
    cases (c.validate rules checkComplement).outcome <;> simp
  · obtain ⟨hRules, rfl⟩ := outcome_validate_eq_ok_iff.mp h
    rw [List.map_append, List.map_flatMap]
    congr 1
    · exact List.flatMap_congr fun rule hRule => labels_block (hRules rule hRule)
    · cases checkComplement <;> rfl

/-- A reference flow without bytes and a run without packets. The rule that repeats a kind fails with
the repetition although its first metric has no reference either. -/
theorem validate_fails_first_cause :
    let flow (packets bytes : UInt64) : Flow :=
      ⟨⟨6, .ofNat .v4 0x0a000001, .ofNat .v4 0xc0000201, 1, 80⟩, 0, 1000, packets, bytes, none⟩
    let fine : Rule := ⟨[.exact .packets, .exact .byteRate], none⟩
    let zero : Rule := ⟨[.exact .duration, .exact .bytes, .exact .packetRate], none⟩
    let repeated : Rule := ⟨[.exact .bytes, .exact .packets, .exact .packets], none⟩
    let c : Comparison := ⟨[flow 5 500], [flow 6 0], ⟨0, 1000, 0, 700⟩⟩
    (c.validate [fine, zero, repeated] true).outcome =
        .error (.metric 1 ⟨.bytes, Float.ofNat 500⟩) ∧
      (c.validate [fine, repeated, zero] true).outcome =
        .error (.duplicateMetric ⟨.packets⟩) ∧
      ∃ report, (c.validate [fine] true).outcome = .ok report ∧
        report.map (fun o => (o.metric, o.scope)) =
          [(.exact .packets, .whole), (.exact .byteRate, .whole), (.exact .packets, .complement),
            (.exact .bytes, .complement)] := by
  intro flow fine zero repeated c
  have hFine : ∀ earlier ∈ [fine], ¬c.Faulty earlier := by decide +kernel
  refine ⟨?_, ?_, ?_⟩
  · refine ((c.validate_fails_iff _ _).2.1 _).mpr ⟨[fine], zero, [repeated], rfl, hFine, rfl,
      by decide, [.exact .duration], .exact .bytes, [.exact .packetRate], rfl, by decide +kernel,
      by decide +kernel, ?_⟩
    have hBytes : (c.flows.restrict zero.segment).totalBytes = 500 := by decide +kernel
    rw [← hBytes]
    rfl
  · exact ((c.validate_fails_iff _ _).2.1 _).mpr ⟨[fine], repeated, [zero], rfl, hFine,
      [.bytes, .packets], [], rfl, by decide, by decide⟩
  · obtain ⟨report, hReport⟩ := exists_eq_ok_of_isOk
      (show (c.validate [fine] true).outcome.isOk by decide +kernel)
    exact ⟨report, hReport, (c.validate_fails_iff _ _).2.2 report hReport⟩

end Comparison

end FlowAudit
