import FlowAudit.Proofs.Comparison.Refusal
import FlowAudit.Rule.Document
/-!
Which rule documents are accepted, and what is wrong with the others. A rule can have a tolerance out
of range, a bound that tells nothing, a reversed window or a repeated kind. The reported fault is the
first one of the first rule that has any, where the tolerances of a rule come before its segment and
the segment before the repetition. What is accepted is free of the only fault that validation looks
for before it measures anything.
-/
namespace FlowAudit

namespace TimeBound

/-- Whether a bound tells a time. -/
def Tells (bound : TimeBound) (ms : UInt64) : Prop :=
  match bound with
  | millis n => n = ms
  | text s => (Calendar.parse? s).map UInt64.ofNat = some ms

/-- A bound is accepted iff it tells a time, and then it is that time. -/
theorem toMillis_eq_ok_iff {bound : TimeBound} {ms : UInt64} :
    bound.toMillis = .ok ms ↔ bound.Tells ms := by
  cases bound with
  | millis n => simp [toMillis, Tells]
  | text s =>
      simp only [toMillis, Tells]
      cases Calendar.parse? s <;> simp

/-- Only a text can fail to tell a time, and the error repeats it. -/
theorem toMillis_eq_error_iff {bound : TimeBound} {cause : SegmentError} :
    bound.toMillis = .error cause ↔
      ∃ s, bound = text s ∧ (∀ ms, ¬(text s).Tells ms) ∧ .invalidTime s = cause := by
  cases bound with
  | millis n => simp [toMillis]
  | text s =>
      simp only [toMillis, Tells, text.injEq, exists_eq_left']
      cases Calendar.parse? s <;> simp

/-- Milliseconds always tell a time. -/
theorem exists_text_of_not_tells {bound : TimeBound} (h : ∀ ms, ¬bound.Tells ms) :
    ∃ s, bound = text s := by
  cases bound with
  | millis n => exact absurd rfl (h n)
  | text s => exact ⟨s, rfl⟩

end TimeBound

namespace SubnetSegment

/-- Whether a text names a network once it is trimmed. -/
def Names (text : String) (n : Network) : Prop :=
  Network.parse? (Text.trimmed text) = some n

theorem readNetwork_eq_ok_iff {text : String} {n : Network} :
    readNetwork text = .ok n ↔ Names text n := by
  rw [readNetwork, Names]
  cases Network.parse? (Text.trimmed text) <;> simp

/-- What names no network is repeated in the error. -/
theorem readNetwork_eq_error_iff {text : String} {cause : SegmentError} :
    readNetwork text = .error cause ↔ (∀ n, ¬Names text n) ∧ .invalidSubnet text = cause := by
  simp only [readNetwork, Names]
  cases Network.parse? (Text.trimmed text) <;> simp

/-- A segment of networks is accepted iff each of its texts names one. -/
theorem parse_eq_ok_iff {source destination : Option String} {twoWay : Bool} {s : SubnetSegment} :
    parse source destination twoWay = .ok s ↔ Option.Rel Names source s.source ∧
      Option.Rel Names destination s.destination ∧ s.twoWay = twoWay := by
  simp only [parse, bind_eq_ok_iff, optionMapM_eq_ok_iff, readNetwork_eq_ok_iff, pure_eq_ok_iff]
  constructor
  · rintro ⟨_, hSource, _, hDestination, rfl⟩
    exact ⟨hSource, hDestination, rfl⟩
  · rintro ⟨hSource, hDestination, rfl⟩
    exact ⟨_, hSource, _, hDestination, rfl⟩

/-- The destination is only looked at if the source is fine. -/
theorem parse_eq_error_iff {source destination : Option String} {twoWay : Bool}
    {cause : SegmentError} :
    parse source destination twoWay = .error cause ↔
      (∃ text ∈ source, readNetwork text = .error cause) ∨
        (∀ text ∈ source, ∃ n, Names text n) ∧
          ∃ text ∈ destination, readNetwork text = .error cause := by
  rw [parse, bind_eq_error_iff, optionMapM_eq_error_iff]
  refine or_congr_right ?_
  simp only [← exists_optionRel_iff, optionMapM_eq_ok_iff, readNetwork_eq_ok_iff]
  rw [exists_and_right.symm]
  refine exists_congr fun _ => and_congr_right fun _ => ?_
  exact bind_ok_eq_error_iff.trans optionMapM_eq_error_iff

end SubnetSegment

namespace TimeSegment

variable {startTime endTime : Option UInt64}

/-- A window has the bounds that it was made of. -/
theorem between_eq_ok_iff {s : TimeSegment} :
    between startTime endTime = .ok s ↔ s.startTime = startTime ∧ s.endTime = endTime := by
  obtain ⟨first, last, hOrdered⟩ := s
  rcases startTime with _ | start
  · simp [between, eq_comm]
  · rcases endTime with _ | finish
    · simp [between, eq_comm]
    · rw [between]
      split
      · simp [eq_comm]
      · next hReversed =>
          refine iff_of_false nofun ?_
          rintro ⟨rfl, rfl⟩
          exact hReversed (hOrdered _ rfl _ rfl)

/-- Only two bounds in the wrong order are refused. Equal ones are a window. -/
theorem between_eq_error_iff {cause : SegmentError} :
    between startTime endTime = .error cause ↔
      ∃ start ∈ startTime, ∃ finish ∈ endTime, finish < start ∧
        .invertedTimes start finish = cause := by
  rcases startTime with _ | start
  · simp [between]
  · rcases endTime with _ | finish
    · simp [between]
    · rw [between]
      split
      · next hOrdered => simp [hOrdered]
      · next hReversed => simp [UInt64.not_le.mp hReversed]

end TimeSegment

/-- Whether a segment restricts the data, and does so by bounds that are not reversed. -/
def Segment.IsProper : Segment → Prop
  | subnet s => s.source.isSome ∨ s.destination.isSome
  | time s => (s.startTime.isSome ∨ s.endTime.isSome) ∧
      ∀ first ∈ s.startTime, ∀ last ∈ s.endTime, first ≤ last

namespace SegmentEntry

open SubnetSegment TimeBound

/-- The segment that an entry stands for, none if it has no bound. -/
inductive Denotes : SegmentEntry → Option Segment → Prop
  | noNetwork {twoWay : Bool} : Denotes (subnet none none twoWay) none
  | noTime : Denotes (time none none) none
  | networks {source destination : Option String} {s : SubnetSegment} :
      source.isSome ∨ destination.isSome → Option.Rel Names source s.source →
      Option.Rel Names destination s.destination →
      Denotes (subnet source destination s.twoWay) (some (.subnet s))
  | times {startTime endTime : Option TimeBound} {s : TimeSegment} :
      startTime.isSome ∨ endTime.isSome → Option.Rel Tells startTime s.startTime →
      Option.Rel Tells endTime s.endTime → Denotes (time startTime endTime) (some (.time s))

/-- Whether all bounds tell something. -/
def IsReadable : SegmentEntry → Prop
  | subnet source destination _ =>
    (∀ text ∈ source, ∃ n, Names text n) ∧ ∀ text ∈ destination, ∃ n, Names text n
  | time startTime endTime =>
    (∀ bound ∈ startTime, ∃ ms, bound.Tells ms) ∧ ∀ bound ∈ endTime, ∃ ms, bound.Tells ms

/-- Whether a window ends before it starts. -/
def IsReversed : SegmentEntry → Prop
  | subnet .. => False
  | time startTime endTime => ∃ bound ∈ startTime, ∃ bound' ∈ endTime, ∃ start finish,
      bound.Tells start ∧ bound'.Tells finish ∧ finish < start

/-- The first fault of a segment. -/
inductive Fault : SegmentEntry → SegmentError → Prop
  | source {text : String} {destination : Option String} {twoWay : Bool} :
      (∀ n, ¬Names text n) → Fault (subnet (some text) destination twoWay) (.invalidSubnet text)
  | destination {source : Option String} {text : String} {twoWay : Bool} :
      (∀ other ∈ source, ∃ n, Names other n) → (∀ n, ¬Names text n) →
      Fault (subnet source (some text) twoWay) (.invalidSubnet text)
  | startTime {s : String} {endTime : Option TimeBound} :
      (∀ ms, ¬(text s).Tells ms) → Fault (time (some (text s)) endTime) (.invalidTime s)
  | endTime {startTime : Option TimeBound} {s : String} :
      (∀ bound ∈ startTime, ∃ ms, bound.Tells ms) → (∀ ms, ¬(text s).Tells ms) →
      Fault (time startTime (some (text s))) (.invalidTime s)
  | reversed {bound bound' : TimeBound} {start finish : UInt64} :
      bound.Tells start → bound'.Tells finish → finish < start →
      Fault (time (some bound) (some bound')) (.invertedTimes start finish)

theorem toSegment_subnet {source destination : Option String} (twoWay : Bool)
    (h : source.isSome ∨ destination.isSome) :
    (subnet source destination twoWay).toSegment =
      (SubnetSegment.parse source destination twoWay >>= fun s => .ok (some (.subnet s))) := by
  rcases source with _ | text
  · rcases destination with _ | text
    · simp at h
    · rfl
  · rfl

/-- With a bound in place, the start is read before the end, and their order is checked last. -/
theorem toSegment_time {startTime endTime : Option TimeBound}
    (h : startTime.isSome ∨ endTime.isSome) :
    (time startTime endTime).toSegment = (do
      let start ← startTime.mapM toMillis
      let finish ← endTime.mapM toMillis
      let s ← TimeSegment.between start finish
      .ok (some (.time s))) := by
  rcases startTime with _ | bound
  · rcases endTime with _ | bound
    · simp at h
    · rfl
  · rfl

/-- An entry becomes exactly the segment that it denotes. -/
theorem toSegment_eq_ok_iff {entry : SegmentEntry} {segment : Option Segment} :
    entry.toSegment = .ok segment ↔ entry.Denotes segment := by
  cases entry with
  | subnet source destination twoWay =>
      by_cases hBound : source.isSome ∨ destination.isSome
      · simp only [toSegment_subnet twoWay hBound, bind_eq_ok_iff, parse_eq_ok_iff, Except.ok.injEq]
        constructor
        · rintro ⟨s, ⟨hSource, hDestination, rfl⟩, rfl⟩
          exact .networks hBound hSource hDestination
        · intro h
          cases h with
          | noNetwork => simp at hBound
          | networks _ hSource hDestination => exact ⟨_, ⟨hSource, hDestination, rfl⟩, rfl⟩
      · obtain ⟨rfl, rfl⟩ : source = none ∧ destination = none := by simpa using hBound
        constructor
        · rintro ⟨⟩
          exact .noNetwork
        · intro h
          cases h with
          | noNetwork => rfl
          | networks hSome => exact absurd hSome hBound
  | time startTime endTime =>
      by_cases hBound : startTime.isSome ∨ endTime.isSome
      · simp only [toSegment_time hBound, bind_eq_ok_iff, optionMapM_eq_ok_iff, toMillis_eq_ok_iff,
          TimeSegment.between_eq_ok_iff, Except.ok.injEq]
        constructor
        · rintro ⟨_, hStart, _, hEnd, s, ⟨rfl, rfl⟩, rfl⟩
          exact .times hBound hStart hEnd
        · intro h
          cases h with
          | noTime => simp at hBound
          | times _ hStart hEnd => exact ⟨_, hStart, _, hEnd, _, ⟨rfl, rfl⟩, rfl⟩
      · obtain ⟨rfl, rfl⟩ : startTime = none ∧ endTime = none := by simpa using hBound
        constructor
        · rintro ⟨⟩
          exact .noTime
        · intro h
          cases h with
          | noTime => rfl
          | times hSome => exact absurd hSome hBound

/-- An entry that denotes no segment has one fault, the first in the order of its parts. -/
theorem toSegment_eq_error_iff {entry : SegmentEntry} {cause : SegmentError} :
    entry.toSegment = .error cause ↔ entry.Fault cause := by
  cases entry with
  | subnet source destination twoWay =>
      by_cases hBound : source.isSome ∨ destination.isSome
      · simp only [toSegment_subnet twoWay hBound, bind_ok_eq_error_iff, parse_eq_error_iff,
          readNetwork_eq_error_iff]
        constructor
        · rintro (⟨text, rfl, hText, rfl⟩ | ⟨hSource, text, rfl, hText, rfl⟩)
          · exact .source hText
          · exact .destination hSource hText
        · intro h
          cases h with
          | source hText => exact .inl ⟨_, rfl, hText, rfl⟩
          | destination hSource hText => exact .inr ⟨hSource, _, rfl, hText, rfl⟩
      · obtain ⟨rfl, rfl⟩ : source = none ∧ destination = none := by simpa using hBound
        exact iff_of_false nofun nofun
  | time startTime endTime =>
      by_cases hBound : startTime.isSome ∨ endTime.isSome
      · simp only [toSegment_time hBound, bind_eq_error_iff, optionMapM_eq_error_iff,
          toMillis_eq_error_iff, optionMapM_eq_ok_iff, toMillis_eq_ok_iff,
          TimeSegment.between_eq_error_iff, reduceCtorEq, and_false, exists_false, or_false]
        constructor
        · rintro (⟨_, rfl, s, rfl, hText, rfl⟩ | ⟨_, hStart, ⟨_, rfl, s, rfl, hText, rfl⟩ |
            ⟨_, hEnd, start, hFirst, finish, hLast, hReversed, rfl⟩⟩)
          · exact .startTime hText
          · exact .endTime (exists_optionRel_iff.mp ⟨_, hStart⟩) hText
          · cases hFirst
            cases hLast
            cases hStart with
            | some hStart =>
                cases hEnd with
                | some hEnd => exact .reversed hStart hEnd hReversed
        · intro h
          cases h with
          | startTime hText => exact .inl ⟨_, rfl, _, rfl, hText, rfl⟩
          | endTime hStart hText =>
              obtain ⟨start, hStart⟩ := exists_optionRel_iff.mpr hStart
              exact .inr ⟨start, hStart, .inl ⟨_, rfl, _, rfl, hText, rfl⟩⟩
          | reversed hStart hEnd hReversed =>
              exact .inr ⟨_, .some hStart, .inr ⟨_, .some hEnd, _, rfl, _, rfl, hReversed, rfl⟩⟩
      · obtain ⟨rfl, rfl⟩ : startTime = none ∧ endTime = none := by simpa using hBound
        exact iff_of_false nofun nofun

/-- A segment has a fault iff one of its bounds tells nothing or its window is reversed. -/
theorem exists_fault_iff {entry : SegmentEntry} :
    (∃ cause, entry.Fault cause) ↔ ¬(entry.IsReadable ∧ ¬entry.IsReversed) := by
  constructor
  · rintro ⟨cause, hFault⟩ ⟨hReadable, hOrdered⟩
    cases hFault with
    | source hText => exact (hReadable.1 _ rfl).elim hText
    | destination _ hText => exact (hReadable.2 _ rfl).elim hText
    | startTime hText => exact (hReadable.1 _ rfl).elim hText
    | endTime _ hText => exact (hReadable.2 _ rfl).elim hText
    | reversed hStart hEnd hReversed =>
        exact hOrdered ⟨_, rfl, _, rfl, _, _, hStart, hEnd, hReversed⟩
  · intro h
    cases entry with
    | subnet source destination twoWay =>
        by_cases hSource : ∀ text ∈ source, ∃ n, Names text n
        · have hDestination : ¬∀ text ∈ destination, ∃ n, Names text n :=
            fun hAll => h ⟨⟨hSource, hAll⟩, not_false⟩
          obtain ⟨text, rfl, hText⟩ : ∃ text ∈ destination, ∀ n, ¬Names text n := by
            simpa using hDestination
          exact ⟨_, .destination hSource hText⟩
        · obtain ⟨text, rfl, hText⟩ : ∃ text ∈ source, ∀ n, ¬Names text n := by
            simpa using hSource
          exact ⟨_, .source hText⟩
    | time startTime endTime =>
        by_cases hStart : ∀ bound ∈ startTime, ∃ ms, bound.Tells ms
        · by_cases hEnd : ∀ bound ∈ endTime, ∃ ms, bound.Tells ms
          · have hReversed : IsReversed (time startTime endTime) := by
              by_contra hOrdered
              exact h ⟨⟨hStart, hEnd⟩, hOrdered⟩
            obtain ⟨_, rfl, _, rfl, _, _, hFirst, hLast, hLess⟩ := hReversed
            exact ⟨_, .reversed hFirst hLast hLess⟩
          · obtain ⟨bound, rfl, hBound⟩ : ∃ bound ∈ endTime, ∀ ms, ¬bound.Tells ms := by
              simpa using hEnd
            obtain ⟨s, rfl⟩ := exists_text_of_not_tells hBound
            exact ⟨_, .endTime hStart hBound⟩
        · obtain ⟨bound, rfl, hBound⟩ : ∃ bound ∈ startTime, ∀ ms, ¬bound.Tells ms := by
            simpa using hStart
          obtain ⟨s, rfl⟩ := exists_text_of_not_tells hBound
          exact ⟨_, .startTime hBound⟩

/-- An entry denotes a segment iff its parts can be read and its window is not reversed. -/
theorem exists_denotes_iff {entry : SegmentEntry} :
    (∃ segment, entry.Denotes segment) ↔ entry.IsReadable ∧ ¬entry.IsReversed := by
  rw [← not_iff_not, ← exists_fault_iff]
  simp only [← toSegment_eq_ok_iff, ← toSegment_eq_error_iff]
  cases entry.toSegment <;> simp

/-- An entry stands for one segment only. -/
theorem Denotes.unique {entry : SegmentEntry} {segment segment' : Option Segment}
    (h : entry.Denotes segment) (h' : entry.Denotes segment') : segment = segment' := by
  rw [← toSegment_eq_ok_iff] at h h'
  exact Except.ok.inj (h.symm.trans h')

/-- What an entry stands for has a bound, and its window is not reversed. -/
theorem Denotes.isProper {entry : SegmentEntry} {segment : Option Segment}
    (h : entry.Denotes segment) : ∀ s ∈ segment, s.IsProper := by
  rintro s hs
  cases h with
  | noNetwork => cases hs
  | noTime => cases hs
  | networks hSome hSource hDestination =>
      cases hs
      exact hSome.imp (isSome_of_rel hSource) (isSome_of_rel hDestination)
  | times hSome hStart hEnd =>
      cases hs
      exact ⟨hSome.imp (isSome_of_rel hStart) (isSome_of_rel hEnd), TimeSegment.ordered _⟩

end SegmentEntry

/-- Whether a tolerance lies between zero and one, both included. An undefined one does not. -/
def MetricEntry.InRange (m : MetricEntry) : Prop :=
  0.0 ≤ m.tolerance ∧ m.tolerance ≤ 1.0

instance (m : MetricEntry) : Decidable m.InRange :=
  inferInstanceAs (Decidable (_ ∧ _))

/-- The metric of an entry. -/
def MetricEntry.metric (m : MetricEntry) : Metric :=
  ⟨m.kind, m.tolerance⟩

namespace RuleEntry

/-- The rule that an entry stands for. -/
structure Denotes (entry : RuleEntry) (rule : Rule) : Prop where
  metrics : rule.metrics = entry.metrics.map MetricEntry.metric
  noSegment : entry.segment = none → rule.segment = none
  segment : ∀ s ∈ entry.segment, s.Denotes rule.segment

/-- Whether nothing is wrong with an entry. -/
structure IsValid (entry : RuleEntry) : Prop where
  tolerances : ∀ m ∈ entry.metrics, m.InRange
  bounds : ∀ s ∈ entry.segment, s.IsReadable
  windows : ∀ s ∈ entry.segment, ¬s.IsReversed
  distinct : (entry.metrics.map MetricEntry.kind).Nodup

/-- The first fault of an entry. -/
inductive Fault (entry : RuleEntry) : ConfigError → Prop
  | tolerance {before : List MetricEntry} {m : MetricEntry} {after : List MetricEntry} :
      entry.metrics = before ++ m :: after → (∀ other ∈ before, other.InRange) → ¬m.InRange →
      Fault entry (.tolerance ⟨m.kind, m.tolerance⟩)
  | segment {s : SegmentEntry} {cause : SegmentError} :
      (∀ m ∈ entry.metrics, m.InRange) → entry.segment = some s → s.Fault cause →
      Fault entry (.segment cause)
  | repetition {before : List MetricKind} {kind : MetricKind} {after : List MetricKind} :
      (∀ m ∈ entry.metrics, m.InRange) →
      (∀ s ∈ entry.segment, s.IsReadable ∧ ¬s.IsReversed) →
      entry.metrics.map MetricEntry.kind = before ++ kind :: after → before.Nodup →
      kind ∈ before → Fault entry (.duplicateMetric ⟨kind⟩)

end RuleEntry

theorem Metric.make_eq_ok_iff {m : MetricEntry} {metric : Metric} :
    make m.kind m.tolerance = .ok metric ↔ m.InRange ∧ m.metric = metric := by
  rw [make, MetricEntry.InRange]
  split
  · next h => simp [h, MetricEntry.metric]
  · next h => simp [h]

/-- A tolerance out of range is repeated in the error, with its metric. -/
theorem Metric.make_eq_error_iff {m : MetricEntry} {cause : ToleranceError} :
    make m.kind m.tolerance = .error cause ↔ ¬m.InRange ∧ ⟨m.kind, m.tolerance⟩ = cause := by
  rw [make, MetricEntry.InRange]
  split
  · next h => simp [h]
  · next h => simp [h]

namespace RuleEntry

/-- The metrics of an entry with checked tolerances. -/
def readMetrics (entry : RuleEntry) : Except ConfigError (List Metric) :=
  entry.metrics.mapM fun m => (Metric.make m.kind m.tolerance).mapError ConfigError.tolerance

/-- The segment of an entry with checked bounds. -/
def readSegment (entry : RuleEntry) : Except ConfigError (Option Segment) :=
  match entry.segment with
  | some s => s.toSegment.mapError ConfigError.segment
  | none => .ok none

variable {entry : RuleEntry}

theorem readMetrics_eq_ok_iff {metrics : List Metric} :
    entry.readMetrics = .ok metrics ↔
      (∀ m ∈ entry.metrics, m.InRange) ∧ metrics = entry.metrics.map MetricEntry.metric := by
  simp only [readMetrics, mapM_eq_ok_iff, mapError_eq_ok_iff, Metric.make_eq_ok_iff,
    List.forall₂_and_left]
  rw [← List.forall₂_map_left_iff, List.forall₂_eq_eq_eq, eq_comm]

/-- The first tolerance out of range is reported. -/
theorem readMetrics_eq_error_iff {e : ConfigError} :
    entry.readMetrics = .error e ↔ ∃ before m after, entry.metrics = before ++ m :: after ∧
      (∀ other ∈ before, other.InRange) ∧ ¬m.InRange ∧ .tolerance ⟨m.kind, m.tolerance⟩ = e := by
  simp only [readMetrics, mapM_eq_error_iff, mapError_eq_ok_iff, mapError_eq_error_iff,
    Metric.make_eq_ok_iff, Metric.make_eq_error_iff, and_assoc, exists_and_left, exists_eq_left',
    exists_eq', and_true]

theorem readSegment_eq_ok_iff {segment : Option Segment} :
    entry.readSegment = .ok segment ↔ (entry.segment = none → segment = none) ∧
      ∀ s ∈ entry.segment, s.Denotes segment := by
  rw [readSegment]
  cases entry.segment with
  | none => simp [eq_comm]
  | some s => simp [mapError_eq_ok_iff, SegmentEntry.toSegment_eq_ok_iff]

/-- The fault of a segment is passed on. -/
theorem readSegment_eq_error_iff {e : ConfigError} :
    entry.readSegment = .error e ↔
      ∃ s cause, entry.segment = some s ∧ s.Fault cause ∧ .segment cause = e := by
  rw [readSegment]
  cases entry.segment with
  | none => simp
  | some s => simp [mapError_eq_error_iff, SegmentEntry.toSegment_eq_error_iff]

/-- The order in which a rule is checked: its tolerances, its segment, and then its metrics against
each other. -/
theorem ofEntry_eq (entry : RuleEntry) :
    Rule.ofEntry entry = (do
      let metrics ← entry.readMetrics
      let segment ← entry.readSegment
      (Rule.mk metrics segment).checkDistinct.mapError ConfigError.duplicateMetric
      .ok ⟨metrics, segment⟩) := by
  rw [Rule.ofEntry, readMetrics, readSegment]
  cases entry.segment <;> rfl

theorem Denotes.kinds {rule : Rule} (h : entry.Denotes rule) :
    rule.kinds = entry.metrics.map MetricEntry.kind := by
  rw [Rule.kinds, h.metrics, List.map_map]
  rfl

/-- A rule is accepted iff its entry is valid, and it is the rule that the entry denotes. -/
theorem ofEntry_eq_ok_iff {rule : Rule} :
    Rule.ofEntry entry = .ok rule ↔ entry.IsValid ∧ entry.Denotes rule := by
  simp only [ofEntry_eq, bind_eq_ok_iff, readMetrics_eq_ok_iff, readSegment_eq_ok_iff,
    mapError_eq_ok_iff, Except.ok.injEq]
  constructor
  · rintro ⟨metrics, ⟨hTolerances, hMetrics⟩, segment, ⟨hNone, hSegment⟩, ⟨⟩, hDistinct, rfl⟩
    have hDenotes : entry.Denotes ⟨metrics, segment⟩ := ⟨hMetrics, hNone, hSegment⟩
    have hSound : ∀ s ∈ entry.segment, s.IsReadable ∧ ¬s.IsReversed :=
      fun s hs => SegmentEntry.exists_denotes_iff.mp ⟨_, hSegment s hs⟩
    exact ⟨⟨hTolerances, fun s hs => (hSound s hs).1, fun s hs => (hSound s hs).2,
      hDenotes.kinds ▸ Rule.checkDistinct_eq_ok_iff.mp hDistinct⟩, hDenotes⟩
  · rintro ⟨hValid, hDenotes⟩
    exact ⟨_, ⟨hValid.tolerances, hDenotes.metrics⟩, _, ⟨hDenotes.noSegment, hDenotes.segment⟩,
      (), Rule.checkDistinct_eq_ok_iff.mpr (hDenotes.kinds.symm ▸ hValid.distinct), rfl⟩

/-- A rule without a segment has no faulty one either. -/
theorem Denotes.isProper {rule : Rule} (h : entry.Denotes rule) :
    ∀ s ∈ rule.segment, s.IsProper := by
  intro s hs
  cases hSegment : entry.segment with
  | none => simp [h.noSegment hSegment] at hs
  | some written => exact (h.segment written hSegment).isProper s hs

/-- The error is the first fault of the entry. -/
theorem ofEntry_eq_error_iff {e : ConfigError} :
    Rule.ofEntry entry = .error e ↔ entry.Fault e := by
  simp only [ofEntry_eq, bind_eq_error_iff, readMetrics_eq_ok_iff, readMetrics_eq_error_iff,
    readSegment_eq_ok_iff, readSegment_eq_error_iff, mapError_eq_error_iff, reduceCtorEq,
    and_false, exists_false, or_false, Rule.checkDistinct_eq_error_iff]
  constructor
  · rintro (⟨before, m, after, hMetrics, hBefore, hRange, rfl⟩ | ⟨metrics, ⟨hTolerances, hMetrics⟩,
      ⟨s, cause, hs, hFault, rfl⟩ | ⟨segment, ⟨hNone, hSegment⟩, ⟨kind⟩, hRepeats, rfl⟩⟩)
    · exact .tolerance hMetrics hBefore hRange
    · exact .segment hTolerances hs hFault
    · have hDenotes : entry.Denotes ⟨metrics, segment⟩ := ⟨hMetrics, hNone, hSegment⟩
      obtain ⟨before, after, hKinds, hBefore, hKind⟩ := hRepeats
      refine .repetition hTolerances (fun s hs => ?_) (hDenotes.kinds ▸ hKinds) hBefore hKind
      exact SegmentEntry.exists_denotes_iff.mp ⟨_, hSegment s hs⟩
  · intro h
    cases h with
    | tolerance hMetrics hBefore hRange => exact .inl ⟨_, _, _, hMetrics, hBefore, hRange, rfl⟩
    | segment hTolerances hs hFault =>
        exact .inr ⟨_, ⟨hTolerances, rfl⟩, .inl ⟨_, _, hs, hFault, rfl⟩⟩
    | @repetition before kind after hTolerances hSound hKinds hBefore hKind =>
        obtain ⟨segment, hSegment⟩ : ∃ segment, entry.readSegment = .ok segment := by
          rw [readSegment]
          cases hs : entry.segment with
          | none => exact ⟨none, rfl⟩
          | some s =>
              obtain ⟨segment, hDenotes⟩ := SegmentEntry.exists_denotes_iff.mpr (hSound s hs)
              exact ⟨segment, mapError_eq_ok_iff.mpr (SegmentEntry.toSegment_eq_ok_iff.mpr hDenotes)⟩
        have hRead := readSegment_eq_ok_iff.mp hSegment
        have hDenotes : entry.Denotes ⟨entry.metrics.map MetricEntry.metric, segment⟩ :=
          ⟨rfl, hRead.1, hRead.2⟩
        exact .inr ⟨_, ⟨hTolerances, rfl⟩, .inr ⟨segment, hRead, ⟨kind⟩,
          ⟨before, after, hDenotes.kinds.trans hKinds, hBefore, hKind⟩, rfl⟩⟩

/-- A valid entry has no fault. -/
theorem IsValid.not_fault (h : entry.IsValid) {e : ConfigError} : ¬entry.Fault e := by
  intro hFault
  cases hFault with
  | tolerance hMetrics _ hRange => exact hRange (h.tolerances _ (by simp [hMetrics]))
  | segment _ hs hFault =>
      exact SegmentEntry.exists_fault_iff.mp ⟨_, hFault⟩ ⟨h.bounds _ hs, h.windows _ hs⟩
  | repetition _ _ hKinds _ hKind =>
      have hDistinct := hKinds ▸ h.distinct
      exact (List.nodup_append.mp hDistinct).2.2 _ hKind _ (List.mem_cons_self ..) rfl

theorem exists_ofEntry_iff : (∃ rule, Rule.ofEntry entry = .ok rule) ↔ entry.IsValid := by
  refine ⟨fun ⟨rule, hRule⟩ => (ofEntry_eq_ok_iff.mp hRule).1, fun hValid => ?_⟩
  cases hRule : Rule.ofEntry entry with
  | ok rule => exact ⟨rule, rfl⟩
  | error e => exact absurd (ofEntry_eq_error_iff.mp hRule) hValid.not_fault

end RuleEntry

namespace RuleSet

/-- A document without any rules. -/
theorem parse_no_rules : parse "rules: []" = .ok ⟨[], false⟩ := by
  have hTokens : Yaml.tokens? "rules: []" =
      some [.blockMapping, .key, .scalar .plain "rules", .value, .openSequence, .closeSequence,
        .blockEnd] := by cbv
  have hNode : Yaml.Node.parse? "rules: []" =
      some (.mapping none [(.scalar none .plain "rules", .sequence none [])]) := by
    rw [Yaml.Node.parse?, hTokens]
    rfl
  rw [parse, hNode]
  cbv

/-- A document without any rules that asks for a check of what lies outside of them. -/
theorem parse_complement_only :
    parse "{rules: [], check_complement: true}" = .ok ⟨[], true⟩ := by
  have hTokens : Yaml.tokens? "{rules: [], check_complement: true}" =
      some [.openMapping, .key, .scalar .plain "rules", .value, .openSequence, .closeSequence,
        .comma, .key, .scalar .plain "check_complement", .value, .scalar .plain "true",
        .closeMapping] := by cbv
  have hNode : Yaml.Node.parse? "{rules: [], check_complement: true}" =
      some (.mapping none [(.scalar none .plain "rules", .sequence none []),
        (.scalar none .plain "check_complement", .scalar none .plain "true")]) := by
    rw [Yaml.Node.parse?, hTokens]
    rfl
  rw [parse, hNode]
  cbv

/-- A document is accepted iff all of its entries are valid. Its rules are then what the entries
stand for, so their segments have bounds, their windows are not reversed, and validation never finds
a repeated kind. A document that is refused is refused for the first fault of its first invalid
entry. -/
theorem ofDocument_first_fault (d : RuleDocument) :
    ((∃ set, ofDocument d = .ok set) ↔ ∀ entry ∈ d.rules, entry.IsValid) ∧
    (∀ set, ofDocument d = .ok set →
      set.checkComplement = d.checkComplement ∧
      List.Forall₂ RuleEntry.Denotes d.rules set.rules ∧
      (∀ rule ∈ set.rules, ∀ s ∈ rule.segment, s.IsProper) ∧
      ∀ (c : Comparison) (checkComplement : Bool) (cause : DuplicateMetric),
        (c.validate set.rules checkComplement).outcome ≠ .error (.duplicateMetric cause)) ∧
    ∀ e, ofDocument d = .error e ↔ ∃ before entry after, d.rules = before ++ entry :: after ∧
      (∀ earlier ∈ before, earlier.IsValid) ∧ entry.Fault e := by
  refine ⟨?_, fun set hSet => ?_, fun e => ?_⟩
  · simp only [ofDocument, bind_eq_ok_iff, pure_eq_ok_iff, ← RuleEntry.exists_ofEntry_iff,
      ← exists_mapM_eq_ok_iff]
    rw [exists_comm]
    simp only [exists_and_left, exists_eq', and_true]
  · obtain ⟨rules, hRules, hEq⟩ := bind_eq_ok_iff.mp hSet
    cases hEq
    have hEntries : ∀ rule ∈ rules, ∃ entry ∈ d.rules, entry.IsValid ∧ entry.Denotes rule := by
      intro rule hRule
      obtain ⟨entry, hEntry, hRead⟩ := (mem_iff_of_mapM hRules).mp hRule
      exact ⟨entry, hEntry, RuleEntry.ofEntry_eq_ok_iff.mp hRead⟩
    refine ⟨rfl, ?_, fun rule hRule => ?_, fun c checkComplement cause hFails => ?_⟩
    · exact (mapM_eq_ok_iff.mp hRules).imp fun entry rule h => (RuleEntry.ofEntry_eq_ok_iff.mp h).2
    · obtain ⟨entry, _, _, hDenotes⟩ := hEntries rule hRule
      exact hDenotes.isProper
    · obtain ⟨before, rule, after, rfl, _, hRefused⟩ :=
        Comparison.outcome_validate_eq_error_iff.mp hFails
      obtain ⟨entry, _, hValid, hDenotes⟩ := hEntries rule (by simp)
      have hDistinct := Rule.checkDistinct_eq_ok_iff.mpr (hDenotes.kinds.symm ▸ hValid.distinct)
      cases hDistinct.symm.trans (Rule.checkDistinct_eq_error_iff.mpr hRefused)
  · rw [ofDocument]
    refine bind_ok_eq_error_iff.trans ?_
    simp only [mapM_eq_error_iff, RuleEntry.exists_ofEntry_iff, RuleEntry.ofEntry_eq_error_iff]

/-- A segment without bounds is left out. A reversed window is reported although a kind repeats in the
same rule and a later rule has an undefined tolerance. -/
theorem ofDocument_first_fault_reversed_window :
    let network : Network := ⟨.ofNat .v4 0x0a000000, 8, by decide⟩
    let fine : RuleEntry :=
      ⟨[⟨.packets, 0.0⟩, ⟨.bytes, 1.0⟩], some (.subnet (some " 10.0.0.0/8") none true)⟩
    let unbounded : RuleEntry := ⟨[⟨.duration, 0.5⟩], some (.time none none)⟩
    let reversed : RuleEntry :=
      ⟨[⟨.flows, 0.5⟩, ⟨.flows, 0.5⟩],
        some (.time (some (.millis 2000)) (some (.text "1970-01-01T00:00:01Z")))⟩
    let undefined : RuleEntry := ⟨[⟨.flows, 0.0 / 0.0⟩], none⟩
    (∃ set, ofDocument ⟨[fine, unbounded], true⟩ = .ok set ∧
      set.rules.map Rule.segment = [some (.subnet ⟨some network, none, true⟩), none] ∧
      ∀ (c : Comparison) (cause : DuplicateMetric),
        (c.validate set.rules true).outcome ≠ .error (.duplicateMetric cause)) ∧
    ofDocument ⟨[fine, reversed, undefined], true⟩ = .error (.segment (.invertedTimes 2000 1000)) := by
  intro network fine unbounded reversed undefined
  have hNetwork : SubnetSegment.Names " 10.0.0.0/8" network := by
    rw [SubnetSegment.Names]
    cbv
  have hFine : fine.IsValid := by
    refine ⟨by decide, ?_, ?_, by decide⟩
    · rintro _ ⟨⟩
      exact ⟨fun _ h => Option.some.inj h ▸ ⟨network, hNetwork⟩, by simp⟩
    · rintro _ ⟨⟩
      exact not_false
  have hUnbounded : unbounded.IsValid := by
    refine ⟨by decide, ?_, ?_, by decide⟩
    · rintro _ ⟨⟩
      exact ⟨by simp, by simp⟩
    · rintro _ ⟨⟩ ⟨_, h, _⟩
      cases h
  have hLast : (TimeBound.text "1970-01-01T00:00:01Z").Tells 1000 := by
    rw [TimeBound.Tells]
    cbv
  obtain ⟨hAccepted, hMeaning, _⟩ := ofDocument_first_fault ⟨[fine, unbounded], true⟩
  obtain ⟨set, hSet⟩ := hAccepted.mpr (by simpa using ⟨hFine, hUnbounded⟩)
  obtain ⟨_, hRules, _, hDistinct⟩ := hMeaning set hSet
  refine ⟨⟨set, hSet, ?_, fun c => hDistinct c true⟩, ?_⟩
  · obtain ⟨first, _, hFirst, hRest, hEq⟩ := List.forall₂_cons_left_iff.mp hRules
    obtain ⟨second, _, hSecond, hNil, rfl⟩ := List.forall₂_cons_left_iff.mp hRest
    cases List.forall₂_nil_left_iff.mp hNil
    have hNetworks := (hFirst.segment _ rfl).unique
      (.networks (s := ⟨some network, none, true⟩) (by decide) (.some hNetwork) .none)
    simp [hEq, hNetworks, (hSecond.segment _ rfl).unique .noTime]
  · refine ((ofDocument_first_fault _).2.2 _).mpr ⟨[fine], reversed, [undefined], rfl, by simpa, ?_⟩
    exact .segment (by decide) rfl (.reversed rfl hLast (by decide))

end RuleSet

end FlowAudit
