import FlowAudit.Merge
import FlowAudit.Report
/-!
Comparing probe flows with a reference. `Comparison.prepare` aligns and merges the data;
`Comparison.validate` evaluates rules on them and reports one outcome for each metric.
-/
namespace FlowAudit

/-- How the data are prepared. -/
structure PrepareOptions where
  merge : Bool
  alignConversations : Bool
  alignReference : Bool
  deriving DecidableEq, Repr

/-- Prepared data and the totals of the generator. -/
structure Comparison where
  flows : Dataset
  reference : Dataset
  stats : GeneratorStats

/-- Why rules cannot be evaluated. -/
inductive ValidationError
  | duplicateMetric (cause : DuplicateMetric)
  | metric (rule : Nat) (cause : ZeroReference)

def ValidationError.message : ValidationError → String
  | duplicateMetric cause => cause.message
  | metric rule cause => s!"rule {rule}: {cause.message}"

/-- The flow at a later time. Times stop at the largest word. -/
def Flow.delay (f : Flow) (ms : UInt64) : Flow :=
  { f with
    startTime := Word.clamp (f.startTime.toNat + ms.toNat)
    endTime := Word.clamp (f.endTime.toNat + ms.toNat) }

namespace Comparison

/-- Takes the times of the reference as offsets from the start of the run, and leaves out probe
flows that start before the run. A run that starts at zero changes nothing. -/
def alignTimes (flows reference : Dataset) (start : UInt64) : Dataset × Dataset :=
  if start = 0 then (flows, reference)
  else (flows.filter fun f => decide (start ≤ f.startTime), reference.map fun f => f.delay start)

/-- Prepares both sides. Merging is refused if the reference has a key twice. -/
def prepare (flows reference : Dataset) (stats : GeneratorStats) (options : PrepareOptions) :
    Traced MergeError Comparison := do
  let (flows, reference) :=
    if options.alignReference then alignTimes flows reference stats.startTime
    else (flows, reference)
  let flows ←
    if options.merge then flows.merge reference options.alignConversations else pure flows
  Traced.report .verbose
    s!"comparing {flows.length} probe flows with {reference.length} reference flows"
  return ⟨flows, reference, stats⟩

/-- The outcome of one metric of a rule. -/
def outcome (c : Comparison) (rule : Rule) (metric : Metric) : Except ZeroReference Outcome := do
  let m ← Measurement.evaluate metric.kind (c.flows.restrict rule.segment)
    (c.reference.restrict rule.segment) c.stats
  return ⟨metric, .ofSegment rule.segment, m.value, m.reference, m.difference⟩

/-- The outcomes of a rule at a position. A rule that repeats a kind is refused before anything is
measured. -/
def evaluateRule (c : Comparison) (index : Nat) (rule : Rule) :
    Traced ValidationError (List Outcome) := do
  rule.checkDistinct.mapError ValidationError.duplicateMetric
  let scope := (Scope.ofSegment rule.segment).text
  Traced.report .verbose <|
    s!"rule {index}: {(c.flows.restrict rule.segment).length} probe flows, " ++
      s!"{(c.reference.restrict rule.segment).length} reference flows in {scope}"
  Traced.ofExcept <| (rule.metrics.mapM (c.outcome rule)).mapError (ValidationError.metric index)

/-- Marks what a mask selects in addition to what is marked already. -/
def mark : List Bool → List Bool → List Bool
  | covered :: rest, selected :: mask => (covered || selected) :: mark rest mask
  | covered, _ => covered

/-- The outcomes of rules from a position on. The marks tell which probe flows lie in the segment
of a rule, and each rule adds its own. -/
def evaluateRules (c : Comparison) :
    Nat → List Bool → List Rule → Traced ValidationError (List Outcome × List Bool)
  | _, covered, [] => pure ([], covered)
  | index, covered, rule :: rest => do
    let outcomes ← c.evaluateRule index rule
    let covered := mark covered (c.flows.mask rule.segment)
    let (more, covered) ← c.evaluateRules (index + 1) covered rest
    return (outcomes ++ more, covered)

/-- The outcome of a counter that should be zero outside of all rules. -/
def complementOutcome (kind : MetricKind) (total : Nat) : Outcome where
  metric := .exact kind
  scope := .complement
  value := Float.ofNat total
  reference := 0.0
  difference := if total = 0 then 0.0 else 1.0

/-- Evaluates rules in order. If wished, two more outcomes tell whether traffic was observed
outside of all rules. -/
def validate (c : Comparison) (rules : List Rule) (checkComplement : Bool) :
    Traced ValidationError Report := do
  let (outcomes, covered) ← c.evaluateRules 0 (List.replicate c.flows.length false) rules
  if checkComplement then
    let leaked := c.flows.select (covered.map not)
    Traced.report .verbose s!"{leaked.length} probe flows outside all segments"
    return outcomes ++ [complementOutcome .packets leaked.totalPackets,
      complementOutcome .bytes leaked.totalBytes]
  else return outcomes

end Comparison

end FlowAudit
