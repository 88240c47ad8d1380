import FlowAudit.Metric
import FlowAudit.Segment
/-!
Rules: the metrics to be evaluated on a part of the data. The precise rules tolerate no difference
in any metric, either on all data or on each of several networks.
-/
namespace FlowAudit

/-- Metrics and the segment on which they are evaluated. Without a segment all data count. -/
structure Rule where
  metrics : List Metric
  segment : Option Segment

/-- A rule lists a metric kind twice. -/
structure DuplicateMetric where
  kind : MetricKind
  deriving DecidableEq

def DuplicateMetric.message (e : DuplicateMetric) : String :=
  s!"rule contains duplicated metric {e.kind.name}"

/-- The first member of a list that occurs before itself. -/
def firstRepeated {α : Type} [DecidableEq α] (seen : List α) : List α → Option α
  | [] => none
  | a :: rest => if a ∈ seen then some a else firstRepeated (a :: seen) rest

namespace Rule

/-- A rule that tolerates no difference of any of the kinds. -/
def zeroTolerance (kinds : List MetricKind) (segment : Option Segment) : Rule :=
  ⟨kinds.map Metric.exact, segment⟩

/-- The metric kinds of the rule in order. -/
def kinds (r : Rule) : List MetricKind :=
  r.metrics.map Metric.kind

/-- Fails on the first metric kind that repeats. -/
def checkDistinct (r : Rule) : Except DuplicateMetric Unit :=
  match firstRepeated [] r.kinds with
  | some kind => .error ⟨kind⟩
  | none => .ok ()

/-- The rules of the precise model: one on all data, or one for each network that takes both
directions of its traffic. -/
def precise (networks : List Network) : List Rule :=
  if networks.isEmpty then [zeroTolerance MetricKind.all none]
  else networks.map fun n =>
    zeroTolerance MetricKind.all (some (.subnet ⟨some n, none, true⟩))

end Rule

/-- Rules together with the wish to check that no traffic lies outside of them. -/
structure RuleSet where
  rules : List Rule
  checkComplement : Bool

/-- The precise rules of some networks. Traffic outside of them is checked if there are any. -/
def RuleSet.precise (networks : List Network) : RuleSet :=
  ⟨Rule.precise networks, !networks.isEmpty⟩

end FlowAudit
