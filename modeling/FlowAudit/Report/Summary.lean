import FlowAudit.Json.Printer
import FlowAudit.Json.Reader
import FlowAudit.Report
/-!
Summaries: what a report says in a form for other programs. A summary is written as a record and
can be read back.
-/
namespace FlowAudit

/-- One outcome in a summary. -/
structure OutcomeSummary where
  metric : String
  segment : String
  value : Float
  reference : Float
  difference : Float
  tolerance : Float
  passed : Bool

/-- A report in numbers and texts. -/
structure Summary where
  version : UInt32
  passed : Bool
  totalTests : UInt64
  failedTests : UInt64
  outcomes : List OutcomeSummary

namespace OutcomeSummary

def ofOutcome (o : Outcome) : OutcomeSummary where
  metric := o.metric.kind.name
  segment := o.scope.text
  value := o.value
  reference := o.reference
  difference := o.difference
  tolerance := o.metric.tolerance
  passed := o.passes

def toJson (o : OutcomeSummary) : Json :=
  let real (x : Float) := Json.number (.real x)
  .object [("metric", .string o.metric), ("segment", .string o.segment), ("value", real o.value),
    ("reference", real o.reference), ("diff", real o.difference),
    ("tolerance", real o.tolerance), ("passed", .bool o.passed)]

def names : List String :=
  ["metric", "segment", "value", "reference", "diff", "tolerance", "passed"]

def ofJson? (json : Json) : Option OutcomeSummary := do
  match ← json.fields? names with
  | [some metric, some segment, some value, some reference, some difference, some tolerance,
      some passed] =>
    return ⟨← metric.toText?, ← segment.toText?, ← value.toFloat?, ← reference.toFloat?,
      ← difference.toFloat?, ← tolerance.toFloat?, ← passed.toBool?⟩
  | _ => none

end OutcomeSummary

namespace Summary

/-- The version of the format. -/
def currentVersion : UInt32 :=
  1

def ofReport (r : Report) : Summary where
  version := currentVersion
  passed := r.passes
  totalTests := UInt64.ofNat r.length
  failedTests := UInt64.ofNat r.failed.length
  outcomes := r.map OutcomeSummary.ofOutcome

def toJson (s : Summary) : Json :=
  .object [("summary_version", .number (.natural s.version.toUInt64)),
    ("passed", .bool s.passed), ("total_tests", .number (.natural s.totalTests)),
    ("failed_tests", .number (.natural s.failedTests)),
    ("outcomes", .array (s.outcomes.map OutcomeSummary.toJson))]

/-- The summary as text with one member on a line. -/
def text (s : Summary) : String :=
  s.toJson.pretty 0

def names : List String :=
  ["summary_version", "passed", "total_tests", "failed_tests", "outcomes"]

def ofJson? (json : Json) : Option Summary := do
  match ← json.fields? names with
  | [some version, some passed, some total, some failed, some outcomes] =>
    return {
      version := UInt32.ofNat (← version.toNatUpTo? (UInt32.size - 1))
      passed := ← passed.toBool?
      totalTests := UInt64.ofNat (← total.toNatUpTo? (UInt64.size - 1))
      failedTests := UInt64.ofNat (← failed.toNatUpTo? (UInt64.size - 1))
      outcomes := ← (← outcomes.toItems?).mapM OutcomeSummary.ofJson? }
  | _ => none

/-- What matters of a summary in JSON. -/
def part : Json.Part :=
  .fields (names.map fun name =>
    (name, if name = "outcomes" then .items (.record OutcomeSummary.names) else .whole))

/-- Reads a summary from text. -/
def parse? (text : String) : Option Summary :=
  (Json.readPart? part text).bind ofJson?

end Summary

end FlowAudit
