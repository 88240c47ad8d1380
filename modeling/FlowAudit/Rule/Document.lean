import FlowAudit.FileTree
import FlowAudit.Json.Reader
import FlowAudit.Rule
import FlowAudit.Yaml.Value
/-!
Rule documents. A document has the shape of rules but unchecked content: tolerances are any
numbers, and the bounds of segments are texts. `RuleSet.ofDocument` checks the content.
-/
namespace FlowAudit

/-- A time bound as written: milliseconds or a timestamp. -/
inductive TimeBound
  | millis (ms : UInt64)
  | text (s : String)
  deriving DecidableEq

/-- A segment as written. -/
inductive SegmentEntry
  | subnet (source destination : Option String) (twoWay : Bool)
  | time (startTime endTime : Option TimeBound)
  deriving DecidableEq

/-- A metric as written. -/
structure MetricEntry where
  kind : MetricKind
  tolerance : Float

/-- A rule as written. -/
structure RuleEntry where
  metrics : List MetricEntry
  segment : Option SegmentEntry

/-- A rule document. -/
structure RuleDocument where
  rules : List RuleEntry
  checkComplement : Bool

/-- Why a configuration file has no meaning. -/
inductive ConfigError
  | unreadable (path : String) (cause : FileError)
  | malformedYaml
  | malformedJson
  | tolerance (cause : ToleranceError)
  | duplicateMetric (cause : DuplicateMetric)
  | segment (cause : SegmentError)

/-- The message of an error. What exactly is malformed is not told. -/
def ConfigError.message : ConfigError → String
  | unreadable path cause => s!"failed to read file {path}: {cause.message}"
  | malformedYaml => "malformed YAML: ..."
  | malformedJson => "malformed JSON: ..."
  | tolerance cause => cause.message
  | duplicateMetric cause => cause.message
  | segment cause => cause.message

namespace TimeBound

/-- The bound in milliseconds. -/
def toMillis : TimeBound → Except SegmentError UInt64
  | millis ms => .ok ms
  | text s =>
    match Calendar.parse? s with
    | some ms => .ok (UInt64.ofNat ms)
    | none => .error (.invalidTime s)

/-- A bound that may be null. -/
def ofValue? : Yaml.Value → Option (Option TimeBound)
  | .null => some none
  | .natural n => some (some (millis n))
  | .signed n => if n = 0 then some (some (millis 0)) else none
  | .text s => some (some (text s))
  | _ => none

end TimeBound

namespace SegmentEntry

/-- The values of the named fields of a segment. They are given by name, by number or in order,
each at most once. -/
def values? (names : List String) : Yaml.Node → Option (List (Option Yaml.Value))
  | .mapping tag members => do
    if Yaml.isLocalTag tag then none
    let numbered ← members.mapM fun (key, value) => do
      let i ← match ← key.value? with
        | .text s => names.findIdx? (· == s)
        | .natural n => if n.toNat < names.length then some n.toNat else none
        | _ => none
      return (i, ← value.value?)
    let keys := numbered.map Prod.fst
    if keys.eraseDups.length ≠ keys.length then none
    return (List.range names.length).map fun i => numbered.lookup i
  | .sequence tag items => do
    if Yaml.isLocalTag tag ∨ names.length < items.length then none
    let values ← items.mapM Yaml.Node.value?
    return (List.range names.length).map fun i => values[i]?
  | _ => none

/-- A text that may be null. -/
def optionalText? : Yaml.Value → Option (Option String)
  | .null => some none
  | .text s => some (some s)
  | _ => none

/-- Reads a field that may be left out. -/
def optional? {α β : Type} (read? : α → Option (Option β)) : Option α → Option (Option β)
  | none => some none
  | some a => read? a

/-- Reads networks of a segment. -/
def subnetOfNode? (n : Yaml.Node) : Option SegmentEntry := do
  match ← values? ["source", "dest", "bidir"] n with
  | [source, destination, twoWay] =>
    let source ← optional? optionalText? source
    let destination ← optional? optionalText? destination
    match twoWay with
    | none => return subnet source destination false
    | some (.bool b) => return subnet source destination b
    | some _ => none
  | _ => none

/-- Reads time bounds of a segment. -/
def timeOfNode? (n : Yaml.Node) : Option SegmentEntry := do
  match ← values? ["start", "end"] n with
  | [startTime, endTime] =>
    let startTime ← optional? TimeBound.ofValue? startTime
    let endTime ← optional? TimeBound.ofValue? endTime
    return time startTime endTime
  | _ => none

/-- Reads a segment that may be null. Networks are tried before time bounds. -/
def ofNode? : Yaml.Node → Option (Option SegmentEntry)
  | .scalar tag style s =>
    let null := if tag.isNone then s.isEmpty || Yaml.isNull s
      else tag == some (.core "null") && Yaml.isNull s
    if style = .plain ∧ null then some none else none
  | n => ((subnetOfNode? n).or (timeOfNode? n)).map some

/-- The segment of an entry, none if no bound is given. -/
def toSegment : SegmentEntry → Except SegmentError (Option Segment)
  | subnet none none _ => .ok none
  | time none none => .ok none
  | subnet source destination twoWay => do
    return some (.subnet (← SubnetSegment.parse source destination twoWay))
  | time startTime endTime => do
    let startTime ← startTime.mapM TimeBound.toMillis
    let endTime ← endTime.mapM TimeBound.toMillis
    return some (.time (← TimeSegment.between startTime endTime))

end SegmentEntry

namespace MetricEntry

/-- The exact name of a metric kind, or a private tag of that name on an empty scalar. -/
def kindOfNode? : Yaml.Node → Option MetricKind
  | .scalar tag style s =>
    match tag.bind Yaml.Tag.localName? with
    | some name =>
      if style = .plain ∧ (s.isEmpty ∨ Yaml.isNull s) then MetricKind.ofName? name else none
    | none => MetricKind.ofName? s
  | _ => none

def ofNode? (n : Yaml.Node) : Option MetricEntry := do
  match ← n.fields? ["key", "diff"] with
  | [some kind, some tolerance] => return ⟨← kindOfNode? kind, ← tolerance.toReal?⟩
  | _ => none

end MetricEntry

def RuleEntry.ofNode? (n : Yaml.Node) : Option RuleEntry := do
  match ← n.fields? ["metrics", "segment"] with
  | [some metrics, segment] =>
    let metrics ← (← metrics.items?).mapM MetricEntry.ofNode?
    let segment ← SegmentEntry.optional? SegmentEntry.ofNode? segment
    return ⟨metrics, segment⟩
  | _ => none

/-- Reads the shape of a rule document. -/
def RuleDocument.ofNode? (n : Yaml.Node) : Option RuleDocument := do
  match ← n.fields? ["rules", "check_complement"] with
  | [some rules, check] =>
    let rules ← (← rules.items?).mapM RuleEntry.ofNode?
    match check with
    | some check => return ⟨rules, ← check.toBool?⟩
    | none => return ⟨rules, false⟩
  | _ => none

/-- Checks one rule: its tolerances, then its segment, then that no kind repeats. -/
def Rule.ofEntry (entry : RuleEntry) : Except ConfigError Rule := do
  let metrics ← entry.metrics.mapM fun m =>
    (Metric.make m.kind m.tolerance).mapError ConfigError.tolerance
  let segment ← match entry.segment with
    | some s => s.toSegment.mapError ConfigError.segment
    | none => pure none
  let rule : Rule := ⟨metrics, segment⟩
  rule.checkDistinct.mapError ConfigError.duplicateMetric
  return rule

namespace RuleSet

/-- Checks the rules of a document in order. -/
def ofDocument (d : RuleDocument) : Except ConfigError RuleSet := do
  return ⟨← d.rules.mapM Rule.ofEntry, d.checkComplement⟩

/-- Reads rules from text. -/
def parse (text : String) : Except ConfigError RuleSet :=
  match (Yaml.Node.parse? text).bind RuleDocument.ofNode? with
  | some d => ofDocument d
  | none => .error .malformedYaml

end RuleSet

namespace ConfigError

/-- Reads the text of a configuration file. -/
def readFile (tree : FileTree) (path : String) : Except ConfigError String :=
  (tree.read path).mapError (unreadable path)

end ConfigError

/-- Reads rules from a file. -/
def RuleSet.load (tree : FileTree) (path : String) : Except ConfigError RuleSet := do
  RuleSet.parse (← ConfigError.readFile tree path)

def GeneratorStats.names : List String :=
  ["start_time", "end_time", "packets", "bytes"]

/-- Reads the totals of a run from a record of four counters. -/
def GeneratorStats.ofJson? (json : Json) : Option GeneratorStats := do
  match ← json.fields? names with
  | [some startTime, some endTime, some packets, some bytes] =>
    let word (json : Json) := (json.toNatUpTo? (UInt64.size - 1)).map UInt64.ofNat
    return ⟨← word startTime, ← word endTime, ← word packets, ← word bytes⟩
  | _ => none

/-- The record of the totals of a run. -/
def GeneratorStats.toJson (s : GeneratorStats) : Json :=
  .object [("start_time", .number (.natural s.startTime)),
    ("end_time", .number (.natural s.endTime)), ("packets", .number (.natural s.packets)),
    ("bytes", .number (.natural s.bytes))]

/-- Reads the totals of a run from a file. -/
def GeneratorStats.load (tree : FileTree) (path : String) : Except ConfigError GeneratorStats := do
  let text ← ConfigError.readFile tree path
  match (Json.readPart? (.record names) text).bind ofJson? with
  | some s => return s
  | none => throw .malformedJson

/-- Reads a replication plan as a plain value from a file. -/
def loadPlanValue (tree : FileTree) (path : String) : Except ConfigError Json := do
  match (Yaml.Node.parse? (← ConfigError.readFile tree path)).bind Yaml.Node.toJson? with
  | some json => return json
  | none => throw .malformedYaml

end FlowAudit
