import FlowAudit.Comparison
import FlowAudit.Json.Printer
import FlowAudit.Json.Reader
import FlowAudit.Replication.Replicator
/-!
Scenarios of fixtures: a name, a description and the pipeline to be run with its options.
-/
namespace FlowAudit

/-- Options of a replication pipeline. -/
structure ReplicateSettings where
  options : ReplayOptions
  ignored : List UInt32

/-- Options of a comparison pipeline. -/
structure CompareSettings where
  options : PrepareOptions
  precise : Bool
  networks : List String

/-- What a fixture runs. -/
inductive Pipeline
  | replicate (s : ReplicateSettings)
  | compare (s : CompareSettings)

/-- A fixture's description of itself. -/
structure Scenario where
  name : String
  description : String
  pipeline : Pipeline

/-- Reads an optional field and falls back to a default where it is absent. -/
def fieldOr {α : Type} (read? : Json → Option α) (default : α) : Option Json → Option α
  | none => some default
  | some json => read? json

namespace Pipeline

/-- The names of the files that a pipeline produces, in ascending order. -/
def outputNames : Pipeline → List String
  | replicate _ => ["replicated.csv"]
  | compare _ => ["report.md", "summary.json"]

def word32? (json : Json) : Option UInt32 :=
  (json.toNatUpTo? (UInt32.size - 1)).map UInt32.ofNat

/-- A word that may be null. -/
def optionalWord? : Json → Option (Option UInt64)
  | .null => some none
  | json => (json.toNatUpTo? (UInt64.size - 1)).map fun n => some (UInt64.ofNat n)

/-- A list of which every item can be read. -/
def list? {α : Type} (read? : Json → Option α) (json : Json) : Option (List α) := do
  (← json.toItems?).mapM read?

def replicateNames : List String :=
  ["loops", "merge_across_loops", "inactive_timeout_ms", "speed_multiplier", "ignore_loops"]

def compareNames : List String :=
  ["merge", "biflows", "align_reference", "precise", "prefilter"]

/-- Reads the options of a replication. All of them may be left out. -/
def readReplicate? (json : Json) : Option Pipeline := do
  match ← json.fields? replicateNames with
  | [loops, merge, timeout, speed, ignored] =>
    let options : ReplayOptions := {
      loops := ← fieldOr word32? 1 loops
      mergeAcrossLoops := ← fieldOr Json.toBool? false merge
      inactiveTimeout := ← fieldOr optionalWord? none timeout
      speed := ← fieldOr Json.toFloat? 1.0 speed }
    return replicate ⟨options, ← fieldOr (list? word32?) [] ignored⟩
  | _ => none

/-- Reads the options of a comparison. All of them may be left out. -/
def readCompare? (json : Json) : Option Pipeline := do
  match ← json.fields? compareNames with
  | [merge, biflows, align, precise, networks] =>
    let options : PrepareOptions := {
      merge := ← fieldOr Json.toBool? false merge
      alignConversations := ← fieldOr Json.toBool? false biflows
      alignReference := ← fieldOr Json.toBool? false align }
    return compare ⟨options, ← fieldOr Json.toBool? false precise,
      ← fieldOr (list? Json.toText?) [] networks⟩
  | _ => none

/-- Reads the options of a kind of pipeline. -/
def readKind? (kind : Json) (options : Json) : Option Pipeline :=
  if kind.toText? = some "replicate" then readReplicate? options
  else if kind.toText? = some "compare" then readCompare? options
  else none

/-- Reads a pipeline. Its kind is a member of an object or the first item of an array. -/
def ofJson? : Json → Option Pipeline
  | .object members =>
    match members.filter fun m => m.1 == "kind" with
    | [(_, kind)] => readKind? kind (.object members)
    | _ => none
  | .array (kind :: options) => readKind? kind (.array options)
  | _ => none

def toJson : Pipeline → Json
  | replicate s =>
    .object [("kind", .string "replicate"),
      ("loops", .number (.natural s.options.loops.toUInt64)),
      ("merge_across_loops", .bool s.options.mergeAcrossLoops),
      ("inactive_timeout_ms",
        (s.options.inactiveTimeout.map fun ms => Json.number (.natural ms)).getD .null),
      ("speed_multiplier", .number (.real s.options.speed)),
      ("ignore_loops", .array (s.ignored.map fun n => .number (.natural n.toUInt64)))]
  | compare s =>
    .object [("kind", .string "compare"), ("merge", .bool s.options.merge),
      ("biflows", .bool s.options.alignConversations),
      ("align_reference", .bool s.options.alignReference), ("precise", .bool s.precise),
      ("prefilter", .array (s.networks.map Json.string))]

end Pipeline

namespace Scenario

def names : List String :=
  ["name", "description", "pipeline"]

def ofJson? (json : Json) : Option Scenario := do
  match ← json.fields? names with
  | [some name, some description, some pipeline] =>
    return ⟨← name.toText?, ← description.toText?, ← Pipeline.ofJson? pipeline⟩
  | _ => none

def toJson (s : Scenario) : Json :=
  .object [("name", .string s.name), ("description", .string s.description),
    ("pipeline", s.pipeline.toJson)]

end Scenario

end FlowAudit
