import FlowAudit.Fixture.Difference
import FlowAudit.Fixture.Load
import FlowAudit.Report.Summary
/-!
Running fixtures. A check passes iff every expected output is equal to the output that the pipeline
produces, byte for byte; expected outputs can also be written anew.
-/
namespace FlowAudit

/-- Why a fixture cannot be run. -/
inductive RunError
  | load (cause : LoadError)
  | inputMismatch (name : String)
  | invalidNetwork (text : String)
  | dataset (cause : DatasetError)
  | config (cause : ConfigError)
  | merge (cause : MergeError)
  | validation (cause : ValidationError)
  | replication (cause : ReplicationError)
  | unwritable (path : String) (cause : FileError)

def RunError.message : RunError → String
  | load cause => s!"failed to load fixture: {cause.message}"
  | inputMismatch name => s!"invalid fixture inputs for {name}"
  | invalidNetwork text => s!"invalid prefilter subnet: {text}"
  | dataset cause => cause.message
  | config cause => cause.message
  | merge cause => cause.message
  | validation cause => cause.message
  | replication cause => cause.message
  | unwritable path cause => s!"failed to write {path}: {cause.message}"

/-- The result of a check. -/
structure CheckResult where
  fixture : String
  differences : List Difference
  deriving DecidableEq, Repr

namespace CheckResult

/-- Whether all outputs are as expected. -/
def passed (r : CheckResult) : Bool :=
  r.differences.isEmpty

/-- Whether one output is as expected. -/
def isAsExpected (r : CheckResult) (file : String) : Bool :=
  !r.differences.any fun d => d.file == file

end CheckResult

namespace Fixture

/-- The output of a replication: its table. -/
def runReplicate (s : ReplicateSettings) (table : String) (plan : Json) :
    Except RunError (List (String × String)) := do
  let input ← (Dataset.parse table).outcome.mapError RunError.dataset
  let replicator ← (Replicator.make plan s.ignored).outcome.mapError RunError.replication
  let flows ← (replicator.replicate input s.options).outcome.mapError RunError.replication
  return [("replicated.csv", flows.render)]

/-- The rules of a comparison: precise ones, or those of its rule document. -/
def rulesOf (name : String) (s : CompareSettings) (rules : Option String) :
    Except RunError RuleSet := do
  if s.precise then
    let networks ← s.networks.mapM fun text =>
      match Network.parse? text with
      | some n => .ok n
      | none => .error (RunError.invalidNetwork text)
    return .precise networks
  else match rules with
    | some text => (RuleSet.parse text).mapError RunError.config
    | none => throw (.inputMismatch name)

/-- The outputs of a comparison: its report and the summary of it. -/
def runCompare (name : String) (s : CompareSettings) (flows reference : String)
    (stats : GeneratorStats) (rules : Option String) :
    Except RunError (List (String × String)) := do
  let rules ← rulesOf name s rules
  let flows ← (Dataset.parse flows).outcome.mapError RunError.dataset
  let reference ← (Dataset.parse reference).outcome.mapError RunError.dataset
  let c ← (Comparison.prepare flows reference stats s.options).outcome.mapError RunError.merge
  let report ← (c.validate rules.rules rules.checkComplement).outcome.mapError RunError.validation
  return [("report.md", report.document),
    ("summary.json", (Summary.ofReport report).text ++ "\n")]

/-- Runs the pipeline of a fixture. Its outputs come by ascending names. -/
def run (f : Fixture) : Except RunError (List (String × String)) :=
  match f.scenario.pipeline, f.inputs with
  | .replicate s, .replicate table plan => runReplicate s table plan
  | .compare s, .compare flows reference stats rules =>
    runCompare f.scenario.name s flows reference stats rules
  | _, _ => .error (.inputMismatch f.scenario.name)

/-- The output of a name, empty if there is none. -/
def outputOf (outputs : List (String × String)) (file : String) : String :=
  (outputs.lookup file).getD ""

/-- Runs a fixture and compares what is expected with what it produces. -/
def check (f : Fixture) : Except RunError CheckResult := do
  let outputs ← f.run
  let differences := f.expected.filterMap fun (file, content) =>
    Difference.between file content (outputOf outputs file)
  return ⟨f.scenario.name, differences⟩

/-- Loads a fixture by its name and checks it. -/
def checkNamed (tree : FileTree) (base name : String) : Except RunError CheckResult := do
  check (← (load tree base name).mapError RunError.load)

/-- Writes files into a directory. -/
def writeAll (directory : String) (outputs : List (String × String)) :
    List String → FileTree → Except RunError FileTree
  | [], tree => .ok tree
  | file :: rest, tree => do
    let path := joinPath directory file
    let tree ← (tree.write path (outputOf outputs file)).mapError (RunError.unwritable path)
    writeAll directory outputs rest tree

/-- The last name of a path. -/
def nameOf (directory : String) : String :=
  match (trimComponents (directory.splitOn "/")).getLast? with
  | none | some ".." => "unknown"
  | some name => name

/-- Runs the fixture in a directory and replaces its expected outputs by what it produces. Nothing
is written unless the run succeeds, and no output is added. -/
def regenerate (tree : FileTree) (directory : String) : Except RunError FileTree := do
  let f ← (loadFrom tree directory (nameOf directory)).mapError RunError.load
  let outputs ← f.run
  writeAll (joinPath directory "expected") outputs (f.expected.map Prod.fst) tree

end Fixture

end FlowAudit
