import FlowAudit.Command.Arguments
import FlowAudit.Comparison
import FlowAudit.Replication.Replicator
import FlowAudit.Report.Summary
import FlowAudit.Rule.Document
/-!
The program as a function of its arguments and of the files it finds. Everything that can fail
because of its input is done before the first file is written.
-/
namespace FlowAudit

/-- Why the program ends without success. -/
inductive CommandError
  | dataset (cause : DatasetError)
  | config (cause : ConfigError)
  | merge (cause : MergeError)
  | validation (cause : ValidationError)
  | replication (cause : ReplicationError)
  | invalidArgument (text : String)
  | unwritable (path : String) (cause : FileError)
  | testsFailed (failed total : Nat)

namespace CommandError

def message : CommandError → String
  | dataset cause => cause.message
  | config cause => cause.message
  | merge cause => cause.message
  | validation cause => cause.message
  | replication cause => cause.message
  | invalidArgument text => s!"invalid argument: {text}"
  | unwritable path cause => s!"failed to write {path}: {cause.message}"
  | testsFailed failed total => s!"{failed} of {total} tests failed"

/-- The exit code: 1 for a bad configuration, 2 for a file that cannot be read, 3 for bad data, 4
for failed tests and 5 for a file that cannot be written. -/
def exitCode : CommandError → Nat
  | dataset (.unreadable ..) => 2
  | dataset (.unwritable ..) => 5
  | dataset _ => 3
  | config (.unreadable ..) => 2
  | config _ => 1
  | merge _ => 3
  | validation (.duplicateMetric _) => 1
  | validation (.metric ..) => 3
  | replication (.counterOverflow _) => 3
  | replication _ => 1
  | invalidArgument _ => 1
  | unwritable .. => 5
  | testsFailed .. => 4

end CommandError

/-- What a run leaves behind: its messages, the files, what it printed and how it ended. -/
structure RunResult where
  log : Log
  tree : FileTree
  printed : String
  outcome : Except CommandError Unit

/-- Reads the networks of the command line. They are taken as they are, without trimming. -/
def readNetworks (texts : List String) : Except CommandError (List Network) :=
  texts.mapM fun text =>
    match Network.parse? text with
    | some n => .ok n
    | none =>
      .error (.invalidArgument s!"invalid prefilter subnet '{text}': invalid address: {text}")

namespace CompareArguments

/-- The rules of a comparison, and whether traffic outside of them is checked. -/
def ruleSet (a : CompareArguments) (tree : FileTree) : Except CommandError RuleSet := do
  let set ← match a.rules with
    | some path => (RuleSet.load tree path).mapError CommandError.config
    | none => (readNetworks a.networks).map RuleSet.precise
  return { set with checkComplement := set.checkComplement || a.checkComplement }

/-- Reads all inputs, the rules first, and compares. -/
def compare (a : CompareArguments) (tree : FileTree) : Traced CommandError Report := do
  let set ← a.ruleSet tree
  Traced.report .verbose s!"loaded {set.rules.length} rules"
  let flows ← (Dataset.load tree a.flows).mapError .dataset
  let reference ← (Dataset.load tree a.reference).mapError .dataset
  let stats ← match a.stats with
    | some path => (GeneratorStats.load tree path).mapError CommandError.config
    | none => pure .zero
  let options : PrepareOptions := ⟨a.merge, a.biflows, a.alignReference⟩
  let c ← (Comparison.prepare flows reference stats options).mapError .merge
  (c.validate set.rules set.checkComplement).mapError .validation

/-- Writes text into a file. -/
def writeText (tree : FileTree) (path text : String) : Except CommandError FileTree :=
  (tree.write path text).mapError (.unwritable path)

/-- How a run ends after its outputs have been written. -/
def verdict (report : Report) : Traced CommandError Unit :=
  let failed := report.failed.length
  if 0 < failed then .ofExcept (.error (.testsFailed failed report.length))
  else .report .normal s!"all {report.length} tests passed"

/-- Writes the summary, if one is asked for, and ends the run. -/
def finish (a : CompareArguments) (report : Report) (log : Log) (tree : FileTree)
    (printed : String) : RunResult :=
  let written := match a.summary with
    | some path => writeText tree path (Summary.ofReport report).text
    | none => .ok tree
  match written with
  | .error e => ⟨log, tree, printed, .error e⟩
  | .ok tree =>
    let last := verdict report
    ⟨log ++ last.log, tree, printed, last.outcome⟩

/-- Compares and writes the report into a file or prints it. -/
def run (a : CompareArguments) (tree : FileTree) : RunResult :=
  let compared := a.compare tree
  match compared.outcome with
  | .error e => ⟨compared.log, tree, "", .error e⟩
  | .ok report =>
    match a.report with
    | none => a.finish report compared.log tree report.document
    | some path =>
      match writeText tree path report.document with
      | .error e => ⟨compared.log, tree, "", .error e⟩
      | .ok tree => a.finish report compared.log tree ""

end CompareArguments

namespace ReplicateArguments

/-- Reads the plan and the recorded flows and replays them. -/
def replicate (a : ReplicateArguments) (tree : FileTree) : Traced CommandError Dataset := do
  let plan ← match a.plan with
    | some path => (loadPlanValue tree path).mapError CommandError.config
    | none => pure .null
  let replicator ← (Replicator.make plan a.ignored).mapError .replication
  let input ← (Dataset.load tree a.input).mapError .dataset
  (replicator.replicate input ⟨a.loops, a.mergeAcrossLoops, a.inactiveTimeout, a.speed⟩).mapError
    .replication

/-- Replays the flows and writes them into a file. -/
def run (a : ReplicateArguments) (tree : FileTree) : RunResult :=
  let replicated := a.replicate tree
  match replicated.outcome with
  | .error e => ⟨replicated.log, tree, "", .error e⟩
  | .ok flows =>
    match Dataset.save tree a.output flows with
    | .error e => ⟨replicated.log, tree, "", .error (.dataset e)⟩
    | .ok tree =>
      let last := ⟨.normal, s!"wrote {flows.length} flows to {a.output}"⟩
      ⟨replicated.log ++ [last], tree, "", .ok ()⟩

end ReplicateArguments

/-- What the program shows: its exit code, the text printed, and the text of its messages. -/
structure Shown where
  exitCode : Nat
  printed : String
  messages : String
  tree : FileTree

/-- Shows the messages of a run up to a verbosity and the error that ended it, one on a line. -/
def RunResult.show (r : RunResult) (verbosity : Nat) : Shown :=
  let lines := (r.log.shownAt (.ofCount verbosity)).map fun entry => entry.message ++ "\n"
  match r.outcome with
  | .ok () => ⟨0, r.printed, String.join lines, r.tree⟩
  | .error e =>
    ⟨e.exitCode, r.printed, String.join lines ++ s!"error: {e.message}\n", r.tree⟩

/-- The answer to a request for the version. -/
def versionText : String :=
  "flowval 0.3.0\n"

/-- A reminder of how the program is called. -/
def usageText : String :=
  "Usage: flowval compare --flows <FLOWS> --reference <REFERENCE> <--rules <RULES>|--precise>\n" ++
    "       flowval replicate --input <INPUT> --out <OUT>\n"

/-- Runs what is asked for. -/
def Invocation.run (i : Invocation) (tree : FileTree) : Shown :=
  match i with
  | compare a => (a.run tree).show a.verbosity
  | replicate a => (a.run tree).show a.verbosity
  | version => ⟨0, versionText, "", tree⟩
  | help => ⟨0, usageText, "", tree⟩

end FlowAudit
