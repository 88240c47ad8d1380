import FlowAudit.Fixture.Scenario
import FlowAudit.Rule.Document
/-!
Fixtures: a scenario, its inputs, and the outputs that are expected of it. A fixture is a directory
of files, and fixtures lie together in one directory.
-/
namespace FlowAudit

/-- The inputs of a pipeline. A comparison with precise rules has no rule document. -/
inductive FixtureInputs
  | replicate (table : String) (plan : Json)
  | compare (flows reference : String) (stats : GeneratorStats) (rules : Option String)

/-- A scenario with its inputs and the expected content of some of its outputs, by ascending
names. -/
structure Fixture where
  scenario : Scenario
  inputs : FixtureInputs
  expected : List (String × String)

/-- Why a fixture cannot be loaded. -/
inductive LoadError
  | notFound (name : String)
  | missingFile (file : String)
  | unreadable (path : String) (cause : FileError)
  | malformedJson (path : String)
  | noExpectedOutputs (name : String)
  | unknownOutput (name file : String)
  deriving DecidableEq

def LoadError.message : LoadError → String
  | notFound name => s!"fixture not found: {name}"
  | missingFile file => s!"missing file in fixture: {file}"
  | unreadable path cause => s!"failed to read file {path}: {cause.message}"
  | malformedJson path => s!"failed to parse JSON in {path}: ..."
  | noExpectedOutputs name => s!"no expected outputs in fixture: {name}"
  | unknownOutput name file => s!"unexpected output {file} in fixture {name}"

namespace Fixture

/-- Reads a file. -/
def readFile (tree : FileTree) (path : String) : Except LoadError String :=
  (tree.read path).mapError (.unreadable path)

/-- Reads a value from a file of JSON text. -/
def readJson {α : Type} (tree : FileTree) (path : String) (part : Json.Part)
    (ofJson? : Json → Option α) : Except LoadError α := do
  match (Json.readPart? part (← readFile tree path)).bind ofJson? with
  | some a => return a
  | none => throw (.malformedJson path)

/-- Reads a value from a file of JSON text if there is such a file. -/
def readJsonOr {α : Type} (tree : FileTree) (path : String) (part : Json.Part)
    (ofJson? : Json → Option α) (default : α) : Except LoadError α :=
  if tree.hasPath path then readJson tree path part ofJson? else .ok default

/-- Reads an input that a fixture cannot do without. -/
def readRequired (tree : FileTree) (directory name file : String) : Except LoadError String :=
  let path := joinPath directory file
  if tree.hasPath path then readFile tree path else .error (.missingFile s!"{name}/{file}")

/-- Reads the inputs that a pipeline needs. -/
def readInputs (tree : FileTree) (directory name : String) :
    Pipeline → Except LoadError FixtureInputs
  | .replicate _ => do
    let table ← readRequired tree directory name "input.csv"
    let plan ← readJsonOr tree (joinPath directory "replicator.json") .whole
      (fun json => some json.canonical) .null
    return .replicate table plan
  | .compare s => do
    let flows ← readRequired tree directory name "flows.csv"
    let reference ← readRequired tree directory name "reference.csv"
    let stats ← readJsonOr tree (joinPath directory "stats.json") (.record GeneratorStats.names)
      GeneratorStats.ofJson? .zero
    let rules ← if s.precise then pure none
      else some <$> readRequired tree directory name "rules.yaml"
    return .compare flows reference stats rules

/-- Reads the expected outputs. There must be at least one, and the pipeline must produce all of
them; directories beside them do not matter. -/
def readExpected (tree : FileTree) (directory name : String) (outputs : List String) :
    Except LoadError (List (String × String)) := do
  let path := joinPath directory "expected"
  if !tree.hasPath path then throw (.missingFile s!"{name}/expected/")
  let files ← (tree.names path).mapError (LoadError.unreadable path)
  let expected ← files.filterMapM fun file => do
    match tree.find (joinPath path file) with
    | .ok (.file content) =>
      if outputs.contains file then return some (file, content)
      else throw (.unknownOutput name file)
    | _ => return none
  if expected.isEmpty then throw (.noExpectedOutputs name)
  return expected

/-- Loads the fixture in a directory. -/
def loadFrom (tree : FileTree) (directory name : String) : Except LoadError Fixture := do
  let scenario ← readJson tree (joinPath directory "scenario.json") (.record Scenario.names)
    Scenario.ofJson?
  let inputs ← readInputs tree directory name scenario.pipeline
  let expected ← readExpected tree directory name scenario.pipeline.outputNames
  return ⟨scenario, inputs, expected⟩

/-- The directory of the tool that checks fixtures. -/
def toolDirectory : String :=
  "flowval-conformance"

/-- Leaves out what leads nowhere at the end of a path: empty components and single points. -/
def trimComponents (components : List String) : List String :=
  (components.reverse.dropWhile fun name => name == "" || name == ".").reverse

/-- The directory of all fixtures, seen from a base directory. Seen from the directory of the tool,
it lies two levels up. -/
def directoryOf (base : String) : String :=
  let components := trimComponents (base.splitOn "/")
  if components.getLast? = some toolDirectory then
    match trimComponents components.dropLast with
    | [] => joinPath ".." "fixtures"
    | parent => String.intercalate "/" (trimComponents parent.dropLast ++ ["fixtures"])
  else joinPath base "fixtures"

/-- The names of all fixtures in ascending order. -/
def list (tree : FileTree) (base : String) : Except LoadError (List String) :=
  let directory := directoryOf base
  if tree.hasPath directory then do
    let names ← (tree.names directory).mapError (LoadError.unreadable directory)
    return names.filter fun name =>
      match tree.find (joinPath directory name) with
      | .ok .directory => true
      | _ => false
  else .ok []

/-- Loads a fixture by its name. -/
def load (tree : FileTree) (base name : String) : Except LoadError Fixture :=
  let directory := joinPath (directoryOf base) name
  if tree.hasPath directory then loadFrom tree directory name else .error (.notFound name)

end Fixture

end FlowAudit
