import FlowAudit.Command.Run
/-!
The program itself. It takes a picture of the files that its arguments name, runs on the picture,
and writes what has changed in it.
-/
namespace FlowAudit

/-- The paths that a run may read. -/
def Invocation.inputs : Invocation → List String
  | compare a => [a.flows, a.reference] ++ a.stats.toList ++ a.rules.toList
  | replicate a => a.input :: a.plan.toList
  | _ => []

/-- The paths that a run may write. -/
def Invocation.outputs : Invocation → List String
  | compare a => a.report.toList ++ a.summary.toList
  | replicate a => [a.output]
  | _ => []

/-- Adds what is found at a path to a tree: a directory, a file or nothing. A file that cannot be
read as a text counts as nothing, because a tree holds texts only. A run then reports that there is
no such file, and the error of the file itself is not shown. -/
def addFound (tree : FileTree) (path : String) : IO FileTree := do
  let found := (← IO.currentDir) / path
  let l := FileTree.locationOf path
  if ← found.isDir then return tree.addDirectory l
  else
    match ← (IO.FS.readFile found).toBaseIO with
    | .ok content => return tree.addFile l content
    | .error _ => return tree

/-- Adds a path and the directories above it to a tree. -/
def addPath (tree : FileTree) (path : String) : IO FileTree := do
  let components := FileTree.components path
  let start := if path.startsWith "/" then "/" else ""
  let mut tree := tree
  for count in List.range components.length do
    tree ← addFound tree (start ++ String.intercalate "/" (components.take (count + 1)))
  return tree

/-- Writes a file if its content has changed. -/
def writeChanged (before after : FileTree) (path : String) : IO Unit :=
  match after.read path with
  | .ok content =>
    if (before.read path).toOption = some content then pure () else IO.FS.writeFile path content
  | .error _ => pure ()

/-- Runs a request on the files that it names. -/
def perform (i : Invocation) : IO UInt32 := do
  let before ← (i.inputs ++ i.outputs).foldlM addPath FileTree.empty
  let shown := i.run before
  i.outputs.forM (writeChanged before shown.tree)
  IO.print shown.printed
  IO.eprint shown.messages
  return UInt32.ofNat shown.exitCode

end FlowAudit

/-- Runs the program with its arguments. Arguments that make no sense end it with the code 2. -/
def main (arguments : List String) : IO UInt32 :=
  match FlowAudit.Invocation.read? arguments with
  | some i => FlowAudit.perform i
  | none => do
    IO.eprint FlowAudit.usageText
    return 2
