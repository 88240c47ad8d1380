/-!
A tree of directories and text files, addressed by slash-separated paths. A path begins at the
root of the tree, which itself lies somewhere in a file system. Of that one, only what every file
system offers is known: a few directories and the null device. Reading and writing fail in the
ways in which a file system refuses a path.

Contents are texts. A file that holds no valid text, or that may not be read, has no node here. The
errors that only such a file can cause are therefore not among those below, and an existing file of
this kind is like one that is absent.
-/
namespace FlowAudit

/-- Why a path cannot be read or written. -/
inductive FileError
  | notFound
  | notDirectory
  | isDirectory
  deriving DecidableEq, Repr

def FileError.message : FileError → String
  | notFound => "No such file or directory (os error 2)"
  | notDirectory => "Not a directory (os error 20)"
  | isDirectory => "Is a directory (os error 21)"

/-- What a path leads to. The content of a file is a text: bytes that encode none are not modelled.
A sink takes every text that is written to it and keeps none. -/
inductive FileNode
  | directory
  | file (content : String)
  | sink
  deriving DecidableEq, Repr

/-- The names on the way from the root to a node. The way to a directory above the root consists of
double points, and a way from the top of the file system begins with a slash. -/
abbrev Location := List String

/-- The top of the file system. -/
def Location.top : Location :=
  ["/"]

/-- Whether a location is the root or lies above it. -/
def Location.isAtOrAboveRoot (l : Location) : Bool :=
  l.all (· == "..")

/-- The directory around a location. The top is its own one. -/
def Location.parent (l : Location) : Location :=
  if l = top then top
  else if l.isAtOrAboveRoot then l ++ [".."]
  else l.dropLast

/-- Goes along one component of a path. -/
def Location.enter (l : Location) (name : String) : Location :=
  if name = "." then l else if name = ".." then l.parent else l ++ [name]

/-- The directories right below the top that every file system has. -/
def standardDirectories : List String :=
  ["dev", "etc", "home", "tmp", "usr", "var"]

/-- The device that swallows what is written to it. -/
def Location.nullDevice : Location :=
  top ++ ["dev", "null"]

/-- The node that every file system has at a location. The root, all directories above it and the
top always exist. -/
def Location.standardNode? (l : Location) : Option FileNode :=
  if l.isAtOrAboveRoot ∨ l = top ∨ l ∈ standardDirectories.map (top ++ [·]) then some .directory
  else if l = nullDevice then some .sink
  else none

/-- The nodes in which a tree differs from what every file system has, each with its location. -/
structure FileTree where
  nodes : List (Location × FileNode)
  deriving DecidableEq

namespace FileTree

/-- The tree without any files. -/
def empty : FileTree :=
  ⟨[]⟩

/-- The node at a location: what the tree holds there, or else what every file system has. -/
def node? (t : FileTree) (l : Location) : Option FileNode :=
  (t.nodes.lookup l).or l.standardNode?

/-- Puts a node at a location in place of what was there. -/
def put (t : FileTree) (l : Location) (n : FileNode) : FileTree :=
  ⟨(l, n) :: t.nodes.filter fun entry => entry.1 != l⟩

/-- The components of a path. -/
def components (path : String) : List String :=
  (path.splitOn "/").filter (· != "")

/-- Where a path begins. -/
def origin (path : String) : Location :=
  if path.startsWith "/" then .top else []

/-- The location of a path on which all directories exist. -/
def locationOf (path : String) : Location :=
  (components path).foldl Location.enter (origin path)

/-- Steps along components. Each step needs a directory to start from; the last one may lead to
nothing. -/
def walk (t : FileTree) (l : Location) : List String → Except FileError Location
  | [] => .ok l
  | name :: rest =>
    match t.node? l with
    | none => .error .notFound
    | some .directory => t.walk (l.enter name) rest
    | some _ => .error .notDirectory

/-- The location of a path. The empty path has none. -/
def locate (t : FileTree) (path : String) : Except FileError Location :=
  if path.isEmpty then .error .notFound else t.walk (origin path) (components path)

/-- The node at a path. A path that ends with a slash leads to a directory. -/
def find (t : FileTree) (path : String) : Except FileError FileNode := do
  match t.node? (← t.locate path) with
  | none => throw .notFound
  | some .directory => return .directory
  | some node => if path.endsWith "/" then throw .notDirectory else return node

/-- Whether a path leads to something. -/
def hasPath (t : FileTree) (path : String) : Bool :=
  (t.find path).isOk

/-- The content of the file at a path. A sink reads as an empty file. -/
def read (t : FileTree) (path : String) : Except FileError String := do
  match ← t.find path with
  | .directory => throw .isDirectory
  | .file content => return content
  | .sink => return ""

/-- Writes a file at a path, in place of the file that was there; a sink stays what it is. The
directory around it must exist, and a path that ends with a slash can only name a directory. -/
def write (t : FileTree) (path content : String) : Except FileError FileTree := do
  let l ← t.locate path
  let node := t.node? l
  if path.endsWith "/" ∨ node = some .directory then throw .isDirectory
  return if node = some .sink then t else t.put l (.file content)

/-- The known names in a directory, in ascending order. -/
def names (t : FileTree) (path : String) : Except FileError (List String) := do
  let l ← t.locate path
  match t.node? l with
  | none => throw .notFound
  | some .directory =>
    let children := t.nodes.filterMap fun entry =>
      match entry.1.getLast? with
      | some name => if entry.1.dropLast = l then some name else none
      | none => none
    return children.eraseDups.mergeSort fun a b => decide (a ≤ b)
  | some _ => throw .notDirectory

/-- Adds the directories along a location that do not exist yet. -/
def addDirectory (t : FileTree) (l : Location) : FileTree :=
  ((List.range (l.length + 1)).map l.take).foldl
    (fun t l => if (t.node? l).isSome then t else t.put l .directory) t

/-- Adds a file together with the directories above it. -/
def addFile (t : FileTree) (l : Location) (content : String) : FileTree :=
  (t.addDirectory l.dropLast).put l (.file content)

end FileTree

/-- Appends a path to a path. If the second one begins at the top, it stands alone. -/
def joinPath (directory name : String) : String :=
  if name.startsWith "/" then name
  else if directory.isEmpty ∨ directory.endsWith "/" then directory ++ name
  else directory ++ "/" ++ name

end FlowAudit
