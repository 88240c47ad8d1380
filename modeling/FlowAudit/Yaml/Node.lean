import FlowAudit.Yaml.WrittenNode
/-!
The tree that YAML text describes. Aliases are replaced by the nodes that they point at, so a tree
has no names any more; the count of replacements and the depth of the tree are limited.
-/
namespace FlowAudit.Yaml

/-- A node of the tree. The empty text has no node, which `void` stands for. -/
inductive Node
  | void
  | scalar (tag : Option Tag) (style : Style) (text : String)
  | sequence (tag : Option Tag) (items : List Node)
  | mapping (tag : Option Tag) (members : List (Node × Node))
  deriving Repr

namespace WrittenNode

/-- The anchor of a node. -/
def anchor? : WrittenNode → Option Nat
  | reference _ => none
  | scalar anchor .. => anchor
  | sequence anchor .. => anchor
  | mapping anchor .. => anchor

/-- A node with its number, if it has one. -/
def numbered (n : WrittenNode) : List (Nat × WrittenNode) :=
  (n.anchor?.map fun number => (number, n)).toList

mutual

/-- All nodes with anchors, in the order in which they begin. -/
def anchored : WrittenNode → List (Nat × WrittenNode)
  | sequence anchor tag items => (sequence anchor tag items).numbered ++ anchoredItems items
  | mapping anchor tag members =>
    (mapping anchor tag members).numbered ++ anchoredMembers members
  | leaf => leaf.numbered

def anchoredItems : List WrittenNode → List (Nat × WrittenNode)
  | [] => []
  | item :: rest => item.anchored ++ anchoredItems rest

def anchoredMembers : List (WrittenNode × WrittenNode) → List (Nat × WrittenNode)
  | [] => []
  | (key, value) :: rest => key.anchored ++ value.anchored ++ anchoredMembers rest

end

/-- The node that an alias points at, which is the first one of its number in the given list.
Other nodes stand for themselves. The state counts how often aliases may still be followed. -/
def follow? (targets : List (Nat × WrittenNode)) : WrittenNode → StateT Nat Option WrittenNode
  | reference number => fun
    | 0 => none
    | left + 1 => (targets.lookup number).map fun n => (n, left)
  | n => pure n

/-- The tree below a node, in which collections nest to a given depth. A node that contains itself
has no tree. -/
def expand? (targets : List (Nat × WrittenNode)) :
    Nat → WrittenNode → StateT Nat Option Node
  | 0, n => do
    match ← n.follow? targets with
    | scalar _ tag style text => return .scalar tag style text
    | _ => failure
  | depth + 1, n => do
    match ← n.follow? targets with
    | reference _ => failure
    | scalar _ tag style text => return .scalar tag style text
    | sequence _ tag items => return .sequence tag (← items.mapM (expand? targets depth))
    | mapping _ tag members =>
      let members ← members.mapM fun (key, value) => do
        let key ← expand? targets depth key
        let value ← expand? targets depth value
        return (key, value)
      return .mapping tag members

end WrittenNode

/-- Collections may nest to this depth. -/
def deepest : Nat :=
  128

/-- Reads the directives in front of a document. There is at most one version, which must be
known, and at most one meaning for each handle. -/
def readDirectives? (version : Bool) (handles : List (String × Tag)) :
    List Token → Option (Bool × List (String × Tag) × List Token)
  | .directive (.version major minor) :: rest =>
    if version ∨ major ≠ 1 ∨ (minor ≠ 1 ∧ minor ≠ 2) then none
    else readDirectives? true handles rest
  | .directive (.tag handle start) :: rest =>
    if (handles.lookup handle).isSome then none
    else readDirectives? version (handles ++ [(handle, start)]) rest
  | rest => some (version, handles, rest)

/-- The meanings of handles that need no directive. -/
def defaultHandles : List (String × Tag) :=
  [("!", .ofText "!"), ("!!", .core "")]

/-- Reads the content of the document and what ends it. There is only one document, and aliases
are followed at most a hundred times as often as there are nodes. -/
def readDocument? (explicit : Bool) (r : Reading) : Option Node := do
  let steps := 8 * r.tokens.length + 8
  let isEnd := r.tokens.isEmpty || r.isAt [.documentStart, .documentEnd] ||
    r.tokens.head?.any fun | .directive _ => true | _ => false
  let (root, r) ← if explicit ∧ isEnd then some (.absent, r.count) else readNode? steps .block r
  if !(r.tokens.all fun t => t == .documentEnd) then none
  let (node, _) ← (root.expand? root.anchored.reverse deepest).run (100 * r.events)
  return node

/-- The tree of a text with at most one document. -/
def Node.parse? (text : String) : Option Node := do
  let tokens ← tokens? text
  if tokens.isEmpty then return .void
  let (_, handles, rest) ← readDirectives? false [] tokens
  let explicit := rest.head? = some .documentStart
  if rest.length ≠ tokens.length ∧ !explicit then none
  readDocument? explicit ⟨if explicit then rest.tail else rest, [], handles ++ defaultHandles, 0⟩

end FlowAudit.Yaml
