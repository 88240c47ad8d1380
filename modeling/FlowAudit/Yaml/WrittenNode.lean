import FlowAudit.Yaml.Token
/-!
The tree of YAML tokens as it is written: nodes bear anchors, and aliases point at anchors. An
anchor is known by a number, the count of the names that were in use before it. A name that is
given again does not raise that count, so the next anchor takes the same number.
-/
namespace FlowAudit.Yaml

/-- A node as it is written. -/
inductive WrittenNode
  | reference (number : Nat)
  | scalar (anchor : Option Nat) (tag : Option Tag) (style : Style) (text : String)
  | sequence (anchor : Option Nat) (tag : Option Tag) (items : List WrittenNode)
  | mapping (anchor : Option Nat) (tag : Option Tag) (members : List (WrittenNode × WrittenNode))
  deriving Repr

/-- A node that is not there, as after a key without a value. -/
def WrittenNode.absent : WrittenNode :=
  .scalar none none .plain ""

/-- The tokens that are left, the names in use with the number of their latest anchor, the handles
of tags, and the count of nodes and of ends of collections. -/
structure Reading where
  tokens : List Token
  numbers : List (String × Nat)
  handles : List (String × Tag)
  events : Nat

namespace Reading

/-- Goes over one token. -/
def drop (r : Reading) : Reading :=
  { r with tokens := r.tokens.tail }

/-- Counts one more node or end. -/
def count (r : Reading) : Reading :=
  { r with events := r.events + 1 }

/-- Whether one of the given tokens comes next. -/
def isAt (r : Reading) (ts : List Token) : Bool :=
  r.tokens.head?.any ts.contains

/-- Numbers an anchor. -/
def number (r : Reading) : Option String → Option Nat × Reading
  | some name =>
    let n := r.numbers.length
    (some n, { r with numbers := (name, n) :: r.numbers.filter fun known => known.1 != name })
  | none => (none, r)

/-- The meaning of a written tag. A tag without a handle is complete. -/
def resolve? (r : Reading) (t : WrittenTag) : Option Tag :=
  if t.handle.isEmpty then some t.remainder
  else (r.handles.lookup t.handle).map (· ++ t.remainder)

/-- Reads the properties of a node: an anchor and a tag, each at most once and in either order. -/
def properties (r : Reading) : Option String × Option WrittenTag × Reading :=
  match r.tokens with
  | .anchor a :: .tag t :: rest => (some a, some t, { r with tokens := rest })
  | .tag t :: .anchor a :: rest => (some a, some t, { r with tokens := rest })
  | .anchor a :: rest => (some a, none, { r with tokens := rest })
  | .tag t :: rest => (none, some t, { r with tokens := rest })
  | _ => (none, none, r)

end Reading

/-- Where a node may stand: in a flow collection, in a block, or as a value in a block mapping,
where a sequence may be as little indented as its key. -/
inductive Place
  | flow
  | block
  | mappingValue
  deriving DecidableEq

mutual

/-- Reads one node. The first argument of this function and the following ones bounds the depth of
calls. -/
def readNode? : Nat → Place → Reading → Option (WrittenNode × Reading)
  | 0, _, _ => none
  | steps + 1, place, r =>
    match r.tokens with
    | .alias name :: _ => do
      let number ← r.numbers.lookup name
      return (.reference number, r.drop.count)
    | _ => do
      let (name, written, r) := r.properties
      let tag ← match written with
        | some t => (r.resolve? t).map some
        | none => some none
      let (anchor, r) := r.count.number name
      match r.tokens.head? with
      | some (.scalar style text) => return (.scalar anchor tag style text, r.drop)
      | some .openSequence =>
        let (items, r) ← readFlowItems? steps true r.drop
        return (.sequence anchor tag items, r.count)
      | some .openMapping =>
        let (members, r) ← readFlowMembers? steps true r.drop
        return (.mapping anchor tag members, r.count)
      | some .blockSequence =>
        if place = .flow then none
        let (items, r) ← readBlockItems? steps r.drop
        return (.sequence anchor tag items, r.count)
      | some .blockMapping =>
        if place = .flow then none
        let (members, r) ← readBlockMembers? steps r.drop
        return (.mapping anchor tag members, r.count)
      | other =>
        if place = .mappingValue ∧ other = some .entry then
          let (items, r) ← readLooseItems? steps r
          return (.sequence anchor tag items, r.count)
        else if anchor.isSome ∨ tag.isSome then return (.scalar anchor tag .plain "", r)
        else none

/-- Reads a node unless one of the given tokens shows that there is none. -/
def readOptional? : Nat → Place → List Token → Reading → Option (WrittenNode × Reading)
  | 0, _, _, _ => none
  | steps + 1, place, ends, r =>
    if r.isAt ends then some (.absent, r.count) else readNode? steps place r

/-- Reads the value behind a key, if there is a colon. -/
def readValue? : Nat → Place → List Token → Reading → Option (WrittenNode × Reading)
  | 0, _, _, _ => none
  | steps + 1, place, ends, r =>
    if r.isAt [.value] then readOptional? steps place ends r.drop else some (.absent, r.count)

/-- Reads the entries of a block sequence up to its end. -/
def readBlockItems? : Nat → Reading → Option (List WrittenNode × Reading)
  | 0, _ => none
  | steps + 1, r =>
    if r.isAt [.entry] then do
      let (item, r) ← readOptional? steps .block [.entry, .blockEnd] r.drop
      let (items, r) ← readBlockItems? steps r
      return (item :: items, r)
    else if r.isAt [.blockEnd] then some ([], r.drop)
    else none

/-- Reads the entries of a sequence that is not indented. It has no end of its own. -/
def readLooseItems? : Nat → Reading → Option (List WrittenNode × Reading)
  | 0, _ => none
  | steps + 1, r =>
    if r.isAt [.entry] then do
      let (item, r) ← readOptional? steps .block [.entry, .key, .value, .blockEnd] r.drop
      let (items, r) ← readLooseItems? steps r
      return (item :: items, r)
    else some ([], r)

/-- Reads the members of a block mapping up to its end. -/
def readBlockMembers? : Nat → Reading → Option (List (WrittenNode × WrittenNode) × Reading)
  | 0, _ => none
  | steps + 1, r =>
    if r.isAt [.key] then do
      let (key, r) ← readOptional? steps .mappingValue [.key, .value, .blockEnd] r.drop
      let (value, r) ← readValue? steps .mappingValue [.key, .value, .blockEnd] r
      let (members, r) ← readBlockMembers? steps r
      return ((key, value) :: members, r)
    else if r.isAt [.blockEnd] then some ([], r.drop)
    else none

/-- Reads the items of a flow sequence up to its end. A key begins a mapping of one member. -/
def readFlowItems? : Nat → Bool → Reading → Option (List WrittenNode × Reading)
  | 0, _, _ => none
  | steps + 1, first, r =>
    if r.isAt [.closeSequence] then some ([], r.drop)
    else if !first ∧ !r.isAt [.comma] then none
    else do
      let r := if first then r else r.drop
      if r.isAt [.closeSequence] then return ([], r.drop)
      let (item, r) ← if r.isAt [.key] then do
          let (member, r) ← readPair? steps r.drop.count
          some (WrittenNode.mapping none none [member], r.count)
        else readNode? steps .flow r
      let (items, r) ← readFlowItems? steps false r
      return (item :: items, r)

/-- Reads the only member of a mapping inside a flow sequence. If the key is missing, the token in
its place is lost. -/
def readPair? : Nat → Reading → Option ((WrittenNode × WrittenNode) × Reading)
  | 0, _ => none
  | steps + 1, r => do
    let (key, r) ←
      if r.isAt [.value, .comma, .closeSequence] then some (WrittenNode.absent, r.drop.count)
      else readNode? steps .flow r
    let (value, r) ← readValue? steps .flow [.comma, .closeSequence] r
    return ((key, value), r)

/-- Reads the members of a flow mapping up to its end. A node without a colon is a key without a
value. -/
def readFlowMembers? : Nat → Bool → Reading → Option (List (WrittenNode × WrittenNode) × Reading)
  | 0, _, _ => none
  | steps + 1, first, r =>
    if r.isAt [.closeMapping] then some ([], r.drop)
    else if !first ∧ !r.isAt [.comma] then none
    else do
      let r := if first then r else r.drop
      if r.isAt [.closeMapping] then return ([], r.drop)
      let (member, r) ← if r.isAt [.key] then do
          let ends := [.value, .comma, .closeMapping]
          let (key, r) ← readOptional? steps .flow ends r.drop
          let (value, r) ← readValue? steps .flow [.comma, .closeMapping] r
          some ((key, value), r)
        else do
          let (key, r) ← readNode? steps .flow r
          some ((key, WrittenNode.absent), r.count)
      let (members, r) ← readFlowMembers? steps false r
      return (member :: members, r)

end

end FlowAudit.Yaml
