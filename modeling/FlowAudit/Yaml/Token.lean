import FlowAudit.Yaml.Tag
/-!
The tokens of YAML text. Indentation becomes explicit: block collections have tokens where they
begin and end. A key is recognised by the colon behind it, so a place where a key may begin is
first recorded as a candidate; the colon chooses it, and other candidates vanish.
-/
namespace FlowAudit.Yaml

/-- The tokens of a text. -/
inductive Token
  | directive (d : Directive)
  | documentStart
  | documentEnd
  | blockSequence
  | blockMapping
  | blockEnd
  | openSequence
  | closeSequence
  | openMapping
  | closeMapping
  | comma
  | entry
  | key
  | value
  | anchor (name : String)
  | alias (name : String)
  | tag (t : WrittenTag)
  | scalar (style : Style) (text : String)
  deriving DecidableEq, Repr

/-- A token or a place where a key may begin. -/
inductive Slot
  | token (t : Token)
  | candidate (id : Nat)

/-- A candidate that a colon may still choose. One that is required must be chosen, because its
place allows nothing but a key. -/
structure KeyCandidate where
  id : Nat
  required : Bool
  index : Nat
  line : Nat
  column : Nat

/-- The state of reading tokens. Slots come in reverse order. There is one optional candidate for
each open flow collection and one for the block around them, the innermost first. -/
structure Layout where
  cursor : Cursor
  slots : List Slot
  chosen : List (Nat × Bool)
  nextId : Nat
  indent : Int
  indents : List Int
  keyAllowed : Bool
  innermost : Option KeyCandidate
  outer : List (Option KeyCandidate)

namespace Layout

/-- The beginning of a text. -/
def start (text : List Char) : Layout :=
  ⟨.start text, [], [], 0, -1, [], true, none, []⟩

/-- Whether a flow collection is open. -/
def inFlow (l : Layout) : Bool :=
  !l.outer.isEmpty

/-- Appends a token. -/
def push (l : Layout) (t : Token) : Layout :=
  { l with slots := .token t :: l.slots }

/-- Goes over some characters of the line. -/
def advance (l : Layout) (n : Nat) : Layout :=
  { l with cursor := l.cursor.advance n }

/-- Whether a candidate lies too far back to be chosen: on another line or at a distance of more
than 1024 bytes. -/
def isStale (l : Layout) (k : KeyCandidate) : Bool :=
  k.line < l.cursor.line || k.index + 1024 < l.cursor.index

/-- Gives up a stale candidate. -/
def refresh? (l : Layout) : Option KeyCandidate → Option (Option KeyCandidate)
  | none => some none
  | some k => if l.isStale k then (if k.required then none else some none) else some (some k)

/-- Gives up all stale candidates. -/
def dropStale? (l : Layout) : Option Layout := do
  let innermost ← l.refresh? l.innermost
  let outer ← l.outer.mapM l.refresh?
  return { l with innermost := innermost, outer := outer }

/-- Gives up the innermost candidate. -/
def dropCandidate? (l : Layout) : Option Layout :=
  if l.innermost.any KeyCandidate.required then none else some { l with innermost := none }

/-- Records that a key may begin here. -/
def saveCandidate? (l : Layout) : Option Layout :=
  if l.keyAllowed then do
    let required := !l.inFlow && l.indent == (l.cursor.column : Int)
    let l ← l.dropCandidate?
    let c := l.cursor
    return { l with
      slots := .candidate l.nextId :: l.slots
      nextId := l.nextId + 1
      innermost := some ⟨l.nextId, required, c.index, c.line, c.column⟩ }
  else some l

/-- Closes block collections until the indentation is at most a given one. -/
def closeBlocks (column : Int) : List Int → Layout → Layout
  | [], l => if column < l.indent then { l.push .blockEnd with indent := -1, indents := [] } else l
  | outer :: rest, l =>
    if column < l.indent then
      closeBlocks column rest { l.push .blockEnd with indent := outer, indents := rest }
    else l

/-- `closeBlocks` outside of flow collections. Inside of them indentation has no meaning. -/
def unindent (l : Layout) (column : Int) : Layout :=
  if l.inFlow then l else closeBlocks column l.indents l

/-- Whether a deeper column opens a block collection. -/
def isDeeper (l : Layout) (column : Nat) : Bool :=
  !l.inFlow && decide (l.indent < (column : Int))

/-- Makes a column the current indentation. -/
def indentTo (l : Layout) (column : Nat) : Layout :=
  { l with indents := l.indent :: l.indents, indent := column }

/-- Opens a block collection here if the column is deeper than the current indentation. -/
def openBlock (l : Layout) (t : Token) : Layout :=
  if l.isDeeper l.cursor.column then (l.push t).indentTo l.cursor.column else l

/-- Goes over white space and comments up to the next token. Tabs are only skipped where no key
may begin. Outside of flow collections a key may begin in every new line. -/
def skipSpace : Nat → Layout → Layout
  | 0, l => l
  | steps + 1, l =>
    let c := l.cursor
    let c := if c.column = 0 ∧ c.peek = some '\uFEFF' then c.advance 1 else c
    let tabs := l.inFlow || !l.keyAllowed
    let c := c.skip fun d => d == ' ' || (tabs && d == '\t')
    let c := if c.peek = some '#' then c.skip fun d => !isBreak d else c
    if c.peek.any isBreak then
      skipSpace steps { l with cursor := c.newline.2, keyAllowed := l.keyAllowed || !l.inFlow }
    else { l with cursor := c }

/-- A mark that ends everything open in the current document. -/
def closeAll? (l : Layout) : Option Layout := do
  let l ← (l.unindent (-1)).dropCandidate?
  return { l with keyAllowed := false }

/-- Begins a flow collection. -/
def enterFlow? (l : Layout) (t : Token) : Option Layout := do
  let l ← l.saveCandidate?
  return { l.push t with
    outer := l.innermost :: l.outer, innermost := none, keyAllowed := true }.advance 1

/-- Ends a flow collection. -/
def leaveFlow? (l : Layout) (t : Token) : Option Layout := do
  let l ← l.dropCandidate?
  let l := match l.outer with
    | [] => l
    | around :: rest => { l with innermost := around, outer := rest }
  return { l.push t with keyAllowed := false }.advance 1

/-- Takes the mark of a sequence entry. -/
def takeEntry? (l : Layout) : Option Layout := do
  if !l.inFlow ∧ !l.keyAllowed then none
  let l ← (l.openBlock .blockSequence).dropCandidate?
  return { l.push .entry with keyAllowed := true }.advance 1

/-- Takes the mark of a key that is not recognised by its colon alone. -/
def takeKey? (l : Layout) : Option Layout := do
  if !l.inFlow ∧ !l.keyAllowed then none
  let l ← (l.openBlock .blockMapping).dropCandidate?
  return { l.push .key with keyAllowed := !l.inFlow }.advance 1

/-- Takes the colon in front of a value. It chooses the innermost candidate, if there is one. -/
def takeValue? (l : Layout) : Option Layout := do
  let l ← match l.innermost with
    | some k =>
      let opens := l.isDeeper k.column
      let l := if opens then l.indentTo k.column else l
      some { l with chosen := (k.id, opens) :: l.chosen, innermost := none, keyAllowed := false }
    | none =>
      if !l.inFlow ∧ !l.keyAllowed then none
      else some { l.openBlock .blockMapping with keyAllowed := !l.inFlow }
  return (l.push .value).advance 1

/-- Takes a token that may be a key or the beginning of one. -/
def takeContent? (l : Layout) (read? : Cursor → Option (Token × Cursor)) : Option Layout := do
  let l ← l.saveCandidate?
  let (t, c) ← read? l.cursor
  return { l.push t with cursor := c, keyAllowed := false }

/-- Reads the name of an anchor or an alias behind its mark. -/
def readName? (make : String → Token) (c : Cursor) : Option (Token × Cursor) :=
  let (name, c) := (c.advance 1).span isNameChar
  let ends := endsWord c.peek || (c.peek.any fun d => "?:,]\x7d%@\x60".toList.contains d)
  if name.isEmpty ∨ !ends then none else some (make (String.ofList name), c)

/-- Takes a block scalar. -/
def takeBlockScalar? (l : Layout) (folded : Bool) : Option Layout := do
  let l ← l.dropCandidate?
  let (text, c) ← blockScalar? folded l.indent (l.cursor.advance 1)
  let style := if folded then Style.other else .literal
  return { l.push (.scalar style (String.ofList text)) with cursor := c, keyAllowed := true }

/-- Takes a scalar between quotes. -/
def takeQuoted? (l : Layout) (quote : Char) : Option Layout :=
  l.takeContent? fun c => do
    let (text, c) ← quotedScalar? quote c
    return (.scalar .other (String.ofList text), c)

/-- Takes a plain scalar. After broken lines a key may begin. -/
def takePlain? (l : Layout) : Option Layout := do
  let l ← l.saveCandidate?
  let s ← plainScalar? l.inFlow (l.indent + 1).toNat l.cursor
  return { l.push (.scalar .plain (String.ofList s.text)) with
    cursor := s.cursor, keyAllowed := s.broken }

/-- Whether a plain scalar may begin with a character, given the character behind it. -/
def beginsPlain (inFlow : Bool) (first : Char) (second : Option Char) : Bool :=
  !(endsWord (some first) || "-?:,[]\x7b\x7d#&*!|>'\"%@\x60".toList.contains first) ||
    (first == '-' && !second.any isBlank) ||
    (!inFlow && (first == '?' || first == ':') && !endsWord second)

/-- Takes the token that begins with a given character. -/
def take? (l : Layout) (first : Char) : Option Layout :=
  let second := l.cursor.peekAt 1
  if l.cursor.column = 0 ∧ first = '%' then do
    let l ← l.closeAll?
    let (d, c) ← readDirective? l.cursor
    return { l.push (.directive d) with cursor := c }
  else if l.cursor.atMarks '-' then l.closeAll?.map fun l => (l.push .documentStart).advance 3
  else if l.cursor.atMarks '.' then l.closeAll?.map fun l => (l.push .documentEnd).advance 3
  else if first = '[' then l.enterFlow? .openSequence
  else if first = '\x7b' then l.enterFlow? .openMapping
  else if first = ']' then l.leaveFlow? .closeSequence
  else if first = '\x7d' then l.leaveFlow? .closeMapping
  else if first = ',' then
    l.dropCandidate?.map fun l => { l.push .comma with keyAllowed := true }.advance 1
  else if first = '-' ∧ endsWord second then l.takeEntry?
  else if first = '?' ∧ (l.inFlow ∨ endsWord second) then l.takeKey?
  else if first = ':' ∧ (l.inFlow ∨ endsWord second) then l.takeValue?
  else if first = '*' then l.takeContent? (readName? .alias)
  else if first = '&' then l.takeContent? (readName? .anchor)
  else if first = '!' then
    l.takeContent? fun c => (readTag? l.inFlow c).map fun (t, c) => (.tag t, c)
  else if first = '|' ∧ !l.inFlow then l.takeBlockScalar? false
  else if first = '>' ∧ !l.inFlow then l.takeBlockScalar? true
  else if first = '\'' ∨ first = '"' then l.takeQuoted? first
  else if beginsPlain l.inFlow first second then l.takePlain?
  else none

/-- The end of the text closes all blocks. -/
def finish? (l : Layout) : Option Layout :=
  (l.unindent (-1)).dropCandidate?

/-- Takes all tokens. Each one takes at least one character, so the length of the text bounds
their count. -/
def run? : Nat → Layout → Option Layout
  | 0, _ => none
  | steps + 1, l => do
    let l ← (skipSpace (l.cursor.rest.length + 1) l).dropStale?
    let l := l.unindent l.cursor.column
    match l.cursor.peek with
    | none => l.finish?
    | some first => run? steps (← l.take? first)

/-- The tokens of the slots, with the chosen candidates turned into keys. -/
def tokens (l : Layout) : List Token :=
  l.slots.reverse.flatMap fun
    | .token t => [t]
    | .candidate id =>
      match l.chosen.lookup id with
      | some opens => if opens then [.blockMapping, .key] else [.key]
      | none => []

end Layout

/-- All tokens of a text. -/
def tokens? (text : String) : Option (List Token) :=
  let cs := text.toList
  if cs.all isAllowed then
    (Layout.run? (cs.length + 1) (.start cs)).map Layout.tokens
  else none

end FlowAudit.Yaml
