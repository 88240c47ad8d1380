import FlowAudit.Yaml.Scalar
/-!
Tags as they are written, and the directives that give their handles a meaning. A tag is a handle
and the remainder behind it; the handle may be empty for a tag that is written in full.
-/
namespace FlowAudit.Yaml

/-- Whether a character may stand in a tag, apart from the escapes. Tags in angle brackets may
also hold the marks of flow sequences. -/
def isTagChar (bracketed : Bool) (c : Char) : Bool :=
  isNameChar c || (";/?:@&=+$.!~*'()".toList.contains c) ||
    (bracketed && (c == ',' || c == '[' || c == ']'))

/-- A tag as a sequence of octets. Octets that are written in an encoded form need not make up
characters. -/
structure Tag where
  octets : List UInt8
  deriving DecidableEq, Repr

namespace Tag

/-- The tag of a text. -/
def ofText (s : String) : Tag :=
  ⟨s.toUTF8.toList⟩

/-- The first part of a tag followed by the second one. -/
def append (first second : Tag) : Tag :=
  ⟨first.octets ++ second.octets⟩

instance : Append Tag :=
  ⟨append⟩

/-- The part of a tag in front of an octet of zero, which can only be there in an encoded form. -/
def cut (t : Tag) : Tag :=
  ⟨t.octets.takeWhile (· != 0)⟩

/-- The tag of a type of the core schema. -/
def core (name : String) : Tag :=
  ofText ("tag:yaml.org,2002:" ++ name)

/-- Whether a tag begins with an exclamation mark. -/
def isMarked (t : Tag) : Bool :=
  t.octets.head? == some '!'.toUInt8

/-- The name of a tag that is private to an application: the characters behind the mark. -/
def localName? (t : Tag) : Option String :=
  if t.isMarked then String.fromUTF8? ⟨t.octets.tail.toArray⟩ else none

/-- Whether a tag is private to an application. -/
def isLocal (t : Tag) : Bool :=
  t.localName?.isSome

end Tag

/-- Reads one percent-encoded octet. -/
def readOctet? : List Char → Option (UInt8 × List Char)
  | '%' :: a :: b :: rest => do
    let high ← Decimal.digitValue? 16 a
    let low ← Decimal.digitValue? 16 b
    return (UInt8.ofNat (16 * high + low), rest)
  | _ => none

/-- How many octets follow the first octet of an encoded character. -/
def tailCount? (first : UInt8) : Option Nat :=
  if first < 0x80 then some 0
  else if first / 32 = 6 then some 1
  else if first / 16 = 14 then some 2
  else if first / 8 = 30 then some 3
  else none

/-- Reads the octets behind the first one of a character. -/
def readTailOctets? : Nat → List Char → Option (List UInt8)
  | 0, _ => some []
  | count + 1, cs => do
    let (octet, rest) ← readOctet? cs
    if octet / 64 ≠ 2 then none
    return octet :: (← readTailOctets? count rest)

/-- Reads the percent-encoded octets of one character. Which character it is does not matter. -/
def readEncoded? (cs : List Char) : Option (List UInt8) := do
  let (first, rest) ← readOctet? cs
  return first :: (← readTailOctets? (← tailCount? first) rest)

/-- Reads the octets of a tag, of which there may be none. -/
def readTagText? (bracketed : Bool) : Nat → List UInt8 → Cursor → Option (List UInt8 × Cursor)
  | 0, _, _ => none
  | steps + 1, done, c =>
    match c.peek with
    | none => some (done, c)
    | some first =>
      if first = '%' then do
        let octets ← readEncoded? c.rest
        readTagText? bracketed steps (done ++ octets) (c.advance (3 * octets.length))
      else if isTagChar bracketed first then
        readTagText? bracketed steps (done ++ [first.toUInt8]) (c.advance 1)
      else some (done, c)

/-- `readTagText?` with enough steps for any text. -/
def tagText? (bracketed : Bool) (c : Cursor) : Option (Tag × Cursor) := do
  let (octets, c) ← readTagText? bracketed (c.rest.length + 1) [] c
  return (⟨octets⟩, c)

/-- Reads a handle: a name between exclamation marks. The second mark may be missing, except that
a directive accepts only the single mark then. -/
def readHandle? (inDirective : Bool) (c : Cursor) : Option (List Char × Cursor) :=
  if c.peek ≠ some '!' then none
  else
    let (name, c) := (c.advance 1).span isNameChar
    if c.peek = some '!' then some ('!' :: name ++ ['!'], c.advance 1)
    else if inDirective ∧ !name.isEmpty then none
    else some ('!' :: name, c)

/-- A tag as written. -/
structure WrittenTag where
  handle : String
  remainder : Tag
  deriving DecidableEq, Repr

/-- Whether text is a handle with both of its marks. -/
def isFullHandle (handle : List Char) : Bool :=
  1 < handle.length && handle.getLast? == some '!'

/-- Reads a tag. A single exclamation mark is a tag of its own. -/
def readTag? (inFlow : Bool) (c : Cursor) : Option (WrittenTag × Cursor) := do
  let (tag, c) ←
    if c.peekAt 1 = some '<' then do
      let (text, c) ← tagText? true (c.advance 2)
      if text.octets.isEmpty ∨ c.peek ≠ some '>' then none
      some (WrittenTag.mk "" text.cut, c.advance 1)
    else do
      let (handle, c) ← readHandle? false c
      let (text, c) ← tagText? false c
      if isFullHandle handle then
        if text.octets.isEmpty then none
        some (WrittenTag.mk (String.ofList handle) text.cut, c)
      else
        let text := (Tag.ofText (String.ofList (handle.drop 1)) ++ text).cut
        some (if text.octets.isEmpty then ⟨"", .ofText "!"⟩ else ⟨"!", text⟩, c)
  if endsWord c.peek ∨ (inFlow ∧ c.peek = some ',') then return (tag, c) else none

/-- A directive in front of a document. -/
inductive Directive
  | version (major minor : Nat)
  | tag (handle : String) (start : Tag)
  deriving DecidableEq, Repr

/-- Reads a version number of at most nine digits. -/
def readVersionNumber? (c : Cursor) : Option (Nat × Cursor) :=
  let (digits, c) := c.span Char.isDigit
  if digits.isEmpty ∨ 9 < digits.length then none
  else some (digits.foldl (fun n d => 10 * n + (d.toNat - '0'.toNat)) 0, c)

/-- Reads a directive and the rest of its line. Only two kinds of directives are known. -/
def readDirective? (c : Cursor) : Option (Directive × Cursor) := do
  let (name, c) := (c.advance 1).span isNameChar
  if name.isEmpty ∨ !endsWord c.peek then none
  let c := c.skip isBlank
  let (directive, c) ←
    if name = ['Y', 'A', 'M', 'L'] then do
      let (major, c) ← readVersionNumber? c
      if c.peek ≠ some '.' then none
      let (minor, c) ← readVersionNumber? (c.advance 1)
      some (Directive.version major minor, c)
    else if name = ['T', 'A', 'G'] then do
      let (handle, c) ← readHandle? true c
      if !c.peek.any isBlank then none
      let (start, c) ← tagText? true (c.skip isBlank)
      if start.octets.isEmpty ∨ !endsWord c.peek then none
      some (Directive.tag (String.ofList handle) start.cut, c)
    else none
  let c := skipToLineEnd c
  if endsLine c.peek then return (directive, c.newline.2) else none

end FlowAudit.Yaml
