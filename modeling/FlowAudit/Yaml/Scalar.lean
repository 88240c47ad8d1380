import FlowAudit.Yaml.Fold
import FlowAudit.Decimal.Unsigned
/-!
The written forms of scalars: plain words, text between quotes, and indented blocks. Each reader
starts at the first character of a scalar and returns its text and the cursor behind it.
-/
namespace FlowAudit.Yaml

/-- How a scalar is written. Only plain scalars may stand for something else than text, and a
literal block may do so if it is tagged. -/
inductive Style
  | plain
  | literal
  | other
  deriving DecidableEq, Repr

/-- The character of a one-letter escape. -/
def shortEscape? (c : Char) : Option Char :=
  [('0', '\x00'), ('a', '\x07'), ('b', '\x08'), ('t', '\t'), ('\t', '\t'), ('n', '\n'),
    ('v', '\x0b'), ('f', '\x0c'), ('r', '\r'), ('e', '\x1b'), (' ', ' '), ('"', '"'),
    ('/', '/'), ('\\', '\\'), ('N', '\x85'), ('_', '\xa0'), ('L', '\u2028'),
    ('P', '\u2029')].lookup c

/-- How many hexadecimal digits follow an escape letter. -/
def hexEscapeWidth? (c : Char) : Option Nat :=
  [('x', 2), ('u', 4), ('U', 8)].lookup c

/-- The character of hexadecimal digits. -/
def hexChar? (digits : List Char) : Option Char := do
  let values ← digits.mapM (Decimal.digitValue? 16)
  let n := values.foldl (fun n d => 16 * n + d) 0
  if h : n.isValidChar then some (Char.ofNatAux n h) else none

/-- Reads an escape behind its backslash. -/
def readEscape? (c : Cursor) : Option (Char × Cursor) := do
  let letter ← c.peek
  match shortEscape? letter with
  | some found => return (found, c.advance 1)
  | none =>
    let width ← hexEscapeWidth? letter
    let digits := (c.rest.drop 1).take width
    if digits.length ≠ width then none
    let found ← hexChar? digits
    return (found, c.advance (width + 1))

/-- Reads text up to the closing quote. Inside single quotes, a quote is written twice; inside
double quotes, a backslash begins an escape or continues the line. The text read so far is given
in reverse order, and the first argument bounds the count of steps. -/
def readQuoted? (quote : Char) : Nat → List Char → Cursor → Option (List Char × Cursor)
  | 0, _, _ => none
  | steps + 1, done, c =>
    if c.atDocumentMark then none
    else do
      let first ← c.peek
      if first = quote then
        if quote = '\'' ∧ c.peekAt 1 = some quote then
          readQuoted? quote steps (quote :: done) (c.advance 2)
        else return (done.reverse, c.advance 1)
      else if isBlank first ∨ isBreak first then
        let (fold, c) ← Fold.empty.read? 0 c
        readQuoted? quote steps (fold.text.reverse ++ done) c
      else if first = '\\' ∧ quote = '"' then
        if (c.peekAt 1).any isBreak then
          let (fold, c) ← Fold.continued.read? 0 (c.advance 1).newline.2
          readQuoted? quote steps (fold.text.reverse ++ done) c
        else
          let (found, c) ← readEscape? (c.advance 1)
          readQuoted? quote steps (found :: done) c
      else readQuoted? quote steps (first :: done) (c.advance 1)

/-- Reads a scalar between quotes. -/
def quotedScalar? (quote : Char) (c : Cursor) : Option (List Char × Cursor) :=
  readQuoted? quote (c.rest.length + 1) [] (c.advance 1)

/-- Characters that structure flow collections. -/
def isFlowMark (c : Char) : Bool :=
  c == ',' || c == '[' || c == ']' || c == '\x7b' || c == '\x7d'

/-- A word of a plain scalar. A colon before a blank ends it, and so do the marks of a flow
collection inside of one, where a colon right before such a mark is refused. -/
def plainWord? (inFlow : Bool) : List Char → Option (List Char)
  | [] => some []
  | c :: rest =>
    if isBlank c ∨ isBreak c then some []
    else if inFlow ∧ c = ':' ∧ rest.head?.any (fun d => isFlowMark d || d == '?') then none
    else if c = ':' ∧ endsWord rest.head? then some []
    else if inFlow ∧ isFlowMark c then some []
    else (plainWord? inFlow rest).map (c :: ·)

/-- A plain scalar, and whether lines were broken behind its last word. -/
structure PlainScalar where
  text : List Char
  broken : Bool
  cursor : Cursor

/-- Reads words as long as they belong to the scalar, which lines left of the margin do not. White
space in front of a word counts only if the word follows. -/
def readPlain? (inFlow : Bool) (margin : Nat) :
    Nat → List Char → Fold → Cursor → Option PlainScalar
  | 0, _, _, _ => none
  | steps + 1, done, fold, c =>
    if c.atDocumentMark ∨ c.peek = some '#' then some ⟨done, fold.broken, c⟩
    else do
      let word ← plainWord? inFlow c.rest
      let after := c.advance word.length
      let done := if word.isEmpty then done else done ++ fold.text ++ word
      let fold := if word.isEmpty then fold else Fold.empty
      if after.peek.any fun d => isBlank d || isBreak d then
        let (fold, next) ← fold.read? margin after
        if !inFlow ∧ next.column < margin then return ⟨done, fold.broken, next⟩
        else readPlain? inFlow margin steps done fold next
      else return ⟨done, fold.broken, after⟩

/-- Reads a plain scalar. -/
def plainScalar? (inFlow : Bool) (margin : Nat) (c : Cursor) : Option PlainScalar :=
  readPlain? inFlow margin (c.rest.length + 1) [] Fold.empty c

/-- What happens to the line breaks at the end of a block. -/
inductive Chomping
  | strip
  | clip
  | keep
  deriving DecidableEq, Repr

/-- The chomping of a sign in a block header. -/
def chomping? (c : Char) : Option Chomping :=
  if c = '+' then some .keep else if c = '-' then some .strip else none

/-- Reads a chomping sign, if there is one. -/
def readChomping (c : Cursor) : Option Chomping × Cursor :=
  match c.peek.bind chomping? with
  | some chomping => (some chomping, c.advance 1)
  | none => (none, c)

/-- Reads an indentation digit, if there is one; zero is refused. -/
def readIndentDigit? (c : Cursor) : Option (Option Nat × Cursor) :=
  match c.peek with
  | some d =>
    if d.isDigit then
      if d = '0' then none else some (some (d.toNat - '0'.toNat), c.advance 1)
    else some (none, c)
  | none => some (none, c)

/-- Goes to the end of the line, over blanks and a comment. -/
def skipToLineEnd (c : Cursor) : Cursor :=
  let c := c.skip isBlank
  if c.peek = some '#' then c.skip fun d => !isBreak d else c

/-- Goes over the indentation of block lines and over empty lines. An indentation of zero is not
known yet and takes all spaces. Returns the deepest column that was reached, and the breaks. -/
def blockBreaks? (indent : Nat) : Nat → Nat → List Char → Cursor →
    Option (Nat × List Char × Cursor)
  | 0, _, _, _ => none
  | steps + 1, deepest, breaks, c =>
    let spaces := (c.rest.takeWhile (· == ' ')).length
    let c := c.advance (if indent = 0 then spaces else min spaces (indent - c.column))
    let deepest := max deepest c.column
    if (indent = 0 ∨ c.column < indent) ∧ c.peek = some '\t' then none
    else if c.peek.any isBreak then
      let (written, c) := c.newline
      blockBreaks? indent steps deepest (breaks ++ written) c
    else some (deepest, breaks, c)

/-- The text of a block so far: its lines, the break behind the last line, further breaks, and
whether the last line began with a blank. -/
structure Block where
  text : List Char
  lastBreak : List Char
  moreBreaks : List Char
  indented : Bool

/-- Appends one line. In a folded block, one break between two lines that do not begin with a
blank folds to a space. -/
def Block.addLine (b : Block) (folded : Bool) (line lastBreak : List Char) : Block :=
  let indented := line.head?.any isBlank
  let joint :=
    if folded ∧ b.lastBreak = ['\n'] ∧ !b.indented ∧ !indented then
      if b.moreBreaks.isEmpty then [' '] else []
    else b.lastBreak
  ⟨b.text ++ joint ++ b.moreBreaks ++ line, lastBreak, [], indented⟩

/-- Reads the lines of a block at its indentation. -/
def readBlock? (folded : Bool) (indent : Nat) : Nat → Block → Cursor → Option (Block × Cursor)
  | 0, _, _ => none
  | steps + 1, b, c =>
    if c.column = indent ∧ c.peek.isSome then do
      let (line, c) := c.span fun d => !isBreak d
      let (lastBreak, c) := c.newline
      let b := b.addLine folded line lastBreak
      let (_, breaks, c) ← blockBreaks? indent (c.rest.length + 1) 0 [] c
      readBlock? folded indent steps { b with moreBreaks := breaks } c
    else some (b, c)

/-- Reads a literal or folded block behind its mark. Without an indentation digit the deepest of
the leading lines decides, but the block is indented more than its parent in any case. -/
def blockScalar? (folded : Bool) (parentIndent : Int) (c : Cursor) :
    Option (List Char × Cursor) := do
  let (before, c) := readChomping c
  let (digit, c) ← readIndentDigit? c
  let (after, c) := if before.isSome then (none, c) else readChomping c
  let chomping := (before.or after).getD .clip
  let c := skipToLineEnd c
  if !endsLine c.peek then none
  let (_, c) := c.newline
  let given := match digit with
    | some d => (max parentIndent 0).toNat + d
    | none => 0
  let (deepest, breaks, c) ← blockBreaks? given (c.rest.length + 1) 0 [] c
  let indent := if given = 0 then max deepest (max (parentIndent + 1).toNat 1) else given
  let (b, c) ← readBlock? folded indent (c.rest.length + 1) ⟨[], [], breaks, false⟩ c
  let text := match chomping with
    | .strip => b.text
    | .clip => b.text ++ b.lastBreak
    | .keep => b.text ++ b.lastBreak ++ b.moreBreaks
  return (text, c)

end FlowAudit.Yaml
