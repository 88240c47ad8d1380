/-!
Reading positions in YAML text, and the character classes that its layout rules speak about.
-/
namespace FlowAudit.Yaml

/-- Spaces and tabs separate words within a line. -/
def isBlank (c : Char) : Bool :=
  c == ' ' || c == '\t'

/-- Characters that end a line. -/
def isBreak (c : Char) : Bool :=
  c == '\r' || c == '\n' || c == '\x85' || c == '\u2028' || c == '\u2029'

/-- Whether a word ends here. -/
def endsWord : Option Char → Bool
  | some c => isBlank c || isBreak c
  | none => true

/-- Whether a line ends here. -/
def endsLine : Option Char → Bool
  | some c => isBreak c
  | none => true

/-- Letters, digits, hyphens and underscores make up names. -/
def isNameChar (c : Char) : Bool :=
  c.isAlphanum || c == '-' || c == '_'

/-- Characters that may occur in the text at all. -/
def isAllowed (c : Char) : Bool :=
  let n := c.toNat
  n == 0x09 || n == 0x0A || n == 0x0D || (0x20 ≤ n && n ≤ 0x7E) || n == 0x85 ||
    (0xA0 ≤ n && n ≤ 0xD7FF) || (0xE000 ≤ n && n ≤ 0xFFFD) || 0x10000 ≤ n

/-- The count of bytes that characters take in UTF-8. -/
def byteCount (cs : List Char) : Nat :=
  cs.foldr (fun c count => c.utf8Size + count) 0

/-- The text that is left, with the position of its beginning. The index counts bytes, the column
counts characters. -/
structure Cursor where
  rest : List Char
  index : Nat
  line : Nat
  column : Nat

namespace Cursor

/-- The beginning of a text. -/
def start (text : List Char) : Cursor :=
  ⟨text, 0, 0, 0⟩

/-- The next character. -/
def peek (c : Cursor) : Option Char :=
  c.rest.head?

/-- The character some places ahead. -/
def peekAt (c : Cursor) (n : Nat) : Option Char :=
  c.rest[n]?

/-- Goes over some characters of the current line. -/
def advance (c : Cursor) (n : Nat) : Cursor :=
  { c with
    rest := c.rest.drop n
    index := c.index + byteCount (c.rest.take n)
    column := c.column + n }

/-- Goes over the longest run of characters of a class that contains no line breaks. -/
def span (c : Cursor) (accept : Char → Bool) : List Char × Cursor :=
  let run := c.rest.takeWhile accept
  (run, c.advance run.length)

/-- Goes over the longest run of characters of a class. -/
def skip (c : Cursor) (accept : Char → Bool) : Cursor :=
  (c.span accept).2

/-- Goes over one line break. Most breaks read as a line feed; the two separators of lines and
paragraphs stay what they are. -/
def newline (c : Cursor) : List Char × Cursor :=
  let next (width : Nat) (rest : List Char) : Cursor := ⟨rest, c.index + width, c.line + 1, 0⟩
  match c.rest with
  | '\r' :: '\n' :: rest => (['\n'], next 2 rest)
  | first :: rest =>
    if first = '\u2028' ∨ first = '\u2029' then ([first], next first.utf8Size rest)
    else if isBreak first then (['\n'], next first.utf8Size rest)
    else ([], c)
  | [] => ([], c)

/-- Whether a line of three equal marks, or of such marks and more words, begins here. -/
def atMarks (c : Cursor) (mark : Char) : Bool :=
  c.column == 0 && c.rest.take 3 == [mark, mark, mark] && endsWord (c.peekAt 3)

/-- Whether a document begins or ends here. -/
def atDocumentMark (c : Cursor) : Bool :=
  c.atMarks '-' || c.atMarks '.'

/-- A line break takes one character or two, never none. -/
theorem length_newline_lt {c : Cursor} {first : Char} (h : c.peek = some first)
    (hBreak : isBreak first = true) : c.newline.2.rest.length < c.rest.length := by
  obtain ⟨rest, index, line, column⟩ := c
  cases rest with
  | nil => simp [peek] at h
  | cons d rest =>
    simp only [peek, List.head?_cons, Option.some.injEq] at h
    subst h
    unfold newline
    split
    · next rest heq => exact heq ▸ Nat.lt_add_of_pos_right (by decide : 0 < 2)
    · next found tail _ heq =>
      simp only [List.cons.injEq] at heq
      obtain ⟨rfl, rfl⟩ := heq
      simp only [hBreak, if_true]
      split <;> exact Nat.lt_succ_self _
    · next heq => exact absurd heq (List.cons_ne_nil d rest)

end Cursor

end FlowAudit.Yaml
