import FlowAudit.Text.Line
import FlowAudit.Text.Quoted
/-!
Differences between an expected and an actual text. Texts are equal or have a first line in which
they differ.
-/
namespace FlowAudit

/-- How the content of a file differs from what was expected. Lengths are in bytes, and a line is
absent where a text has fewer lines. -/
structure Difference where
  file : String
  expectedLength : Nat
  actualLength : Nat
  line : Nat
  expected : Option String
  actual : Option String
  deriving DecidableEq, Repr

namespace Difference

/-- The number of the first line at which two texts differ, and that line of each. Lines are
counted from the given number on. If one text runs out of lines, the next number is taken. -/
def firstDifferent (line : Nat) : List String → List String → Nat × Option String × Option String
  | e :: es, a :: as => if e = a then firstDifferent (line + 1) es as else (line, some e, some a)
  | es, as => (line, es.head?, as.head?)

/-- The difference of two texts, if they are not equal. Texts that differ in their line ends only
differ behind their last line. -/
def between (file expected actual : String) : Option Difference :=
  if expected = actual then none
  else
    let (line, e, a) := firstDifferent 1 (Text.lines expected) (Text.lines actual)
    some ⟨file, expected.utf8ByteSize, actual.utf8ByteSize, line, e, a⟩

/-- The quoted line of one text; an absent line is quoted as an empty one. -/
def excerpt (line : Option String) : String :=
  Text.quoted (line.getD "")

def text (d : Difference) : String :=
  s!"{d.file}: line {d.line}: expected {excerpt d.expected}, got {excerpt d.actual} " ++
    s!"({d.expectedLength} vs {d.actualLength} bytes)"

end Difference

end FlowAudit
