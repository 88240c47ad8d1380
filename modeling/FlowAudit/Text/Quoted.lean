import FlowAudit.Text.Printable
/-!
Texts between double quotes. Every character without a visible form is escaped, so that two
different texts never look alike.
-/
namespace FlowAudit.Text

/-- The escaped form of one character: a letter for the usual controls, the code point between
braces for everything else that is not printable. -/
def escapeChar (c : Char) : List Char :=
  if c = '\x00' then ['\\', '0']
  else if c = '\t' then ['\\', 't']
  else if c = '\r' then ['\\', 'r']
  else if c = '\n' then ['\\', 'n']
  else if c = '\\' ∨ c = '"' then ['\\', c]
  else if isPrintable c then [c]
  else ['\\', 'u', '\x7b'] ++ Nat.toDigits 16 c.toNat ++ ['\x7d']

/-- The text between double quotes. -/
def quoted (s : String) : String :=
  String.ofList <| '"' :: s.toList.flatMap escapeChar ++ ['"']

end FlowAudit.Text
