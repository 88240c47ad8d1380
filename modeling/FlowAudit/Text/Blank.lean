/-!
White space and the trimming of texts. Blank characters are those with the Unicode property
White_Space, a wider set than the one of the standard character class.
-/
namespace FlowAudit.Text

/-- Characters that trimming removes. The no-break spaces belong to them, the zero-width space
does not. -/
def isBlank (c : Char) : Bool :=
  let n := c.toNat
  (9 ≤ n && n ≤ 13) || n == 0x20 || n == 0x85 || n == 0xA0 || n == 0x1680 ||
    (0x2000 ≤ n && n ≤ 0x200A) || n == 0x2028 || n == 0x2029 || n == 0x202F || n == 0x205F ||
    n == 0x3000

/-- Drops the blanks at both ends and keeps those between two other characters. -/
def trim (cs : List Char) : List Char :=
  ((cs.dropWhile isBlank).reverse.dropWhile isBlank).reverse

/-- `trim` on strings. -/
def trimmed (s : String) : String :=
  String.ofList (trim s.toList)

end FlowAudit.Text
