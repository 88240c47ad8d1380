/-!
Lines of a text. A line ends at a line feed; a carriage return right before that line feed belongs
to the terminator. The last line needs no terminator.
-/
namespace FlowAudit.Text

/-- The first line without its terminator, and what follows the terminator. A text that ends
without a line feed keeps a final carriage return. -/
def splitLine : List Char → List Char × List Char
  | [] => ([], [])
  | '\n' :: rest => ([], rest)
  | '\r' :: '\n' :: rest => ([], rest)
  | c :: rest =>
    let found := splitLine rest
    (c :: found.1, found.2)

theorem length_splitLine_snd_le (cs : List Char) : (splitLine cs).2.length ≤ cs.length := by
  fun_induction splitLine cs with
  | case1 => exact Nat.le_refl _
  | case2 rest => exact Nat.le_succ _
  | case3 rest => exact Nat.le_add_right _ 2
  | case4 c rest _ _ found ih => exact Nat.le_succ_of_le ih

/-- A line takes at least one character, so splitting a text comes to an end. -/
theorem length_splitLine_snd_lt (c : Char) (cs : List Char) :
    (splitLine (c :: cs)).2.length < (c :: cs).length := by
  rw [splitLine.eq_def]
  split
  · next h => exact absurd h (List.cons_ne_nil c cs)
  · next rest h => exact h ▸ Nat.lt_succ_self _
  · next rest h => exact h ▸ Nat.lt_add_of_pos_right (by decide : 0 < 2)
  · next d rest _ _ h => exact h ▸ Nat.lt_succ_of_le (length_splitLine_snd_le rest)

/-- All lines in order. The empty text has none. -/
def splitLines : List Char → List (List Char)
  | [] => []
  | c :: cs => (splitLine (c :: cs)).1 :: splitLines (splitLine (c :: cs)).2
termination_by cs => cs.length
decreasing_by exact length_splitLine_snd_lt c cs

/-- `splitLines` on strings. -/
def lines (s : String) : List String :=
  (splitLines s.toList).map String.ofList

end FlowAudit.Text
