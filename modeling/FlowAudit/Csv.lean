/-!
Comma-separated text. A record ends at a carriage return or a line feed, fields may be quoted, and
every record knows where its reading began. `records` reads a whole text; `Record.render` writes
one record whose fields need no quotes.
-/
namespace FlowAudit.Csv

/-- A place in a text: how many records were read before it, its line counted from one, and its
offset in bytes. -/
structure Position where
  record : Nat
  line : Nat
  byte : Nat
  deriving DecidableEq, Repr

/-- The place behind one more character. Only line feeds begin a new line. -/
def Position.after (p : Position) (c : Char) : Position :=
  { p with line := if c = '\n' then p.line + 1 else p.line, byte := p.byte + c.utf8Size }

/-- One record, and the place where its reading began. Line ends before the record belong to
it. -/
structure Record where
  position : Position
  fields : List String
  deriving DecidableEq

/-- What the reader has seen of the current field: nothing, text without quotes, text inside
quotes, or a quote that may be closing. -/
inductive FieldState
  | start
  | plain
  | quoted
  | closing
  deriving DecidableEq, Repr

/-- Where the reading of a record stopped. -/
structure Stop where
  fields : List String
  position : Position
  rest : List Char

/-- Adds a field, whose characters are given in reverse order, to the fields in front of it. -/
def pushField (field : List Char) (fields : List String) : List String :=
  String.ofList field.reverse :: fields

/-- Reads the remainder of one record. Fields and the characters of the current field come in
reverse order. A quote opens a quoted field only at its start; after the closing quote the field
goes on as plain text; the end of the text ends the record in every state. -/
def readRecord (state : FieldState) (field : List Char) (fields : List String) (p : Position) :
    List Char → Stop
  | [] => ⟨(pushField field fields).reverse, p, []⟩
  | c :: rest =>
    if state = .quoted then
      if c = '"' then readRecord .closing field fields (p.after c) rest
      else readRecord .quoted (c :: field) fields (p.after c) rest
    else if c = '"' ∧ state = .start then readRecord .quoted field fields (p.after c) rest
    else if c = '"' ∧ state = .closing then
      readRecord .quoted (c :: field) fields (p.after c) rest
    else if c = ',' then readRecord .start [] (pushField field fields) (p.after c) rest
    else if c = '\n' ∨ c = '\r' then ⟨(pushField field fields).reverse, p.after c, rest⟩
    else readRecord .plain (c :: field) fields (p.after c) rest

/-- Reading a record never gives characters back. -/
theorem length_rest_readRecord_le (state : FieldState) (field : List Char) (fields : List String)
    (p : Position) (cs : List Char) :
    (readRecord state field fields p cs).rest.length ≤ cs.length := by
  induction cs generalizing state field fields p with
  | nil => simp [readRecord]
  | cons c cs ih =>
    unfold readRecord
    repeat' split
    all_goals first
      | exact Nat.le_succ_of_le (ih ..)
      | simp

/-- Skips the line ends in front of a record. -/
def skipLineEnds (p : Position) : List Char → Position × List Char
  | '\n' :: rest => skipLineEnds (p.after '\n') rest
  | '\r' :: rest => skipLineEnds (p.after '\r') rest
  | rest => (p, rest)

theorem length_skipLineEnds_le (p : Position) (cs : List Char) :
    (skipLineEnds p cs).2.length ≤ cs.length := by
  fun_induction skipLineEnds p cs with
  | case1 p rest ih => exact Nat.le_succ_of_le ih
  | case2 p rest ih => exact Nat.le_succ_of_le ih
  | case3 p rest => exact Nat.le_refl _

/-- Each record takes at least one character, so reading a table comes to an end. -/
theorem length_rest_readRecord_lt (state : FieldState) (field : List Char)
    (fields : List String) (p : Position) (c : Char) (cs : List Char) :
    (readRecord state field fields p (c :: cs)).rest.length < (c :: cs).length := by
  unfold readRecord
  repeat' split
  all_goals first
    | exact Nat.lt_succ_of_le (length_rest_readRecord_le ..)
    | simp

/-- All records from a place on. Empty lines hold no record. -/
def recordsFrom (p : Position) (cs : List Char) : List Record :=
  match _h : skipLineEnds p cs with
  | (_, []) => []
  | (start, c :: rest) =>
    let stop := readRecord .start [] [] start (c :: rest)
    ⟨p, stop.fields⟩ :: recordsFrom { stop.position with record := p.record + 1 } stop.rest
termination_by cs.length
decreasing_by
  have hSkip := length_skipLineEnds_le p cs
  rw [_h] at hSkip
  exact Nat.lt_of_lt_of_le (length_rest_readRecord_lt .start [] [] start c rest) hSkip

/-- All records of a text. One byte order mark in front of the text is no part of a field. -/
def records (text : String) : List Record :=
  let start : Position := ⟨0, 1, 0⟩
  match text.toList with
  | '\uFEFF' :: rest => recordsFrom (start.after '\uFEFF') rest
  | cs => recordsFrom start cs

/-- Writes fields that hold neither quotes nor separators. -/
def renderRecord (fields : List String) : String :=
  String.intercalate "," fields ++ "\n"

end FlowAudit.Csv
