import FlowAudit.Yaml.Cursor
/-!
Folding of lines. White space between two words of a scalar stands for itself as long as it stays
in one line; a single line break folds to a space, and further breaks stay breaks.
-/
namespace FlowAudit.Yaml

/-- White space between two words. Spaces count only while no line break has been seen. -/
structure Fold where
  spaces : List Char
  firstBreak : List Char
  moreBreaks : List Char
  broken : Bool

namespace Fold

/-- No white space at all. -/
def empty : Fold :=
  ⟨[], [], [], false⟩

/-- A line that was continued on purpose, so that its break leaves nothing behind. -/
def continued : Fold :=
  ⟨[], [], [], true⟩

/-- What the white space contributes to the scalar. -/
def text (f : Fold) : List Char :=
  if f.broken then
    if f.firstBreak = ['\n'] then
      if f.moreBreaks.isEmpty then [' '] else f.moreBreaks
    else f.firstBreak ++ f.moreBreaks
  else f.spaces

/-- Adds one blank. -/
def addBlank (f : Fold) (c : Char) : Fold :=
  if f.broken then f else { f with spaces := f.spaces ++ [c] }

/-- Adds one line break. -/
def addBreak (f : Fold) (written : List Char) : Fold :=
  if f.broken then { f with moreBreaks := f.moreBreaks ++ written }
  else { f with spaces := [], firstBreak := written, broken := true }

/-- Reads all white space. In a continuation line, tabs must not stand in front of the given
column. -/
def read? (margin : Nat) (f : Fold) (c : Cursor) : Option (Fold × Cursor) :=
  match _h : c.peek with
  | none => some (f, c)
  | some first =>
    if isBlank first then
      if f.broken ∧ c.column < margin ∧ first = '\t' then none
      else read? margin (f.addBlank first) (c.advance 1)
    else if _hBreak : isBreak first = true then
      let next := c.newline
      read? margin (f.addBreak next.1) next.2
    else some (f, c)
termination_by c.rest.length
decreasing_by
  · obtain ⟨rest, index, line, column⟩ := c
    cases rest with
    | nil => simp_all [Cursor.peek]
    | cons d rest => simp [Cursor.advance]
  · exact Cursor.length_newline_lt ‹_› ‹_›

end Fold

end FlowAudit.Yaml
