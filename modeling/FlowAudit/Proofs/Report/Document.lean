import FlowAudit.Proofs.Address.Text
import FlowAudit.Proofs.Text.Line
import FlowAudit.Report
/-!
The lines of a report's document. No name, scope or number has a line end in it, so the document
falls into the lines that it was put together from: its head, a row for each outcome, and an entry
for each one that does not pass.
-/
namespace FlowAudit

open Text

theorem toString_string (s : String) : toString s = s := rfl

section Numbers

open Decimal

/-- Digits end no line, and the same goes for all that numbers are written with. -/
theorem inline_decimalDigits (n : Nat) : Inline (decimalDigits n) := by
  intro c hc
  have hDigit := isDigit_of_mem_decimalDigits hc
  constructor <;> (rintro rfl; cases hDigit)

theorem inline_paddedDigits (width n : Nat) : Inline (paddedDigits width n) := by
  refine inline_append.mpr ⟨fun c hc => ?_, inline_decimalDigits n⟩
  rw [List.eq_of_mem_replicate hc]
  decide

theorem inline_signed {negative : Bool} {cs : List Char} (h : Inline cs) :
    Inline (signed negative cs) := by
  cases negative with
  | false => exact h
  | true => exact inline_cons.mpr ⟨by decide, h⟩

/-- A number with fixed places has digits and one point. -/
theorem inline_fixedPoint (places units : Nat) : Inline (fixedPoint places units) := by
  simp only [fixedPoint]
  split
  · exact inline_decimalDigits _
  · exact inline_append.mpr
      ⟨inline_decimalDigits _, inline_cons.mpr ⟨by decide, inline_paddedDigits _ _⟩⟩

/-- Numbers that are not finite are written as words, which are lines too. -/
theorem isLine_fixedText (places : Nat) (x : Float) : IsLine (fixedText places x) := by
  rw [fixedText, isLine_ofList]
  cases Binary64.ofFloat x with
  | nan => exact (by decide : Inline ['N', 'a', 'N'])
  | infinite negative => exact inline_signed (by decide)
  | finite negative significand exponent => exact inline_signed (inline_fixedPoint _ _)

theorem isLine_toString (n : Nat) : IsLine (toString n) :=
  isLine_ofList.mpr (inline_decimalDigits n)

/-- An amount stays in its line, with decimals or without them. -/
theorem Report.isLine_amountText (x : Float) : IsLine (amountText x) := by
  rw [amountText]
  split
  · split
    · exact isLine_ofList.mpr (inline_signed (inline_decimalDigits _))
    · exact isLine_fixedText 3 x
  · exact isLine_fixedText 3 x

theorem Report.isLine_ratioText (x : Float) : IsLine (ratioText x) :=
  isLine_fixedText 4 x

end Numbers

section Scopes

theorem Address.isLine_toString (a : Address) : IsLine (toString a) := by
  have hAlphabet : Inline alphabet := by decide
  exact isLine_ofList.mpr fun c hc => hAlphabet c (mem_alphabet_of_mem_text hc)

theorem Network.isLine_text (n : Network) : IsLine n.text := by
  have hSlash : IsLine "/" := by decide
  simp only [text, toString_string, isLine_append, n.address.isLine_toString, hSlash,
    isLine_toString, and_true]

/-- A written time stays in its line, also beyond the years that have dates. -/
theorem Calendar.isLine_text (ms : Nat) : IsLine (Calendar.text ms) := by
  have hMarks : Inline ['-'] ∧ Inline ['T'] ∧ Inline [':'] ∧ Inline ['.'] ∧ Inline ['Z'] := by decide
  rw [Calendar.text]
  split
  · exact isLine_ofList.mpr (inline_decimalDigits ms)
  · simp only [isLine_ofList, inline_append, padded, inline_paddedDigits, hMarks, and_true]
    split <;> decide

/-- A segment has no line end in its text, whichever of its parts are absent. -/
theorem Segment.isLine_text (s : Segment) : IsLine s.text := by
  have hNetwork : ∀ n, IsLine (SubnetSegment.networkText n) := by
    intro n
    cases n with
    | none => decide
    | some n => exact n.isLine_text
  have hBound : ∀ bound, IsLine (TimeSegment.boundText bound) := by
    intro bound
    cases bound with
    | none => decide
    | some ms => exact Calendar.isLine_text ms.toNat
  cases s with
  | subnet s =>
      have hArrow : IsLine (if s.twoWay then "<->" else "->") ∧ IsLine " " := by
        constructor
        · split <;> decide
        · decide
      simp only [text, SubnetSegment.text, toString_string, isLine_append, hNetwork, hArrow, and_true]
  | time s =>
      have hArrow : IsLine " -> " := by decide
      simp only [text, TimeSegment.text, toString_string, isLine_append, hBound, hArrow, and_true]

theorem Scope.isLine_text (s : Scope) : IsLine s.text := by
  cases s with
  | whole => decide
  | segment s => exact s.isLine_text
  | complement => decide

theorem MetricKind.isLine_name (k : MetricKind) : IsLine k.name := by
  cases k <;> decide

end Scopes

/-- Texts that are written with their ends. -/
theorem ofLines_map {α : Type} {text line : α → String} (h : ∀ a, text a = line a ++ "\n")
    (xs : List α) : ofLines (xs.map line) = String.join (xs.map text) := by
  rw [ofLines, List.map_map]
  exact congrArg String.join (List.map_congr_left fun a _ => (h a).symm)

namespace Report

/-- The cells in the table row of an outcome. -/
def rowCells (o : Outcome) : List String :=
  [o.metric.kind.name, o.scope.text, amountText o.value, amountText o.reference,
    ratioText o.difference, ratioText o.metric.tolerance, if o.passes then "pass" else "FAIL"]

/-- A table row without its end. -/
def rowLine (o : Outcome) : String :=
  "| " ++ String.intercalate " | " (rowCells o) ++ " |"

theorem rowText_eq (o : Outcome) : rowText o = rowLine o ++ "\n" := by
  have hEnd : " |\n" = " |" ++ "\n" := rfl
  simp only [rowText, rowLine, rowCells, hEnd, String.append_assoc]

/-- The entry of an outcome that does not pass, without its end. -/
def failureLine (o : Outcome) : String :=
  s!"- {o.metric.kind.name} over {o.scope.text}: {amountText o.value} vs " ++
    s!"{amountText o.reference} (diff {ratioText o.difference} > {ratioText o.metric.tolerance})"

theorem failureText_eq (o : Outcome) : failureText o = failureLine o ++ "\n" := by
  have hEnd : ")\n" = ")" ++ "\n" := rfl
  simp only [failureText, failureLine, hEnd, toString_string, String.append_assoc]

/-- The line that states how many outcomes there are. -/
def testsLine (n : Nat) : String :=
  s!"- **Tests**: {n}"

/-- The line that states how many outcomes do not pass. -/
def failedLine (n : Nat) : String :=
  s!"- **Failed**: {n}"

/-- The line that states whether the report passes. -/
def verdictLine (passes : Bool) : String :=
  "- **Verdict**: " ++ if passes then "PASS" else "FAIL"

/-- The lines in front of the table. -/
def headLines (r : Report) : List String :=
  ["# Flow Comparison Report", "", testsLine r.length, failedLine r.failed.length,
    verdictLine r.passes, ""]

/-- The two lines at the top of the table. -/
def tableHead : List String :=
  ["| Metric | Segment | Value | Reference | Diff | Tolerance | Result |",
    "|--------|---------|-------|-----------|------|-----------|--------|"]

/-- The section of the outcomes that do not pass, if there are any. -/
def failureLines (r : Report) : List String :=
  if r.failed = [] then [] else ["", "## Failed Tests", ""] ++ r.failed.map failureLine

/-- All lines of the document. -/
def documentLines (r : Report) : List String :=
  r.headLines ++
    if r = [] then ["No tests were evaluated."]
    else tableHead ++ r.map rowLine ++ r.failureLines

/-- The head of the document as its lines. -/
theorem ofLines_headLines (r : Report) {verdict : String}
    (h : verdict = if r.passes then "PASS" else "FAIL") :
    ofLines r.headLines = "# Flow Comparison Report\n\n" ++
      s!"- **Tests**: {r.length}\n- **Failed**: {r.failed.length}\n- **Verdict**: {verdict}\n\n" := by
  rw [← String.toList_inj, h]
  simp [ofLines, headLines, testsLine, failedLine, verdictLine, toString_string]

/-- The list of failures as its lines. A report without failures has none. -/
theorem ofLines_failureLines (r : Report) :
    ofLines r.failureLines =
      if r.failed.isEmpty then ""
      else "\n## Failed Tests\n\n" ++ String.join (r.failed.map failureText) := by
  by_cases h : r.failed = []
  · simp [failureLines, h]
  · rw [failureLines, if_neg h, if_neg (by simpa using h), ofLines_append]
    rw [ofLines_map failureText_eq]
    rfl

/-- The document is what its lines write. -/
theorem document_eq (r : Report) : r.document = ofLines r.documentLines := by
  have hTableHead : ofLines tableHead =
      "| Metric | Segment | Value | Reference | Diff | Tolerance | Result |\n" ++
        "|--------|---------|-------|-----------|------|-----------|--------|\n" := by rfl
  rw [document, documentLines, ofLines_append, ofLines_headLines r rfl]
  by_cases h : r = []
  · rw [if_pos h, if_pos (by simp [h])]
    rfl
  · rw [if_neg h, if_neg (by simpa using h), ofLines_append, ofLines_append, hTableHead,
      ofLines_map rowText_eq, ofLines_failureLines]
    simp only [String.append_assoc]

/-- Each outcome has one line in the table. -/
theorem isLine_rowLine (o : Outcome) : IsLine (rowLine o) := by
  have hCells : ∀ cell ∈ rowCells o, IsLine cell := by
    simp only [rowCells, List.forall_mem_cons]
    refine ⟨o.metric.kind.isLine_name, o.scope.isLine_text, isLine_amountText _,
      isLine_amountText _, isLine_ratioText _, isLine_ratioText _, ?_, List.forall_mem_nil _⟩
    split <;> decide
  rw [rowLine, isLine_append, isLine_append]
  exact ⟨⟨by decide, isLine_intercalate (by decide) hCells⟩, by decide⟩

theorem isLine_failureLine (o : Outcome) : IsLine (failureLine o) := by
  simp only [failureLine, toString_string, isLine_append, o.metric.kind.isLine_name,
    o.scope.isLine_text, isLine_amountText, isLine_ratioText, and_true]
  decide

theorem isLine_headLines (r : Report) : ∀ l ∈ r.headLines, IsLine l := by
  have hVerdict : IsLine (verdictLine r.passes) := by
    cases r.passes <;> decide
  have hLabels : IsLine "- **Tests**: " ∧ IsLine "- **Failed**: " := by decide
  simp only [headLines, List.forall_mem_cons, testsLine, failedLine, hVerdict, toString_string,
    isLine_append, isLine_toString, hLabels, true_and]
  exact ⟨by decide, by decide, by decide, List.forall_mem_nil _⟩

/-- No line of the document has an end inside, so the lines are read back as they are. -/
theorem isLine_of_mem_documentLines {r : Report} : ∀ l ∈ r.documentLines, IsLine l := by
  have hRows : ∀ l ∈ r.map rowLine, IsLine l := List.forall_mem_map.mpr fun o _ => isLine_rowLine o
  have hFailures : ∀ l ∈ r.failureLines, IsLine l := by
    rw [failureLines]
    split
    · exact List.forall_mem_nil _
    · exact List.forall_mem_append.mpr
        ⟨by decide, List.forall_mem_map.mpr fun o _ => isLine_failureLine o⟩
  rw [documentLines]
  refine List.forall_mem_append.mpr ⟨isLine_headLines r, ?_⟩
  split
  · decide
  · exact List.forall_mem_append.mpr ⟨List.forall_mem_append.mpr ⟨by decide, hRows⟩, hFailures⟩

/-- The document consists of these lines. -/
theorem lines_document (r : Report) : lines r.document = r.documentLines := by
  rw [document_eq, lines_ofLines isLine_of_mem_documentLines]

end Report

end FlowAudit
