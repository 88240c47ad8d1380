import FlowAudit.Rule
/-!
Reports: the outcomes of all metrics in the order of their evaluation, and the document that shows
them. A report passes iff each of its outcomes does.
-/
namespace FlowAudit

/-- The part of the data that an outcome speaks about. -/
inductive Scope
  | whole
  | segment (s : Segment)
  | complement
  deriving DecidableEq

namespace Scope

/-- The scope of a rule with an optional segment. -/
def ofSegment : Option Segment → Scope
  | some s => segment s
  | none => whole

def text : Scope → String
  | whole => "ALL"
  | segment s => s.text
  | complement => "COMPLEMENT OF SEGMENTS"

end Scope

/-- A metric with what was measured. -/
structure Outcome where
  metric : Metric
  scope : Scope
  value : Float
  reference : Float
  difference : Float

/-- Whether the difference is within the tolerance, which is included. An undefined difference
does not pass. -/
def Outcome.passes (o : Outcome) : Bool :=
  o.difference ≤ o.metric.tolerance

/-- Outcomes in the order of their evaluation. -/
abbrev Report := List Outcome

namespace Report

/-- Whether all outcomes pass. -/
def passes (r : Report) : Bool :=
  r.all Outcome.passes

/-- The outcomes that do not pass. -/
def failed (r : Report) : List Outcome :=
  r.filter fun o => !o.passes

/-- Whole numbers below this bound are written without decimals. -/
def wholeLimit : Nat :=
  Nat.pow 10 15

/-- The magnitude of a number that is whole. -/
def wholeMagnitude? : Decimal.Binary64 → Option (Bool × Nat)
  | .finite negative significand exponent =>
    let unit := Decimal.powerOfTwo exponent
    let scaled := significand * unit.1
    if scaled % unit.2 = 0 then some (negative, scaled / unit.2) else none
  | _ => none

/-- A value of an outcome: an integer if it is one and not too large, else with three decimals. -/
def amountText (x : Float) : String :=
  match wholeMagnitude? (.ofFloat x) with
  | some (negative, n) =>
    if n < wholeLimit then
      String.ofList (Decimal.signed (negative && n != 0) (Decimal.decimalDigits n))
    else Decimal.fixedText 3 x
  | none => Decimal.fixedText 3 x

/-- A ratio with four decimals. -/
def ratioText (x : Float) : String :=
  Decimal.fixedText 4 x

/-- The table row of an outcome. -/
def rowText (o : Outcome) : String :=
  let cells := [o.metric.kind.name, o.scope.text, amountText o.value, amountText o.reference,
    ratioText o.difference, ratioText o.metric.tolerance, if o.passes then "pass" else "FAIL"]
  "| " ++ String.intercalate " | " cells ++ " |\n"

/-- The list entry of an outcome that does not pass. -/
def failureText (o : Outcome) : String :=
  s!"- {o.metric.kind.name} over {o.scope.text}: {amountText o.value} vs " ++
    s!"{amountText o.reference} (diff {ratioText o.difference} > {ratioText o.metric.tolerance})\n"

/-- The report as a document: its verdict, a table of all outcomes and a list of those that do not
pass. -/
def document (r : Report) : String :=
  let verdict := if r.passes then "PASS" else "FAIL"
  let head := "# Flow Comparison Report\n\n" ++
    s!"- **Tests**: {r.length}\n- **Failed**: {r.failed.length}\n- **Verdict**: {verdict}\n\n"
  if r.isEmpty then head ++ "No tests were evaluated.\n"
  else
    let table :=
      "| Metric | Segment | Value | Reference | Diff | Tolerance | Result |\n" ++
      "|--------|---------|-------|-----------|------|-----------|--------|\n" ++
      String.join (r.map rowText)
    let failures :=
      if r.failed.isEmpty then ""
      else "\n## Failed Tests\n\n" ++ String.join (r.failed.map failureText)
    head ++ table ++ failures

end Report

end FlowAudit
