import FlowAudit.Proofs.Command.Pipelines
import FlowAudit.Proofs.Report.Document
import Mathlib.Data.List.TFAE
/-!
One verdict in all places that state it. A report passes iff nothing is listed as failed, and its
summary, its document and the end of a comparison say the same. The document lists all outcomes and
all failures in their order.
-/
namespace FlowAudit

open Text

namespace Report

theorem failed_eq_nil_iff {r : Report} : r.failed = [] ↔ r.passes := by
  simp [failed, passes]

/-- The rows of a table: what stands below its two head lines. -/
def tableRows (ls : List String) : List String :=
  (ls.filter fun l => l.startsWith "|").drop 2

/-- The heading of the section of outcomes that do not pass. -/
def failureHeading : String :=
  "## Failed Tests"

/-- The entries in the section of outcomes that do not pass. -/
def failureEntries (ls : List String) : List String :=
  (ls.dropWhile (· != failureHeading)).filter fun l => l.startsWith "- "

section Marks

-- Each kind of line is known by the mark that it starts with.

theorem startsWith_headLines (r : Report) :
    ∀ l ∈ r.headLines, ¬l.startsWith "|" ∧ ¬l.startsWith "##" := by
  simp [headLines, String.startsWith_string_iff, testsLine, failedLine, verdictLine,
    toString_string]

theorem startsWith_rowLine (o : Outcome) :
    (rowLine o).startsWith "|" ∧ ¬(rowLine o).startsWith "##" ∧ ¬(rowLine o).startsWith "- **" := by
  simp [String.startsWith_string_iff, rowLine]

theorem startsWith_tableHead :
    ∀ l ∈ tableHead, l.startsWith "|" ∧ ¬l.startsWith "##" ∧ ¬l.startsWith "- **" := by
  simp [tableHead, String.startsWith_string_iff]

/-- No kind of metric looks like bold text. -/
theorem startsWith_failureLine (o : Outcome) :
    (failureLine o).startsWith "- " ∧ ¬(failureLine o).startsWith "|" ∧
      ¬(failureLine o).startsWith "- **" := by
  cases hKind : o.metric.kind <;>
    simp [String.startsWith_string_iff, failureLine, toString_string, MetricKind.name, hKind]

/-- The list of failures looks neither like the table nor like the head. -/
theorem startsWith_failureLines (r : Report) :
    ∀ l ∈ r.failureLines, ¬l.startsWith "|" ∧ ¬l.startsWith "- **" := by
  rw [failureLines]
  split
  · exact List.forall_mem_nil _
  · refine List.forall_mem_append.mpr ⟨?_, List.forall_mem_map.mpr fun o _ => ?_⟩
    · simp [String.startsWith_string_iff]
    · exact (startsWith_failureLine o).2

end Marks

/-- The rows that are found in the document are those of the outcomes, in order. -/
theorem tableRows_documentLines (r : Report) : tableRows r.documentLines = r.map rowLine := by
  have hHead : (r.headLines.filter fun l => l.startsWith "|") = [] :=
    List.filter_eq_nil_iff.mpr fun l hl => (startsWith_headLines r l hl).1
  have hTable : ((tableHead ++ r.map rowLine).filter fun l => l.startsWith "|") =
      tableHead ++ r.map rowLine := by
    refine List.filter_eq_self.mpr (List.forall_mem_append.mpr ⟨?_, ?_⟩)
    · exact fun l hl => (startsWith_tableHead l hl).1
    · exact List.forall_mem_map.mpr fun o _ => (startsWith_rowLine o).1
  have hFailures : (r.failureLines.filter fun l => l.startsWith "|") = [] :=
    List.filter_eq_nil_iff.mpr fun l hl => (startsWith_failureLines r l hl).1
  rw [tableRows, documentLines, List.filter_append, hHead, List.nil_append]
  split
  · next hNone =>
      subst hNone
      simp [String.startsWith_string_iff]
  · rw [List.filter_append, hTable, hFailures, List.append_nil]
    rfl

theorem failureEntries_failureLines (r : Report) :
    failureEntries r.failureLines = r.failed.map failureLine := by
  rw [failureEntries, failureLines]
  split
  · next hNone => simp [hNone]
  · have hSection : ((["", "## Failed Tests", ""] ++ r.failed.map failureLine).dropWhile
        (· != failureHeading)) = ["## Failed Tests", ""] ++ r.failed.map failureLine := by
      simp [failureHeading]
    have hTop : (["## Failed Tests", ""].filter fun l => l.startsWith "- ") = [] := by
      simp [String.startsWith_string_iff]
    rw [hSection, List.filter_append, hTop, List.nil_append]
    exact List.filter_eq_self.mpr (List.forall_mem_map.mpr fun o _ => (startsWith_failureLine o).1)

/-- What stands in front of the section does not matter. -/
theorem failureEntries_append {ls : List String} (h : ∀ l ∈ ls, ¬l.startsWith "##")
    (more : List String) : failureEntries (ls ++ more) = failureEntries more := by
  have hBefore : ∀ l ∈ ls, (l != failureHeading) = true := by
    intro l hl
    rw [bne_iff_ne]
    rintro rfl
    exact h _ hl (by simp [failureHeading, String.startsWith_string_iff])
  rw [failureEntries, List.dropWhile_append_of_pos hBefore, failureEntries]

/-- The failures that are found in the document are those of the report, in order. -/
theorem failureEntries_documentLines (r : Report) :
    failureEntries r.documentLines = r.failed.map failureLine := by
  rw [documentLines, failureEntries_append fun l hl => (startsWith_headLines r l hl).2]
  split
  · next hNone =>
      subst hNone
      rfl
  · have hTable : ∀ l ∈ tableHead ++ r.map rowLine, ¬l.startsWith "##" :=
      List.forall_mem_append.mpr ⟨fun l hl => (startsWith_tableHead l hl).2.1,
        List.forall_mem_map.mpr fun o _ => (startsWith_rowLine o).2.1⟩
    rw [failureEntries_append hTable, failureEntries_failureLines]

/-- The document has the heading of the failures iff something has failed. -/
theorem failureHeading_mem_documentLines_iff {r : Report} :
    failureHeading ∈ r.documentLines ↔ r.failed ≠ [] := by
  have hMark : failureHeading.startsWith "##" := by
    simp [failureHeading, String.startsWith_string_iff]
  have hHead : failureHeading ∉ r.headLines := fun h => (startsWith_headLines r _ h).2 hMark
  have hTable : failureHeading ∉ tableHead ++ r.map rowLine := by
    rw [List.mem_append, not_or]
    refine ⟨fun h => (startsWith_tableHead _ h).2.1 hMark, fun h => ?_⟩
    obtain ⟨o, _, hRow⟩ := List.mem_map.mp h
    exact (startsWith_rowLine o).2.1 (hRow ▸ hMark)
  rw [documentLines, List.mem_append, or_iff_right hHead]
  split
  · next hNone => simp [hNone, failed, failureHeading]
  · rw [List.mem_append, or_iff_right hTable, failureLines]
    split
    · next hPasses => simp [hPasses]
    · next hFails => simp [hFails, failureHeading]

/-- What is set in bold stands in the head. -/
theorem mem_documentLines_iff_of_bold {r : Report} {l : String} (h : l.startsWith "- **") :
    l ∈ r.documentLines ↔
      l = testsLine r.length ∨ l = failedLine r.failed.length ∨ l = verdictLine r.passes := by
  have hNe : ∀ other : String, ¬other.startsWith "- **" → l ≠ other := by
    rintro other hOther rfl
    exact hOther h
  have hTitle := hNe "# Flow Comparison Report" (by simp [String.startsWith_string_iff])
  have hEmpty := hNe "" (by simp [String.startsWith_string_iff])
  have hBelow : l ∉ (if r = [] then ["No tests were evaluated."]
      else tableHead ++ r.map rowLine ++ r.failureLines) := by
    split
    · have hNote := hNe "No tests were evaluated." (by simp [String.startsWith_string_iff])
      simpa using hNote
    · rw [List.mem_append, List.mem_append, not_or, not_or]
      refine ⟨⟨fun hMem => (startsWith_tableHead l hMem).2.2 h, fun hMem => ?_⟩,
        fun hMem => (startsWith_failureLines r l hMem).2 h⟩
      obtain ⟨o, _, rfl⟩ := List.mem_map.mp hMem
      exact (startsWith_rowLine o).2.2 h
  rw [documentLines, List.mem_append, or_iff_left hBelow]
  simp [headLines, hTitle, hEmpty]

/-- Numbers are written in one way only. -/
theorem append_toString_inj {label : String} {m n : Nat} :
    label ++ toString m = label ++ toString n ↔ m = n := by
  rw [← String.toList_inj, String.toList_append, String.toList_append, List.append_cancel_left_eq,
    String.toList_inj]
  exact Nat.repr_inj

theorem testsLine_ne_failedLine (m n : Nat) : testsLine m ≠ failedLine n := by
  simp [testsLine, failedLine, ← String.toList_inj, toString_string]

theorem testsLine_ne_verdictLine (n : Nat) (b : Bool) : testsLine n ≠ verdictLine b := by
  simp [testsLine, verdictLine, ← String.toList_inj, toString_string]

theorem failedLine_ne_verdictLine (n : Nat) (b : Bool) : failedLine n ≠ verdictLine b := by
  simp [failedLine, verdictLine, ← String.toList_inj, toString_string]

/-- The document tells one number of tests, the right one. -/
theorem testsLine_mem_documentLines_iff {r : Report} {n : Nat} :
    testsLine n ∈ r.documentLines ↔ n = r.length := by
  have hBold : (testsLine n).startsWith "- **" := by
    simp [String.startsWith_string_iff, testsLine, toString_string]
  rw [mem_documentLines_iff_of_bold hBold,
    or_iff_left (not_or.mpr ⟨testsLine_ne_failedLine _ _, testsLine_ne_verdictLine _ _⟩)]
  exact append_toString_inj

theorem failedLine_mem_documentLines_iff {r : Report} {n : Nat} :
    failedLine n ∈ r.documentLines ↔ n = r.failed.length := by
  have hBold : (failedLine n).startsWith "- **" := by
    simp [String.startsWith_string_iff, failedLine, toString_string]
  rw [mem_documentLines_iff_of_bold hBold, or_iff_right (testsLine_ne_failedLine _ _).symm,
    or_iff_left (failedLine_ne_verdictLine _ _)]
  exact append_toString_inj

/-- The document tells one verdict, that of the report. -/
theorem verdictLine_mem_documentLines_iff {r : Report} {b : Bool} :
    verdictLine b ∈ r.documentLines ↔ b = r.passes := by
  have hBold : (verdictLine b).startsWith "- **" := by
    simp [String.startsWith_string_iff, verdictLine]
  rw [mem_documentLines_iff_of_bold hBold, or_iff_right (testsLine_ne_verdictLine _ _).symm,
    or_iff_right (failedLine_ne_verdictLine _ _).symm]
  cases b <;> cases r.passes <;> decide

end Report

namespace Summary

theorem toNat_failedTests {r : Report} (h : r.length < UInt64.size) :
    (ofReport r).failedTests.toNat = r.failed.length :=
  UInt64.toNat_ofNat_of_lt (Nat.lt_of_le_of_lt (List.length_filter_le _ _) h)

theorem toNat_totalTests {r : Report} (h : r.length < UInt64.size) :
    (ofReport r).totalTests.toNat = r.length :=
  UInt64.toNat_ofNat_of_lt h

/-- The outcomes that a summary marks as not passed are the ones that do not pass. -/
theorem filter_outcomes (r : Report) :
    ((ofReport r).outcomes.filter fun o => !o.passed) = r.failed.map OutcomeSummary.ofOutcome := by
  rw [ofReport, Report.failed, List.filter_map]
  rfl

end Summary

namespace CompareArguments

/-- A comparison whose outputs can be written ends with failed tests iff the report fails. -/
theorem conclude_testsFailed_iff {a : CompareArguments} {tree : FileTree} {report : Report}
    (log : Log) (hWritable : ∀ path, path ∈ a.report ∨ path ∈ a.summary → tree.Writable path)
    {failed total : Nat} :
    (a.conclude report log tree).outcome = .error (.testsFailed failed total) ↔
      ¬report.passes ∧ failed = report.failed.length ∧ total = report.length := by
  have hDelivers := (a.conclude_cases report log tree).resolve_left
    fun ⟨path, hPath, hRefused, _⟩ => hRefused (hWritable path hPath)
  rw [hDelivers.outcome, outcome_verdict]
  by_cases h : report.passes
  · simp [h]
  · simp [h, eq_comm]

end CompareArguments

/-- All places that state a verdict agree. A report passes iff none of its outcomes is listed as
failed, iff its summary passes, counts no failures and marks every outcome as passed, and iff its
document states so and has no section of failed tests. A comparison with this report that can write
its outputs ends without failed tests iff the report passes. The document and the summary count all
outcomes and all failures, as long as their number fits a word, and they list both in order. -/
theorem verdicts_agree (r : Report) (hCount : r.length < UInt64.size) :
    let ls := lines r.document
    let summary := Summary.ofReport r
    [r.passes = true, r.failed = [], summary.passed = true, summary.failedTests = 0,
      ∀ o ∈ summary.outcomes, o.passed = true, "- **Verdict**: PASS" ∈ ls,
      "## Failed Tests" ∉ ls].TFAE ∧
    (∀ (a : CompareArguments) (log : Log) (tree : FileTree),
      (∀ path, path ∈ a.report ∨ path ∈ a.summary → tree.Writable path) →
      (r.passes ↔ ∀ failed total,
        (a.conclude r log tree).outcome ≠ .error (.testsFailed failed total))) ∧
    (∀ (a : CompareArguments) (tree : FileTree), (a.compare tree).outcome = .ok r →
      a.run tree = a.conclude r (a.compare tree).log tree) ∧
    (∀ n : Nat, s!"- **Tests**: {n}" ∈ ls ↔ n = r.length) ∧
    (∀ n : Nat, s!"- **Failed**: {n}" ∈ ls ↔ n = r.failed.length) ∧
    (Report.tableRows ls).map (· ++ "\n") = r.map Report.rowText ∧
    (Report.failureEntries ls).map (· ++ "\n") = r.failed.map Report.failureText ∧
    summary.totalTests.toNat = r.length ∧ summary.failedTests.toNat = r.failed.length ∧
    summary.outcomes = r.map OutcomeSummary.ofOutcome ∧
    (summary.outcomes.filter fun o => !o.passed) = r.failed.map OutcomeSummary.ofOutcome := by
  intro ls summary
  have hLines : ls = r.documentLines := Report.lines_document r
  have hFailedTests : summary.failedTests.toNat = r.failed.length := Summary.toNat_failedTests hCount
  refine ⟨?_, ?_, fun a tree => CompareArguments.run_eq_conclude, fun n => ?_, fun n => ?_, ?_, ?_,
    Summary.toNat_totalTests hCount, hFailedTests, rfl, Summary.filter_outcomes r⟩
  · tfae_have 1 ↔ 2 := Report.failed_eq_nil_iff.symm
    tfae_have 1 ↔ 3 := Iff.rfl
    tfae_have 2 ↔ 4 := by
      rw [← UInt64.toNat_inj, hFailedTests]
      exact List.length_eq_zero_iff.symm
    tfae_have 1 ↔ 5 := by
      change _ ↔ ∀ o ∈ r.map OutcomeSummary.ofOutcome, o.passed = true
      rw [Report.passes, List.all_eq_true, List.forall_mem_map]
      exact Iff.rfl
    tfae_have 1 ↔ 6 := by
      rw [hLines]
      exact eq_comm.trans Report.verdictLine_mem_documentLines_iff.symm
    tfae_have 2 ↔ 7 := by
      rw [hLines]
      exact not_not.symm.trans (not_congr Report.failureHeading_mem_documentLines_iff.symm)
    tfae_finish
  · intro a log tree hWritable
    simp only [ne_eq, CompareArguments.conclude_testsFailed_iff log hWritable]
    constructor
    · exact fun hPasses _ _ h => h.1 hPasses
    · exact fun h => by_contra fun hFails => h _ _ ⟨hFails, rfl, rfl⟩
  · rw [hLines]
    exact Report.testsLine_mem_documentLines_iff
  · rw [hLines]
    exact Report.failedLine_mem_documentLines_iff
  · rw [hLines, Report.tableRows_documentLines, List.map_map]
    exact List.map_congr_left fun o _ => (Report.rowText_eq o).symm
  · rw [hLines, Report.failureEntries_documentLines, List.map_map]
    exact List.map_congr_left fun o _ => (Report.failureText_eq o).symm

/-- An undefined difference fails, and a document with one failure tells so in all places. -/
theorem verdicts_agree_undefined_difference :
    let fine : Outcome := ⟨.exact .bytes, .complement, 0.0, 0.0, 0.0⟩
    let undefined : Outcome := ⟨.exact .packets, .whole, 0.0, 0.0, 0.0 / 0.0⟩
    let r : Report := [fine, undefined]
    let a : CompareArguments :=
      ⟨"flows.csv", "reference.csv", none, some "rules.yaml", false, [], false, false, false, false,
        none, none, 0⟩
    r.length < UInt64.size ∧ r.failed = [undefined] ∧ (Summary.ofReport r).passed = false ∧
      "- **Verdict**: PASS" ∉ lines r.document ∧ "## Failed Tests" ∈ lines r.document ∧
      "- **Failed**: 1" ∈ lines r.document ∧
      (Report.failureEntries (lines r.document)).map (· ++ "\n") = [Report.failureText undefined] ∧
      ∃ failed total, (a.conclude r [] .empty).outcome = .error (.testsFailed failed total) := by
  intro fine undefined r a
  have hFailed : r.failed = [undefined] := by
    have hFine : fine.passes = true := by decide
    have hUndefined : undefined.passes = false := by decide
    simp [r, Report.failed, hFine, hUndefined]
  have hFails : ¬r.passes = true := by
    rw [← Report.failed_eq_nil_iff, hFailed]
    simp
  obtain ⟨hAgree, hEnds, _, _, hCount, _, hEntries, _⟩ := verdicts_agree r (by decide)
  refine ⟨by decide, hFailed, ?_, mt (hAgree.out 0 5).mpr hFails, ?_, ?_, ?_, ?_⟩
  · exact Bool.eq_false_iff.mpr (mt (hAgree.out 0 2).mpr hFails)
  · exact not_not.mp (mt (hAgree.out 0 6).mpr hFails)
  · exact (hCount 1).mpr (by rw [hFailed]; rfl)
  · rw [hEntries, hFailed]
    rfl
  · have hNotPlain := mt (hEnds a [] .empty (by simp [a])).mpr hFails
    simpa only [ne_eq, not_forall, not_not] using hNotPlain

/-- A report that fails does not end the comparison with failed tests if it cannot be written. -/
theorem failing_report_not_written :
    let key : FlowKey := ⟨17, .ofNat .v4 0x0a000001, .ofNat .v4 0x0a000002, 1000, 53⟩
    let d : Dataset := [⟨key, 1000, 2000, 5, 500, none⟩]
    let tree : FileTree :=
      ⟨[(["flows.csv"], .file d.render), (["reference.csv"], .file (Dataset.render [])),
        (["rules.yaml"], .file "{rules: [], check_complement: true}"), (["out"], .directory)]⟩
    let a : CompareArguments :=
      ⟨"flows.csv", "reference.csv", none, some "rules.yaml", false, [], false, false, false, false,
        some "out", none, 0⟩
    ∃ report, (a.compare tree).outcome = .ok report ∧ ¬report.passes ∧
      ∀ failed total, (a.run tree).outcome ≠ .error (.testsFailed failed total) := by
  intro key d tree a
  have hRoot : tree.node? [] = some .directory := rfl
  have hFlows : tree.read "flows.csv" = .ok d.render :=
    FileTree.IsPlainName.read_eq (by decide) hRoot rfl
  have hReference : tree.read "reference.csv" = .ok (Dataset.render []) :=
    FileTree.IsPlainName.read_eq (by decide) hRoot rfl
  have hRules : tree.read "rules.yaml" = .ok "{rules: [], check_complement: true}" :=
    FileTree.IsPlainName.read_eq (by decide) hRoot rfl
  have hParse : (Dataset.parse d.render).outcome = .ok d :=
    Dataset.parse_render_eq_ok_iff.mpr ⟨by decide, by rfl⟩
  have hEmpty : (Dataset.parse (Dataset.render [])).outcome = .ok [] :=
    Dataset.parse_render_eq_ok_iff.mpr ⟨by decide, by rfl⟩
  have hRuleSet : a.ruleSet tree = .ok ⟨[], true⟩ :=
    (CompareArguments.ruleSet_of_read rfl hRules rfl).mpr RuleSet.parse_complement_only
  let report : Report :=
    [Comparison.complementOutcome .packets 5, Comparison.complementOutcome .bytes 500]
  have hReport : (a.compare tree).outcome = .ok report :=
    (CompareArguments.compare_eq_ok_iff hFlows hReference).mpr
      ⟨⟨[], true⟩, .zero, hRuleSet, rfl, d, [], ⟨d, [], .zero⟩, hParse, hEmpty, rfl, rfl⟩
  have hRefused : ¬tree.Writable "out" := by
    rw [FileTree.writable_iff]
    rintro ⟨l, hLocate, _, hNode⟩
    rw [FileTree.IsPlainName.locate_eq (by decide) hRoot] at hLocate
    cases hLocate
    exact hNode rfl
  obtain ⟨cause, hEnds⟩ :=
    CompareArguments.conclude_of_not_writable (a := a) rfl hRefused report (a.compare tree).log
  refine ⟨report, hReport, by decide, fun failed total hFailed => ?_⟩
  rw [CompareArguments.run_eq_conclude hReport, hEnds] at hFailed
  cases hFailed

end FlowAudit
