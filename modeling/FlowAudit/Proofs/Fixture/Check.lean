import FlowAudit.Proofs.Dataset.Loaded
import FlowAudit.Proofs.Fixture.Difference
import FlowAudit.Proofs.Fixture.Load
import FlowAudit.Proofs.Rule.Document
/-!
What a check of a fixture finds. A pipeline that succeeds produces the files that it is known to
produce, so nothing is expected that is missing, and a check passes iff all contents are equal.
-/
namespace FlowAudit

namespace CheckResult

theorem passed_iff {r : CheckResult} : r.passed ↔ r.differences = [] :=
  List.isEmpty_iff

theorem isAsExpected_iff {r : CheckResult} {file : String} :
    r.isAsExpected file ↔ file ∉ r.differences.map Difference.file := by
  simp [isAsExpected]

end CheckResult

namespace Fixture

/-- Whatever a pipeline produces, it produces files of the names that it is known to produce. -/
theorem map_fst_of_run {f : Fixture} {outputs : List (String × String)}
    (h : f.run = .ok outputs) : outputs.map Prod.fst = f.scenario.pipeline.outputNames := by
  obtain ⟨⟨name, description, pipeline⟩, inputs, expected⟩ := f
  cases pipeline with
  | replicate s =>
      cases inputs with
      | replicate table plan =>
          simp only [run, runReplicate, bind_eq_ok_iff, pure_eq_ok_iff] at h
          obtain ⟨_, _, _, _, flows, _, rfl⟩ := h
          rfl
      | compare flows reference stats rules => cases h
  | compare s =>
      cases inputs with
      | replicate table plan => cases h
      | compare flows reference stats rules =>
          obtain ⟨_, report, _, _, rfl⟩ := runCompare_eq_ok_iff.mp h
          rfl

/-- The names of the expected outputs that are produced with another content. -/
def differing (f : Fixture) (outputs : List (String × String)) : List String :=
  (f.expected.filter fun entry => outputs.lookup entry.1 != some entry.2).map Prod.fst

variable {f : Fixture} {outputs : List (String × String)}

/-- No output that may be expected is missing. -/
theorem lookup_eq_some_outputOf (h : f.run = .ok outputs) {file : String}
    (hFile : file ∈ f.scenario.pipeline.outputNames) :
    outputs.lookup file = some (outputOf outputs file) := by
  rw [← map_fst_of_run h] at hFile
  obtain ⟨entry, hEntry, rfl⟩ := List.mem_map.mp hFile
  have hSome : (outputs.lookup entry.1).isSome :=
    List.lookup_isSome_iff.mpr ⟨entry, hEntry, BEq.rfl⟩
  obtain ⟨content, hContent⟩ := Option.isSome_iff_exists.mp hSome
  rw [outputOf, hContent]
  rfl

/-- A check has a result iff the run has one: the differences between what is expected and what is
produced. -/
theorem check_of_run (h : f.run = .ok outputs) :
    f.check = .ok ⟨f.scenario.name, f.expected.filterMap fun entry =>
      Difference.between entry.1 entry.2 (outputOf outputs entry.1)⟩ := by
  rw [check, h]
  rfl

theorem differing_eq_nil_iff :
    f.differing outputs = [] ↔ ∀ entry ∈ f.expected, outputs.lookup entry.1 = some entry.2 := by
  simp [differing, List.filter_eq_nil_iff]

section WellFormed

variable (hFixture : f.IsWellFormed)

include hFixture

/-- Differences come in the order of the expected outputs, one for each content that differs. -/
theorem map_file_differences (h : f.run = .ok outputs) :
    (f.expected.filterMap fun entry =>
        Difference.between entry.1 entry.2 (outputOf outputs entry.1)).map Difference.file =
      f.differing outputs := by
  rw [differing, List.map_filterMap, ← List.filterMap_eq_map, List.filterMap_filter]
  refine List.filterMap_congr fun entry hEntry => ?_
  rw [lookup_eq_some_outputOf h (hFixture.produced entry hEntry)]
  cases hBetween : Difference.between entry.1 entry.2 (outputOf outputs entry.1) with
  | none => simp [Difference.between_eq_none_iff.mp hBetween]
  | some d =>
      have hNe : entry.2 ≠ outputOf outputs entry.1 := fun hEq => by
        rw [Difference.between_eq_none_iff.mpr hEq] at hBetween
        cases hBetween
      simp [hNe.symm, (Difference.namesFirst_of_between hBetween).1.1]

theorem pairwise_differing : (f.differing outputs).Pairwise (· < ·) :=
  hFixture.ascending.sublist (List.filter_sublist.map Prod.fst)

end WellFormed

/-- A check passes iff everything that is expected is produced with the same content. The files that
are produced have the names that the pipeline is known to produce, and every fixture that is loaded
expects files of these names only. The differences are those of the contents that differ, by
ascending names, and all other files are as expected. -/
theorem check_finds_differing :
    (∀ tree directory name f, loadFrom tree directory name = .ok f → f.IsWellFormed) ∧
    ∀ f : Fixture, f.IsWellFormed → ∀ outputs, f.run = .ok outputs →
      outputs.map Prod.fst = f.scenario.pipeline.outputNames ∧
      ∃ r, f.check = .ok r ∧
        (r.passed ↔ ∀ entry ∈ f.expected, outputs.lookup entry.1 = some entry.2) ∧
        r.differences.map Difference.file = f.differing outputs ∧
        (f.differing outputs).Pairwise (· < ·) ∧
        ∀ file, r.isAsExpected file ↔ file ∉ f.differing outputs := by
  refine ⟨fun _ _ _ _ => isWellFormed_of_loadFrom, fun f hFixture outputs hRun => ?_⟩
  have hFiles := map_file_differences hFixture hRun
  refine ⟨map_fst_of_run hRun, _, check_of_run hRun, ?_, hFiles, pairwise_differing hFixture, ?_⟩
  · rw [← differing_eq_nil_iff, ← hFiles, List.map_eq_nil_iff]
    exact CheckResult.passed_iff
  · intro file
    rw [← hFiles]
    exact CheckResult.isAsExpected_iff

/-- Empty tables and no rules lead to an empty report. -/
theorem run_compare_nothing (name description : String) (expected : List (String × String)) :
    run ⟨⟨name, description, .compare ⟨⟨false, false, false⟩, false, []⟩⟩,
      .compare (Dataset.render []) (Dataset.render []) .zero (some "rules: []"), expected⟩ =
        .ok (filesOf []) := by
  have hEmpty : (Dataset.parse (Dataset.render [])).outcome = .ok [] :=
    Dataset.parse_render_eq_ok_iff.mpr ⟨by decide, by rfl⟩
  refine runCompare_eq_ok_iff.mpr ⟨⟨[], false⟩, [], ?_, ?_, rfl⟩
  · rw [rulesOf.eq_def]
    simp [RuleSet.parse_no_rules]
  · exact ⟨[], [], ⟨[], [], .zero⟩, hEmpty, hEmpty, rfl, rfl⟩

/-- The summary of an empty report is not empty, and that is all that differs. -/
theorem check_finds_differing_summary :
    let f : Fixture :=
      ⟨⟨"empty", "", .compare ⟨⟨false, false, false⟩, false, []⟩⟩,
        .compare (Dataset.render []) (Dataset.render []) .zero (some "rules: []"),
        [("report.md", Report.document []), ("summary.json", "")]⟩
    f.IsWellFormed ∧ f.run = .ok (filesOf []) ∧ ∃ r, f.check = .ok r ∧ ¬r.passed ∧
      r.differences.map Difference.file = ["summary.json"] ∧ r.isAsExpected "report.md" := by
  intro f
  have hFixture : f.IsWellFormed := ⟨by decide, by decide⟩
  have hRun : f.run = .ok (filesOf []) := run_compare_nothing ..
  have hDiffering : f.differing (filesOf []) = ["summary.json"] := by
    simp [differing, f, filesOf, List.lookup]
  obtain ⟨_, r, hCheck, _, hFiles, _, hAsExpected⟩ :=
    check_finds_differing.2 f hFixture (filesOf []) hRun
  rw [hDiffering] at hFiles hAsExpected
  refine ⟨hFixture, hRun, r, hCheck, ?_, hFiles, (hAsExpected _).mpr (by decide)⟩
  rw [CheckResult.passed_iff]
  intro hNone
  simp [hNone] at hFiles

end Fixture

end FlowAudit
