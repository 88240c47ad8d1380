import FlowAudit.Fixture.Check
import FlowAudit.Proofs.Comparison.Precise
import FlowAudit.Proofs.Comparison.Refusal
import FlowAudit.Proofs.FileTree
/-!
What a fixture produces from the inputs in its directory. A comparison produces its files iff its
inputs can be read and lead to a report, and the precise rules lead to none as long as nothing is
known about the run.
-/
namespace FlowAudit

theorem Rule.precise_ne_nil (networks : List Network) : Rule.precise networks ≠ [] := by
  rw [precise]
  cases networks <;> simp

/-- Networks are read iff each text is a network, whatever the error would be. -/
theorem mapM_network_eq_ok_iff {ε : Type} {error : String → ε} {texts : List String}
    {networks : List Network} :
    (texts.mapM fun text =>
        match Network.parse? text with
        | some n => Except.ok n
        | none => Except.error (error text)) = .ok networks ↔
      List.Forall₂ (fun text n => Network.parse? text = some n) texts networks := by
  rw [mapM_eq_ok_iff]
  refine forall₂_congr_left fun text _ n => ?_
  cases Network.parse? text <;> simp

/-- Whether two tables lead to a report. -/
def IsReport (flows reference : String) (set : RuleSet) (stats : GeneratorStats)
    (options : PrepareOptions) (report : Report) : Prop :=
  ∃ f r c, (Dataset.parse flows).outcome = .ok f ∧ (Dataset.parse reference).outcome = .ok r ∧
    (Comparison.prepare f r stats options).outcome = .ok c ∧
    (c.validate set.rules set.checkComplement).outcome = .ok report

/-- The precise rules compare rates with those of the run, which are zero as long as nothing is known
about it. -/
theorem not_isReport_precise {flows reference : String} {networks : List Network}
    {checkComplement : Bool} {options : PrepareOptions} {report : Report} :
    ¬IsReport flows reference ⟨Rule.precise networks, checkComplement⟩ .zero options report := by
  rintro ⟨f, r, c, _, _, hPrepare, hReport⟩
  obtain ⟨rule, hRule⟩ := List.exists_mem_of_ne_nil _ (Rule.precise_ne_nil networks)
  have hEvaluates := (Comparison.outcome_validate_eq_ok_iff.mp hReport).1 rule hRule
  apply Comparison.evaluates_iff_not_faulty.mp hEvaluates
  refine .inr ⟨.exact .packetRate, ?_, ?_⟩
  · rw [metrics_precise hRule]
    exact List.mem_map_of_mem (by decide)
  · change c.stats.packets = 0
    rw [Comparison.stats_of_prepare hPrepare]
    rfl

namespace Fixture

/-- What a scenario produces from the inputs in a directory. -/
def produce (tree : FileTree) (directory : String) (scenario : Scenario) :
    Except RunError (List (String × String)) := do
  let inputs ← (readInputs tree directory scenario.name scenario.pipeline).mapError RunError.load
  run ⟨scenario, inputs, []⟩

theorem readRequired_of_read {tree : FileTree} {directory file text : String}
    (h : tree.read (joinPath directory file) = .ok text) (name : String) :
    readRequired tree directory name file = .ok text := by
  simp only [readRequired, FileTree.hasPath_of_read h, if_true, readFile, h, mapError_ok]

theorem readJson_of_read {α : Type} {tree : FileTree} {path text : String}
    (h : tree.read path = .ok text) {part : Json.Part} {ofJson? : Json → Option α} {a : α} :
    readJson tree path part ofJson? = .ok a ↔ (Json.readPart? part text).bind ofJson? = some a := by
  simp only [readJson, readFile, h, mapError_ok, ok_bind]
  cases (Json.readPart? part text).bind ofJson? <;> simp [pure_eq_ok_iff, throw_ne_ok]

theorem readJsonOr_of_read {α : Type} {tree : FileTree} {path text : String}
    (h : tree.read path = .ok text) {part : Json.Part} {ofJson? : Json → Option α} {default a : α} :
    readJsonOr tree path part ofJson? default = .ok a ↔
      (Json.readPart? part text).bind ofJson? = some a := by
  simp only [readJsonOr, FileTree.hasPath_of_read h, if_true, readJson_of_read h]

/-- The rule document of a comparison, if it has one. -/
def readRules (tree : FileTree) (directory name : String) (s : CompareSettings) :
    Except LoadError (Option String) :=
  if s.precise then .ok none else some <$> readRequired tree directory name "rules.yaml"

/-- The totals of the generator, zero without a file. -/
def readStats (tree : FileTree) (directory : String) : Except LoadError GeneratorStats :=
  readJsonOr tree (joinPath directory "stats.json") (.record GeneratorStats.names)
    GeneratorStats.ofJson? .zero

/-- The plan of a replay, null without a file. -/
def readPlan (tree : FileTree) (directory : String) : Except LoadError Json :=
  readJsonOr tree (joinPath directory "replicator.json") .whole (fun json => some json.canonical)
    .null

/-- With both tables in place, the inputs depend on the statistics and on the rules. -/
theorem readInputs_compare_eq_ok_iff {tree : FileTree} {directory name flows reference : String}
    {s : CompareSettings} {inputs : FixtureInputs}
    (hFlows : tree.read (joinPath directory "flows.csv") = .ok flows)
    (hReference : tree.read (joinPath directory "reference.csv") = .ok reference) :
    readInputs tree directory name (.compare s) = .ok inputs ↔
      ∃ stats rules, readStats tree directory = .ok stats ∧
        readRules tree directory name s = .ok rules ∧
        .compare flows reference stats rules = inputs := by
  simp only [readInputs, readRequired_of_read hFlows, readRequired_of_read hReference, ok_bind,
    bind_eq_ok_iff, readRules, readStats]
  refine exists_congr fun stats => ?_
  cases s.precise with
  | true => simp [pure_eq_ok_iff]
  | false => simp only [Bool.false_eq_true, if_false, bind_eq_ok_iff, pure_eq_ok_iff, exists_and_left]

/-- For a precise check the rules are made of the networks, all of which must be valid. -/
theorem rulesOf_precise_eq_ok_iff {name : String} {s : CompareSettings} {rules : Option String}
    {set : RuleSet} (h : s.precise) :
    rulesOf name s rules = .ok set ↔ ∃ networks,
      List.Forall₂ (fun text n => Network.parse? text = some n) s.networks networks ∧
        .precise networks = set := by
  simp only [rulesOf.eq_def, h, if_true]
  rw [bind_eq_ok_iff]
  exact exists_congr fun networks => and_congr mapM_network_eq_ok_iff pure_eq_ok_iff

/-- The files that a comparison produces. -/
def filesOf (report : Report) : List (String × String) :=
  [("report.md", report.document), ("summary.json", (Summary.ofReport report).text ++ "\n")]

/-- The outputs of a comparison are the files of its report. -/
theorem runCompare_eq_ok_iff {name : String} {s : CompareSettings} {flows reference : String}
    {stats : GeneratorStats} {rules : Option String} {outputs : List (String × String)} :
    runCompare name s flows reference stats rules = .ok outputs ↔
      ∃ set report, rulesOf name s rules = .ok set ∧
        IsReport flows reference set stats s.options report ∧ outputs = filesOf report := by
  simp only [runCompare, bind_eq_ok_iff, mapError_eq_ok_iff, pure_eq_ok_iff, IsReport, filesOf]
  constructor
  · rintro ⟨set, hSet, f, hf, r, hr, c, hc, report, hReport, rfl⟩
    exact ⟨set, report, hSet, ⟨f, r, c, hf, hr, hc, hReport⟩, rfl⟩
  · rintro ⟨set, report, hSet, ⟨f, r, c, hf, hr, hc, hReport⟩, rfl⟩
    exact ⟨set, hSet, f, hf, r, hr, c, hc, report, hReport, rfl⟩

end Fixture

end FlowAudit
