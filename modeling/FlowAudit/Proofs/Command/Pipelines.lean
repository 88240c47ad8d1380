import FlowAudit.Proofs.Command.Arguments
import FlowAudit.Proofs.Command.Outputs
import FlowAudit.Proofs.Fixture.Produce
import FlowAudit.Proofs.Path
/-!
The command line and the pipelines of fixtures lead to the same results. They read their inputs in
different orders, so they may end with different errors. They succeed together, however, and what
one of them writes is what the other one produces.
-/
namespace FlowAudit

namespace FileTree

/-- Whether two paths, each in its own tree, can be read and hold the same text. -/
def SameText (tree : FileTree) (path : String) (other : FileTree) (path' : String) : Prop :=
  ∃ text, tree.read path = .ok text ∧ other.read path' = .ok text

theorem SameText.ne_empty {t t' : FileTree} {path path' : String}
    (h : t.SameText path t' path') : path ≠ "" := by
  obtain ⟨_, hRead, _⟩ := h
  exact ne_empty_of_read hRead

theorem sameText_root {t t' : FileTree} {path name text : String} (h : t.read path = .ok text)
    (h' : t'.read name = .ok text) : t.SameText path t' (joinPath "" name) :=
  ⟨text, h, (joinPath_empty name).symm ▸ h'⟩

end FileTree

theorem GeneratorStats.load_of_read {tree : FileTree} {path text : String}
    (h : tree.read path = .ok text) {stats : GeneratorStats} :
    load tree path = .ok stats ↔ (Json.readPart? (.record names) text).bind ofJson? = some stats := by
  simp only [load, ConfigError.readFile, h, mapError_ok, ok_bind]
  cases (Json.readPart? (.record names) text).bind ofJson? <;> simp [pure_eq_ok_iff, throw_ne_ok]

namespace CompareArguments

/-- The settings of a pipeline with the same options. -/
def settings (a : CompareArguments) : CompareSettings :=
  ⟨⟨a.merge, a.biflows, a.alignReference⟩, a.precise, a.networks⟩

/-- Whether the files that are named hold the inputs in the directory of a fixture. A comparison with
precise rules has no rule document. -/
structure SameInputs (a : CompareArguments) (tree fixtures : FileTree) (directory : String) :
    Prop where
  flows : tree.SameText a.flows fixtures (joinPath directory "flows.csv")
  reference : tree.SameText a.reference fixtures (joinPath directory "reference.csv")
  stats : ∀ path ∈ a.stats, tree.SameText path fixtures (joinPath directory "stats.json")
  noStats : a.stats = none → fixtures.hasPath (joinPath directory "stats.json") = false
  document : a.rules.isSome = !a.precise
  rules : ∀ path ∈ a.rules, tree.SameText path fixtures (joinPath directory "rules.yaml")

/-- Rules that are named on the command line come from their file alone. -/
theorem ruleSet_of_read {a : CompareArguments} {tree : FileTree} {path text : String}
    (hPath : a.rules = some path) (hRead : tree.read path = .ok text)
    (hPlain : a.checkComplement = false) {set : RuleSet} :
    a.ruleSet tree = .ok set ↔ RuleSet.parse text = .ok set := by
  simp [ruleSet, hPath, hPlain, RuleSet.load, ConfigError.readFile, hRead, mapError_eq_ok_iff]

/-- A comparison ends with a report iff all four inputs are accepted, and then it is the report of
these inputs. -/
theorem compare_eq_ok_iff {a : CompareArguments} {tree : FileTree} {flows reference : String}
    (hFlows : tree.read a.flows = .ok flows) (hReference : tree.read a.reference = .ok reference)
    {report : Report} :
    (a.compare tree).outcome = .ok report ↔
      ∃ set stats, a.ruleSet tree = .ok set ∧ a.readStats tree = .ok stats ∧
        IsReport flows reference set stats a.settings.options report := by
  rw [outcome_compare, Dataset.outcome_load hFlows, Dataset.outcome_load hReference]
  simp only [bind_eq_ok_iff, mapError_eq_ok_iff, IsReport, settings]
  -- both sides ask for the same steps, and only the totals of the generator are read at another place
  constructor
  · rintro ⟨set, hSet, f, hf, r, hr, stats, hStats, c, hc, hReport⟩
    exact ⟨set, stats, hSet, hStats, f, r, c, hf, hr, hc, hReport⟩
  · rintro ⟨set, stats, hSet, hStats, f, r, c, hf, hr, hc, hReport⟩
    exact ⟨set, hSet, f, hf, r, hr, stats, hStats, c, hc, hReport⟩

namespace SameInputs

variable {a : CompareArguments} {tree fixtures : FileTree} {directory : String}
  (h : a.SameInputs tree fixtures directory)

include h

/-- The totals of the generator are the same ones. -/
theorem readStats_eq_ok_iff {stats : GeneratorStats} :
    a.readStats tree = .ok stats ↔ Fixture.readStats fixtures directory = .ok stats := by
  rw [readStats, Fixture.readStats]
  cases hPath : a.stats with
  | none => simp [Fixture.readJsonOr, h.noStats hPath]
  | some path =>
      obtain ⟨text, hRead, hFixture⟩ := h.stats path hPath
      simp only [mapError_eq_ok_iff, GeneratorStats.load_of_read hRead,
        Fixture.readJsonOr_of_read hFixture]

/-- The rules are the same ones. -/
theorem ruleSet_eq_ok_iff (hPlain : a.checkComplement = false) (name : String) {set : RuleSet} :
    a.ruleSet tree = .ok set ↔ ∃ rules,
      Fixture.readRules fixtures directory name a.settings = .ok rules ∧
        Fixture.rulesOf name a.settings rules = .ok set := by
  have hDocument := h.document
  cases hPath : a.rules with
  | none =>
      have hPrecise : a.settings.precise = true := by simpa [settings, hPath] using hDocument
      simp only [Fixture.readRules, hPrecise, if_true, Except.ok.injEq, exists_eq_left',
        Fixture.rulesOf_precise_eq_ok_iff hPrecise]
      simp only [ruleSet, hPath, hPlain, Bool.or_false]
      change RuleSet.precise <$> readNetworks a.networks >>= pure = _ ↔ _
      rw [bind_pure, map_eq_ok_iff]
      exact exists_congr fun networks => and_congr_left' mapM_network_eq_ok_iff
  | some path =>
      obtain ⟨text, hRead, hFixture⟩ := h.rules path hPath
      have hRules : a.settings.precise = false := by simpa [settings, hPath] using hDocument
      rw [ruleSet_of_read hPath hRead hPlain]
      simp [Fixture.readRules, hRules, Fixture.readRequired_of_read hFixture, Fixture.rulesOf,
        mapError_eq_ok_iff]

/-- The fixture produces its files iff the comparison comes to the report that they show. -/
theorem produce_eq_ok_iff (hPlain : a.checkComplement = false) {name description : String}
    {outputs : List (String × String)} :
    Fixture.produce fixtures directory ⟨name, description, .compare a.settings⟩ = .ok outputs ↔
      ∃ report, (a.compare tree).outcome = .ok report ∧ outputs = Fixture.filesOf report := by
  obtain ⟨flows, hFlows, hFlowsFixture⟩ := h.flows
  obtain ⟨reference, hReference, hReferenceFixture⟩ := h.reference
  simp only [compare_eq_ok_iff hFlows hReference, h.ruleSet_eq_ok_iff hPlain name,
    h.readStats_eq_ok_iff, Fixture.produce, bind_eq_ok_iff, mapError_eq_ok_iff,
    Fixture.readInputs_compare_eq_ok_iff hFlowsFixture hReferenceFixture]
  constructor
  · rintro ⟨_, ⟨stats, rules, hStats, hRules, rfl⟩, hRun⟩
    obtain ⟨set, report, hSet, hReport, rfl⟩ := Fixture.runCompare_eq_ok_iff.mp hRun
    exact ⟨report, ⟨set, stats, ⟨rules, hRules, hSet⟩, hStats, hReport⟩, rfl⟩
  · rintro ⟨report, ⟨set, stats, ⟨rules, hRules, hSet⟩, hStats, hReport⟩, rfl⟩
    exact ⟨_, ⟨stats, rules, hStats, hRules, rfl⟩,
      Fixture.runCompare_eq_ok_iff.mpr ⟨set, report, hSet, hReport, rfl⟩⟩

/-- A fixture that compares has outputs iff the command line has a report. -/
theorem exists_produce_iff (hPlain : a.checkComplement = false) {name description : String} :
    (∃ outputs, Fixture.produce fixtures directory ⟨name, description, .compare a.settings⟩ =
        .ok outputs) ↔ ∃ report, (a.compare tree).outcome = .ok report := by
  simp only [h.produce_eq_ok_iff hPlain]
  rw [exists_comm]
  simp only [exists_and_left, exists_eq, and_true]

/-- Precise rules lead to no report as long as nothing is known about the run. -/
theorem stats_of_precise (hPlain : a.checkComplement = false) (hPrecise : a.precise)
    {report : Report} (hReport : (a.compare tree).outcome = .ok report) : a.stats.isSome := by
  obtain ⟨flows, hFlows, _⟩ := h.flows
  obtain ⟨reference, hReference, _⟩ := h.reference
  obtain ⟨set, stats, hSet, hStats, hReport⟩ := (compare_eq_ok_iff hFlows hReference).mp hReport
  obtain ⟨rules, _, hRules⟩ := (h.ruleSet_eq_ok_iff hPlain "").mp hSet
  obtain ⟨networks, _, rfl⟩ := (Fixture.rulesOf_precise_eq_ok_iff hPrecise).mp hRules
  cases hPath : a.stats with
  | some path => rfl
  | none =>
      rw [readStats, hPath] at hStats
      cases hStats
      exact absurd hReport not_isReport_precise

/-- The options of a comparison that comes to a report may stand together, unless networks are given
that the rule document makes no use of. -/
theorem isConsistent_iff (hPlain : a.checkComplement = false) {report : Report}
    (hReport : (a.compare tree).outcome = .ok report) :
    a.IsConsistent ↔ a.networks = [] ∨ a.precise ∨ a.stats.isSome := by
  constructor
  · intro hConsistent
    refine or_iff_not_imp_left.mpr fun hGiven => .inr ?_
    exact hConsistent.stats (.inr hGiven)
  · intro hNetworks
    refine ⟨h.document, fun hGiven => ?_⟩
    rcases hNetworks with hNone | hPrecise | hStats
    · have hPrecise := hGiven.resolve_right fun hSome => hSome hNone
      exact h.stats_of_precise hPlain hPrecise hReport
    · exact h.stats_of_precise hPlain hPrecise hReport
    · exact hStats

/-- All paths are good for a command line, because the files behind them can be read or written. -/
theorem hasPaths (hWritable : ∀ path, path ∈ a.report ∨ path ∈ a.summary → tree.Writable path) :
    a.HasPaths where
  flows := h.flows.ne_empty
  reference := h.reference.ne_empty
  stats hPath := (h.stats "" hPath).ne_empty rfl
  rules hPath := (h.rules "" hPath).ne_empty rfl
  report hPath := (hWritable "" (.inl hPath)).ne_empty rfl
  summary hPath := (hWritable "" (.inr hPath)).ne_empty rfl

end SameInputs

/-- A comparison comes to a verdict iff it comes to a report. -/
theorem exitCode_mem_iff {a : CompareArguments} {tree : FileTree}
    (hWritable : ∀ path, path ∈ a.report ∨ path ∈ a.summary → tree.Writable path) :
    ((Invocation.compare a).run tree).exitCode ∈ [0, 4] ↔
      ∃ report, (a.compare tree).outcome = .ok report := by
  rw [Invocation.run]
  cases hCompare : (a.compare tree).outcome with
  | error e =>
      rw [run_of_error hCompare, RunResult.exitCode_show_of_error _ _ rfl]
      simpa using (a.failsOnly_compare tree e hCompare).not_verdict
  | ok report =>
      have hRun := delivers_of_writable hCompare hWritable
      exact iff_of_true (RunResult.exitCode_show_of_verdict _ _ hRun.outcome).1 ⟨report, rfl⟩

end CompareArguments

namespace ReplicateArguments

/-- The settings of a pipeline with the same options. -/
def settings (a : ReplicateArguments) : ReplicateSettings :=
  ⟨⟨a.loops, a.mergeAcrossLoops, a.inactiveTimeout, a.speed⟩, a.ignored⟩

/-- Whether the files that are named hold the inputs in the directory of a fixture. Plans are written
in different notations, and only their values are the same. -/
structure SameInputs (a : ReplicateArguments) (tree fixtures : FileTree) (directory : String) :
    Prop where
  table : tree.SameText a.input fixtures (joinPath directory "input.csv")
  plan : ∃ plan, a.readPlan tree = .ok plan ∧ Fixture.readPlan fixtures directory = .ok plan

namespace SameInputs

variable {a : ReplicateArguments} {tree fixtures : FileTree} {directory : String}
  (h : a.SameInputs tree fixtures directory)

include h

/-- The fixture produces its table iff the replication comes to it. -/
theorem produce_eq_ok_iff {name description : String} {outputs : List (String × String)} :
    Fixture.produce fixtures directory ⟨name, description, .replicate a.settings⟩ = .ok outputs ↔
      ∃ flows, (a.replicate tree).outcome = .ok flows ∧
        outputs = [("replicated.csv", flows.render)] := by
  obtain ⟨text, hRead, hFixture⟩ := h.table
  obtain ⟨plan, hPlan, hFixturePlan⟩ := h.plan
  rw [Fixture.readPlan] at hFixturePlan
  rw [outcome_replicate, Dataset.outcome_load hRead, hPlan]
  simp only [Fixture.produce, Fixture.readInputs, Fixture.readRequired_of_read hFixture,
    hFixturePlan, ok_bind, bind_eq_ok_iff, mapError_eq_ok_iff, pure_eq_ok_iff, Fixture.run,
    exists_eq_left', Fixture.runReplicate]
  constructor
  · rintro ⟨input, hInput, r, hMake, flows, hFlows, rfl⟩
    exact ⟨flows, ⟨r, hMake, input, hInput, hFlows⟩, rfl⟩
  · rintro ⟨flows, ⟨r, hMake, input, hInput, hFlows⟩, rfl⟩
    exact ⟨input, hInput, r, hMake, flows, hFlows, rfl⟩

/-- A fixture that replays has outputs iff the command line has flows to write. -/
theorem exists_produce_iff {name description : String} :
    (∃ outputs, Fixture.produce fixtures directory ⟨name, description, .replicate a.settings⟩ =
        .ok outputs) ↔ ∃ flows, (a.replicate tree).outcome = .ok flows := by
  simp only [h.produce_eq_ok_iff]
  rw [exists_comm]
  simp only [exists_and_left, exists_eq, and_true]

end SameInputs

/-- With a writable output, a replay fails only where it has no flows. -/
theorem exitCode_eq_zero_iff {a : ReplicateArguments} {tree : FileTree}
    (hWritable : tree.Writable a.output) :
    ((Invocation.replicate a).run tree).exitCode = 0 ↔
      ∃ flows, (a.replicate tree).outcome = .ok flows := by
  rw [Invocation.run]
  cases hReplicate : (a.replicate tree).outcome with
  | error e =>
      have hCode := (a.failsOnly_replicate tree e hReplicate).not_verdict
      rw [run_of_error hReplicate, RunResult.exitCode_show_of_error _ _ rfl]
      simpa using fun hZero => hCode (by simp [hZero])
  | ok flows =>
      obtain ⟨hRun, _⟩ := (run_of_flows hReplicate).resolve_left fun hRefused => hRefused.1 hWritable
      exact iff_of_true (RunResult.exitCode_show_of_ok _ _ hRun) ⟨flows, rfl⟩

end ReplicateArguments

/-- The command line and the pipelines of fixtures agree. A comparison of the inputs and with the
options of a fixture has a command line that comes to a verdict iff the pipeline succeeds, except
that the command line refuses networks without precise rules and without the totals of the
generator. The report and the summary are the ones that the pipeline produces, the summary without
its last line end. A replication succeeds iff the pipeline does, and stores the table that the
pipeline produces. -/
theorem pipelines_agree (tree fixtures : FileTree) (directory name description : String) :
    (∀ a : CompareArguments, a.SameInputs tree fixtures directory → a.checkComplement = false →
      (∀ path, path ∈ a.report ∨ path ∈ a.summary → tree.Writable path) →
      let shown := (Invocation.compare a).run tree
      let produced := Fixture.produce fixtures directory ⟨name, description, .compare a.settings⟩
      ((∃ arguments, Invocation.read? arguments = some (.compare a)) ∧ shown.exitCode ∈ [0, 4] ↔
        (∃ outputs, produced = .ok outputs) ∧ (a.networks = [] ∨ a.precise ∨ a.stats.isSome)) ∧
      ∀ outputs, produced = .ok outputs → ∃ report,
        outputs = [("report.md", report.document),
          ("summary.json", (Summary.ofReport report).text ++ "\n")] ∧
        shown.printed = (if a.report.isNone then report.document else "") ∧
        (a.OutputsApart tree → tree.Stores (a.outputs report) shown.tree)) ∧
    ∀ a : ReplicateArguments, a.SameInputs tree fixtures directory → tree.Writable a.output →
      let shown := (Invocation.replicate a).run tree
      let produced := Fixture.produce fixtures directory ⟨name, description, .replicate a.settings⟩
      (shown.exitCode = 0 ↔ ∃ outputs, produced = .ok outputs) ∧
      ∀ outputs, produced = .ok outputs → ∃ table, outputs = [("replicated.csv", table)] ∧
        tree.Stores [(a.output, table)] shown.tree := by
  constructor
  · intro a hInputs hPlain hWritable shown produced
    constructor
    -- the options are checked before any file is read, so both conditions only have to be exchanged
    · rw [hInputs.exists_produce_iff hPlain, CompareArguments.exitCode_mem_iff hWritable,
        CompareArguments.exists_read?_iff (hInputs.hasPaths hWritable), and_comm]
      refine and_congr_right fun hReported => ?_
      obtain ⟨report, hReport⟩ := hReported
      exact hInputs.isConsistent_iff hPlain hReport
    · intro outputs hOutputs
      obtain ⟨report, hReport, rfl⟩ := (hInputs.produce_eq_ok_iff hPlain).mp hOutputs
      obtain ⟨_, hPrinted, hStores⟩ := CompareArguments.delivers_of_writable hReport hWritable
      simp only [shown, Invocation.run, RunResult.printed_show, RunResult.tree_show]
      exact ⟨report, rfl, hPrinted, hStores⟩
  · intro a hInputs hWritable shown produced
    constructor
    · exact (ReplicateArguments.exitCode_eq_zero_iff hWritable).trans hInputs.exists_produce_iff.symm
    · intro outputs hOutputs
      obtain ⟨flows, hFlows, rfl⟩ := hInputs.produce_eq_ok_iff.mp hOutputs
      obtain ⟨_, hStores⟩ := (ReplicateArguments.run_of_flows hFlows).resolve_left
        fun hRefused => hRefused.1 hWritable
      simp only [shown, Invocation.run, RunResult.tree_show]
      exact ⟨flows.render, rfl, hStores⟩

/-- A flow outside of all rules fails the comparison in both ways, and a replay of it over one loop
gives it back. -/
theorem pipelines_agree_one_flow :
    let key : FlowKey := ⟨17, .ofNat .v4 0x0a000001, .ofNat .v4 0x0a000002, 1000, 53⟩
    let d : Dataset := [⟨key, 1000, 2000, 5, 500, none⟩]
    let tree : FileTree :=
      ⟨[(["flows.csv"], .file d.render), (["reference.csv"], .file (Dataset.render [])),
        (["rules.yaml"], .file "{rules: [], check_complement: true}"),
        (["input.csv"], .file d.render)]⟩
    let a : CompareArguments :=
      ⟨"flows.csv", "reference.csv", none, some "rules.yaml", false, [], false, false, false, false,
        some "report", some "summary", 0⟩
    let b : ReplicateArguments := ⟨"input.csv", none, 1, "out", false, none, 1.0, [], 0⟩
    let report : Report :=
      [Comparison.complementOutcome .packets 5, Comparison.complementOutcome .bytes 500]
    let summary := (Summary.ofReport report).text
    a.SameInputs tree tree "" ∧ b.SameInputs tree tree "" ∧
      Fixture.produce tree "" ⟨"compared", "", .compare a.settings⟩ =
        .ok [("report.md", report.document), ("summary.json", summary ++ "\n")] ∧
      (∃ arguments, Invocation.read? arguments = some (.compare a)) ∧
      ((Invocation.compare a).run tree).exitCode ∈ [0, 4] ∧
      tree.Stores [("report", report.document), ("summary", summary)]
        ((Invocation.compare a).run tree).tree ∧
      Fixture.produce tree "" ⟨"replayed", "", .replicate b.settings⟩ =
        .ok [("replicated.csv", d.render)] ∧
      ((Invocation.replicate b).run tree).exitCode = 0 ∧
      tree.Stores [("out", d.render)] ((Invocation.replicate b).run tree).tree := by
  intro key d tree a b report summary
  have hRoot : tree.node? [] = some .directory := rfl
  have hFlows : tree.read "flows.csv" = .ok d.render :=
    FileTree.IsPlainName.read_eq (by decide) hRoot rfl
  have hReference : tree.read "reference.csv" = .ok (Dataset.render []) :=
    FileTree.IsPlainName.read_eq (by decide) hRoot rfl
  have hRules : tree.read "rules.yaml" = .ok "{rules: [], check_complement: true}" :=
    FileTree.IsPlainName.read_eq (by decide) hRoot rfl
  have hInput : tree.read "input.csv" = .ok d.render :=
    FileTree.IsPlainName.read_eq (by decide) hRoot rfl
  have hStats : tree.hasPath (joinPath "" "stats.json") = false :=
    FileTree.IsPlainName.hasPath_join_empty (by decide) hRoot
  have hPlan : tree.hasPath (joinPath "" "replicator.json") = false :=
    FileTree.IsPlainName.hasPath_join_empty (by decide) hRoot
  have hWritable : ∀ path, path ∈ a.report ∨ path ∈ a.summary → tree.Writable path := by
    rintro path (hPath | hPath)
    · cases hPath
      exact FileTree.IsPlainName.writable (by decide) hRoot (by decide)
    · cases hPath
      exact FileTree.IsPlainName.writable (by decide) hRoot (by decide)
  have hOut : tree.Writable "out" := FileTree.IsPlainName.writable (by decide) hRoot (by decide)
  have hSame : a.SameInputs tree tree "" := by
    refine ⟨FileTree.sameText_root hFlows hFlows, FileTree.sameText_root hReference hReference,
      nofun, fun _ => hStats, rfl, ?_⟩
    rintro _ ⟨⟩
    exact FileTree.sameText_root hRules hRules
  have hSameReplay : b.SameInputs tree tree "" := by
    refine ⟨FileTree.sameText_root hInput hInput, .null, rfl, ?_⟩
    rw [Fixture.readPlan, Fixture.readJsonOr, hPlan]
    rfl
  have hParse : (Dataset.parse d.render).outcome = .ok d :=
    Dataset.parse_render_eq_ok_iff.mpr ⟨by decide, by rfl⟩
  have hEmpty : (Dataset.parse (Dataset.render [])).outcome = .ok [] :=
    Dataset.parse_render_eq_ok_iff.mpr ⟨by decide, by rfl⟩
  have hRuleSet : a.ruleSet tree = .ok ⟨[], true⟩ :=
    (CompareArguments.ruleSet_of_read rfl hRules rfl).mpr RuleSet.parse_complement_only
  have hOutcome : (a.compare tree).outcome = .ok report :=
    (CompareArguments.compare_eq_ok_iff hFlows hReference).mpr
      ⟨⟨[], true⟩, .zero, hRuleSet, rfl, d, [], ⟨d, [], .zero⟩, hParse, hEmpty, rfl, rfl⟩
  have hReplay : (b.replicate tree).outcome = .ok d := by
    have hFlows : (Replicator.mk .unchanged []).replayAll d (.plain 1) = .ok d := by decide +kernel
    have hMake : (Replicator.make .null b.ignored).outcome = .ok ⟨.unchanged, []⟩ := by rfl
    have hNull : b.readPlan tree = .ok .null := rfl
    rw [ReplicateArguments.outcome_replicate, hNull, ok_bind, hMake, mapError_ok, ok_bind,
      Dataset.outcome_load hInput, hParse, mapError_ok, ok_bind]
    change (Replicator.replicate _ d (.plain 1)).outcome.mapError _ = _
    rw [Replicator.outcome_replicate _ d (.plain 1) (by decide) (by decide), hFlows]
    rfl
  have hProduced : Fixture.produce tree "" ⟨"compared", "", .compare a.settings⟩ =
      .ok [("report.md", report.document), ("summary.json", summary ++ "\n")] :=
    (hSame.produce_eq_ok_iff rfl).mpr ⟨report, hOutcome, rfl⟩
  have hReplayed : Fixture.produce tree "" ⟨"replayed", "", .replicate b.settings⟩ =
      .ok [("replicated.csv", d.render)] :=
    hSameReplay.produce_eq_ok_iff.mpr ⟨d, hReplay, rfl⟩
  obtain ⟨hVerdict, hFiles⟩ := (pipelines_agree tree tree "" "compared" "").1 a hSame rfl hWritable
  obtain ⟨hDone, hTable⟩ := (pipelines_agree tree tree "" "replayed" "").2 b hSameReplay hOut
  obtain ⟨hRead, hCode⟩ := hVerdict.mpr ⟨⟨_, hProduced⟩, .inl rfl⟩
  obtain ⟨report', hEq, _, hStores⟩ := hFiles _ hProduced
  have hOutputs : a.outputs report' = [("report", report.document), ("summary", summary)] := by
    simp only [List.cons.injEq, Prod.mk.injEq, true_and, and_true, String.append_left_inj] at hEq
    rw [hEq.1, hEq.2]
    rfl
  have hApart : a.OutputsApart tree := by
    rintro _ ⟨⟩ _ ⟨⟩
    exact FileTree.IsPlainName.apart (by decide) hRoot (by decide) (by decide)
  obtain ⟨table, hTableEq, hTableStores⟩ := hTable _ hReplayed
  cases hTableEq
  exact ⟨hSame, hSameReplay, hProduced, hRead, hCode, hOutputs ▸ hStores hApart, hReplayed,
    hDone.mpr ⟨_, hReplayed⟩, hTableStores⟩

/-- A pipeline makes no use of networks without precise rules and succeeds. No command line asks for
the same comparison. -/
theorem networks_without_precise_refused :
    let tree : FileTree :=
      ⟨[(["flows.csv"], .file (Dataset.render [])), (["reference.csv"], .file (Dataset.render [])),
        (["rules.yaml"], .file "rules: []")]⟩
    let a : CompareArguments :=
      ⟨"flows.csv", "reference.csv", none, some "rules.yaml", false, ["10.0.0.0/8"], false, false,
        false, false, none, none, 0⟩
    a.SameInputs tree tree "" ∧
      (∃ outputs, Fixture.produce tree "" ⟨"compared", "", .compare a.settings⟩ = .ok outputs) ∧
      ∀ b : CompareArguments, b.SameInputs tree tree "" → b.settings = a.settings →
        ¬∃ arguments, Invocation.read? arguments = some (.compare b) := by
  intro tree a
  have hRoot : tree.node? [] = some .directory := rfl
  have hFlows : tree.read "flows.csv" = .ok (Dataset.render []) :=
    FileTree.IsPlainName.read_eq (by decide) hRoot rfl
  have hReference : tree.read "reference.csv" = .ok (Dataset.render []) :=
    FileTree.IsPlainName.read_eq (by decide) hRoot rfl
  have hRules : tree.read "rules.yaml" = .ok "rules: []" :=
    FileTree.IsPlainName.read_eq (by decide) hRoot rfl
  have hStats : tree.hasPath (joinPath "" "stats.json") = false :=
    FileTree.IsPlainName.hasPath_join_empty (by decide) hRoot
  have hSame : a.SameInputs tree tree "" := by
    refine ⟨FileTree.sameText_root hFlows hFlows, FileTree.sameText_root hReference hReference,
      nofun, fun _ => hStats, rfl, ?_⟩
    rintro _ ⟨⟩
    exact FileTree.sameText_root hRules hRules
  have hEmpty : (Dataset.parse (Dataset.render [])).outcome = .ok [] :=
    Dataset.parse_render_eq_ok_iff.mpr ⟨by decide, by rfl⟩
  have hRuleSet : a.ruleSet tree = .ok ⟨[], false⟩ :=
    (CompareArguments.ruleSet_of_read rfl hRules rfl).mpr RuleSet.parse_no_rules
  have hOutcome : (a.compare tree).outcome = .ok [] :=
    (CompareArguments.compare_eq_ok_iff hFlows hReference).mpr
      ⟨⟨[], false⟩, .zero, hRuleSet, rfl, [], [], ⟨[], [], .zero⟩, hEmpty, hEmpty, rfl, rfl⟩
  refine ⟨hSame, ⟨_, (hSame.produce_eq_ok_iff rfl).mpr ⟨[], hOutcome, rfl⟩⟩, ?_⟩
  rintro b hInputs hSettings ⟨arguments, hRead⟩
  have hNetworks : b.networks ≠ [] := by
    have hEq : b.networks = ["10.0.0.0/8"] := congrArg CompareSettings.networks hSettings
    simp [hEq]
  have hSome := (CompareArguments.isConsistent_of_read? hRead).stats (.inr hNetworks)
  obtain ⟨path, hPath⟩ := Option.isSome_iff_exists.mp hSome
  obtain ⟨_, _, hFixture⟩ := hInputs.stats path hPath
  simp [FileTree.hasPath_of_read hFixture] at hStats

end FlowAudit
