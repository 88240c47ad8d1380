import FlowAudit.Command.Run
import FlowAudit.Proofs.Dataset.Loaded
import FlowAudit.Proofs.Path
import FlowAudit.Proofs.Replication.Outcome
import FlowAudit.Proofs.Rule.Document
/-!
What the commands leave behind. An input that is refused has an exit code of its own and is found
before the first file is written, so such a run leaves all files alone. A run that comes to a
verdict has stored each of its outputs and nothing else.
-/
namespace FlowAudit

/-- Whether an error tells that an input is refused, and not an output. -/
def CommandError.IsOfInput (e : CommandError) : Prop :=
  e.exitCode ∈ [1, 2, 3]

namespace CompareArguments

/-- The totals of the generator, zero without a file. -/
def readStats (a : CompareArguments) (tree : FileTree) : Except CommandError GeneratorStats :=
  match a.stats with
  | some path => (GeneratorStats.load tree path).mapError .config
  | none => .ok .zero

/-- A comparison without its messages. -/
theorem outcome_compare (a : CompareArguments) (tree : FileTree) :
    (a.compare tree).outcome = (do
      let set ← a.ruleSet tree
      let flows ← (Dataset.load tree a.flows).outcome.mapError CommandError.dataset
      let reference ← (Dataset.load tree a.reference).outcome.mapError CommandError.dataset
      let stats ← a.readStats tree
      let c ← (Comparison.prepare flows reference stats
        ⟨a.merge, a.biflows, a.alignReference⟩).outcome.mapError CommandError.merge
      (c.validate set.rules set.checkComplement).outcome.mapError CommandError.validation) := by
  rw [compare, readStats]
  cases a.stats with
  | none => simp
  | some path => simp

end CompareArguments

namespace ReplicateArguments

/-- The plan of a replay, null without a file. -/
def readPlan (a : ReplicateArguments) (tree : FileTree) : Except CommandError Json :=
  match a.plan with
  | some path => (loadPlanValue tree path).mapError .config
  | none => .ok .null

/-- A replication without its messages. -/
theorem outcome_replicate (a : ReplicateArguments) (tree : FileTree) :
    (a.replicate tree).outcome = (do
      let plan ← a.readPlan tree
      let r ← (Replicator.make plan a.ignored).outcome.mapError CommandError.replication
      let input ← (Dataset.load tree a.input).outcome.mapError CommandError.dataset
      (r.replicate input ⟨a.loops, a.mergeAcrossLoops, a.inactiveTimeout, a.speed⟩).outcome.mapError
        CommandError.replication) := by
  rw [replicate, readPlan]
  cases a.plan with
  | none => simp
  | some path => simp

end ReplicateArguments

/-- An error of the input does not end a run with the code of a success or of failed tests. -/
theorem CommandError.IsOfInput.not_verdict {e : CommandError} (h : e.IsOfInput) :
    e.exitCode ∉ [0, 4] := by
  simp only [IsOfInput, List.mem_cons, List.not_mem_nil, or_false] at h ⊢
  omega

section InputErrors

open CommandError

namespace Dataset

theorem failsOnly_flowsOfRows (line : Nat) (rows : List Row) :
    FailsOnly (fun e => (dataset e).IsOfInput) (flowsOfRows line rows) := by
  induction rows generalizing line with
  | nil => exact .ok _
  | cons row rest ih =>
      rw [flowsOfRows]
      cases row.toFlow with
      | error cause => exact .error (by simp [IsOfInput, exitCode])
      | ok flow => exact (ih _).bind fun _ => .ok _

/-- A text that is no table is an error of the input. -/
theorem failsOnly_parse (text : String) :
    FailsOnly (fun e => (dataset e).IsOfInput) (parse text).outcome := by
  rw [outcome_parse]
  cases missingColumn? (headerOf text) with
  | some column => exact .error (by simp [IsOfInput, exitCode])
  | none =>
      refine .bind (.of_mapError _ fun _ => ?_) fun rows => ?_
      · simp [IsOfInput, exitCode]
      · exact (failsOnly_flowsOfRows 2 rows).bind fun _ => .ok _

/-- A missing file and a text that is no table are both errors of the input. -/
theorem failsOnly_load (tree : FileTree) (path : String) :
    FailsOnly (fun e => (dataset e).IsOfInput) (load tree path).outcome := by
  cases hRead : tree.read path with
  | ok text =>
      rw [outcome_load hRead]
      exact failsOnly_parse text
  | error cause =>
      rw [load, hRead]
      cases cause <;> exact .error (by simp [IsOfInput, exitCode])

end Dataset

theorem isOfInput_config (e : ConfigError) : (config e).IsOfInput := by
  cases e <;> simp [IsOfInput, exitCode]

/-- Rules come from a file, from networks of the command line or from the defaults, and each of
these ways fails with an error of the input. -/
theorem CompareArguments.failsOnly_ruleSet (a : CompareArguments) (tree : FileTree) :
    FailsOnly IsOfInput (a.ruleSet tree) := by
  rw [ruleSet]
  cases a.rules with
  | some path => exact (FailsOnly.of_mapError _ isOfInput_config).bind fun _ => .ok _
  | none =>
      have hNetworks : FailsOnly IsOfInput (readNetworks a.networks) := by
        refine .mapM fun text _ => ?_
        split
        · exact .ok _
        · exact .error (by simp [IsOfInput, exitCode])
      refine .bind ?_ fun _ => .ok _
      cases hRead : readNetworks a.networks with
      | error e => exact .error (hNetworks e hRead)
      | ok networks => exact .ok _

/-- Before the report there are only errors of the input, whichever step ends the comparison. -/
theorem CompareArguments.failsOnly_compare (a : CompareArguments) (tree : FileTree) :
    FailsOnly IsOfInput (a.compare tree).outcome := by
  have hStats : FailsOnly IsOfInput (a.readStats tree) := by
    rw [readStats]
    cases a.stats with
    | some path => exact .of_mapError _ isOfInput_config
    | none => exact .ok _
  rw [outcome_compare]
  refine (a.failsOnly_ruleSet tree).bind fun set => ?_
  refine ((Dataset.failsOnly_load tree a.flows).mapError fun _ h => h).bind fun flows => ?_
  refine ((Dataset.failsOnly_load tree a.reference).mapError fun _ h => h).bind fun reference => ?_
  refine hStats.bind fun stats => .bind (.of_mapError _ fun _ => ?_) fun c => ?_
  · simp [IsOfInput, exitCode]
  · refine .of_mapError _ fun e => ?_
    cases e <;> simp [IsOfInput, exitCode]

/-- Before the output is written there are only errors of the input. -/
theorem ReplicateArguments.failsOnly_replicate (a : ReplicateArguments) (tree : FileTree) :
    FailsOnly IsOfInput (a.replicate tree).outcome := by
  have hPlan : FailsOnly IsOfInput (a.readPlan tree) := by
    rw [readPlan]
    cases a.plan with
    | some path => exact .of_mapError _ isOfInput_config
    | none => exact .ok _
  have hReplication : ∀ e, (replication e).IsOfInput := by
    intro e
    cases e <;> simp [IsOfInput, exitCode]
  rw [outcome_replicate]
  refine hPlan.bind fun plan => .bind (.of_mapError _ hReplication) fun r => ?_
  refine ((Dataset.failsOnly_load tree a.input).mapError fun _ h => h).bind fun input => ?_
  exact .of_mapError _ hReplication

end InputErrors

namespace CompareArguments

/-- The texts that a comparison stores, each with its path. -/
def outputs (a : CompareArguments) (report : Report) : List (String × String) :=
  (a.report.toList.map fun path => (path, report.document)) ++
    a.summary.toList.map fun path => (path, (Summary.ofReport report).text)

/-- Whether the report and the summary are different files. -/
def OutputsApart (a : CompareArguments) (tree : FileTree) : Prop :=
  ∀ path ∈ a.report, ∀ other ∈ a.summary, tree.Apart path other

/-- The verdict of a report depends on its failed tests alone. -/
theorem outcome_verdict (report : Report) :
    (verdict report).outcome = if report.passes then .ok () else
      .error (.testsFailed report.failed.length report.length) := by
  have hPasses : 0 < report.failed.length ↔ ¬report.passes := by
    simp [Report.failed, Report.passes, List.length_pos_iff]
  rw [verdict]
  by_cases h : report.passes
  · simp [h, hPasses]
  · simp [h, hPasses]

/-- A run that comes to a verdict, with all outputs stored or printed. -/
structure Delivers (a : CompareArguments) (tree : FileTree) (report : Report) (r : RunResult) :
    Prop where
  outcome : r.outcome = (verdict report).outcome
  printed : r.printed = if a.report.isNone then report.document else ""
  stores : a.OutputsApart tree → tree.Stores (a.outputs report) r.tree

/-- The end of a comparison. Either the summary cannot be written, or the verdict is the outcome and
the tree holds what was stored before and the summary. -/
theorem finish_cases (a : CompareArguments) (report : Report) (log : Log) (printed : String)
    {before tree : FileTree} {texts : List (String × String)} (h : before.Stores texts tree) :
    let r := a.finish report log tree printed
    (∃ path ∈ a.summary, ¬before.Writable path ∧
        ∃ cause, r.outcome = .error (.unwritable path cause)) ∨
      r.outcome = (verdict report).outcome ∧ r.printed = printed ∧
        ((∀ entry ∈ texts, ∀ path ∈ a.summary, before.Apart entry.1 path) →
          before.Stores
            (texts ++ a.summary.toList.map fun path => (path, (Summary.ofReport report).text))
            r.tree) := by
  cases hSummary : a.summary with
  | none =>
      right
      simpa [finish, hSummary] using h
  | some path =>
      simp only [finish, hSummary, writeText]
      cases hWrite : tree.write path (Summary.ofReport report).text with
      | error cause =>
          refine .inl ⟨path, rfl, fun hWritable => ?_, cause, rfl⟩
          obtain ⟨_, hWritten⟩ := h.writable hWritable (Summary.ofReport report).text
          cases hWrite.symm.trans hWritten
      | ok written =>
          right
          refine ⟨rfl, rfl, fun hApart => ?_⟩
          exact h.write hWrite fun entry hEntry => hApart entry hEntry path rfl

/-- The rest of a comparison once its report is known. -/
def conclude (a : CompareArguments) (report : Report) (log : Log) (tree : FileTree) : RunResult :=
  match a.report with
  | none => a.finish report log tree report.document
  | some path =>
    match writeText tree path report.document with
    | .error e => ⟨log, tree, "", .error e⟩
    | .ok tree => a.finish report log tree ""

theorem run_eq_conclude {a : CompareArguments} {tree : FileTree} {report : Report}
    (h : (a.compare tree).outcome = .ok report) :
    a.run tree = a.conclude report (a.compare tree).log tree := by
  simp only [run, h]
  rfl

/-- Once the report is known, only an output that cannot be written keeps the run from its
verdict. -/
theorem conclude_cases (a : CompareArguments) (report : Report) (log : Log) (tree : FileTree) :
    (∃ path, (path ∈ a.report ∨ path ∈ a.summary) ∧ ¬tree.Writable path ∧
        ∃ cause, (a.conclude report log tree).outcome = .error (.unwritable path cause)) ∨
      a.Delivers tree report (a.conclude report log tree) := by
  rw [conclude]
  cases hReport : a.report with
  | none =>
      rcases a.finish_cases report log report.document tree.stores_nil with
        ⟨path, hPath, hRefused⟩ | ⟨hOutcome, hPrinted, hStores⟩
      · exact .inl ⟨path, .inr hPath, hRefused⟩
      · refine .inr ⟨hOutcome, by simpa [hReport] using hPrinted, fun _ => ?_⟩
        simpa [outputs, hReport] using hStores (List.forall_mem_nil _)
  | some path =>
      simp only [writeText]
      cases hWrite : tree.write path report.document with
      | error cause =>
          refine .inl ⟨path, .inl rfl, fun hWritable => ?_, cause, rfl⟩
          obtain ⟨_, hWritten⟩ := hWritable report.document
          cases hWrite.symm.trans hWritten
      | ok written =>
          have hFirst := tree.stores_nil.write hWrite (List.forall_mem_nil _)
          rcases a.finish_cases report log "" hFirst with
            ⟨path, hPath, hRefused⟩ | ⟨hOutcome, hPrinted, hStores⟩
          · exact .inl ⟨path, .inr hPath, hRefused⟩
          · refine .inr ⟨hOutcome, by simpa [hReport] using hPrinted, fun hApart => ?_⟩
            simpa [outputs, hReport] using hStores (by simpa [OutputsApart, hReport] using hApart)

/-- The report is written before anything else is done with it. -/
theorem conclude_of_not_writable {a : CompareArguments} {tree : FileTree} {path : String}
    (hPath : a.report = some path) (h : ¬tree.Writable path) (report : Report) (log : Log) :
    ∃ cause, (a.conclude report log tree).outcome = .error (.unwritable path cause) := by
  simp only [conclude, hPath, writeText]
  cases hWrite : tree.write path report.document with
  | error cause => exact ⟨cause, rfl⟩
  | ok written => exact absurd (FileTree.writable_of_write hWrite) h

/-- A comparison that has a report delivers it, or one of its files cannot be written. -/
theorem run_of_report {a : CompareArguments} {tree : FileTree} {report : Report}
    (h : (a.compare tree).outcome = .ok report) :
    (∃ path, (path ∈ a.report ∨ path ∈ a.summary) ∧ ¬tree.Writable path ∧
        ∃ cause, (a.run tree).outcome = .error (.unwritable path cause)) ∨
      a.Delivers tree report (a.run tree) := by
  rw [run_eq_conclude h]
  exact a.conclude_cases report _ tree

/-- Where both files can be written, only the delivery is left. -/
theorem delivers_of_writable {a : CompareArguments} {tree : FileTree} {report : Report}
    (h : (a.compare tree).outcome = .ok report)
    (hWritable : ∀ path, path ∈ a.report ∨ path ∈ a.summary → tree.Writable path) :
    a.Delivers tree report (a.run tree) :=
  (run_of_report h).resolve_left fun ⟨path, hPath, hRefused, _⟩ => hRefused (hWritable path hPath)

/-- A comparison without a report leaves the tree as it is and prints nothing. -/
theorem run_of_error {a : CompareArguments} {tree : FileTree} {e : CommandError}
    (h : (a.compare tree).outcome = .error e) :
    a.run tree = ⟨(a.compare tree).log, tree, "", .error e⟩ := by
  simp only [run, h]

end CompareArguments

namespace ReplicateArguments

/-- A replay that fails leaves the tree as it is and prints nothing. -/
theorem run_of_error {a : ReplicateArguments} {tree : FileTree} {e : CommandError}
    (h : (a.replicate tree).outcome = .error e) :
    a.run tree = ⟨(a.replicate tree).log, tree, "", .error e⟩ := by
  simp only [run, h]

/-- A replay that succeeds stores its flows, or its output cannot be written. -/
theorem run_of_flows {a : ReplicateArguments} {tree : FileTree} {flows : Dataset}
    (h : (a.replicate tree).outcome = .ok flows) :
    (¬tree.Writable a.output ∧
        ∃ cause, (a.run tree).outcome = .error (.dataset (.unwritable a.output cause))) ∨
      (a.run tree).outcome = .ok () ∧ tree.Stores [(a.output, flows.render)] (a.run tree).tree := by
  simp only [run, h, Dataset.save]
  cases hWrite : tree.write a.output flows.render with
  | error cause =>
      refine .inl ⟨fun hWritable => ?_, cause, rfl⟩
      obtain ⟨_, hWritten⟩ := hWritable flows.render
      cases hWrite.symm.trans hWritten
  | ok written => exact .inr ⟨rfl, tree.stores_nil.write hWrite (List.forall_mem_nil _)⟩

end ReplicateArguments

namespace RunResult

variable (r : RunResult) (verbosity : Nat)

@[simp] theorem tree_show : (r.show verbosity).tree = r.tree := by
  rw [RunResult.show]
  split <;> rfl

@[simp] theorem printed_show : (r.show verbosity).printed = r.printed := by
  rw [RunResult.show]
  split <;> rfl

theorem exitCode_show_of_ok (h : r.outcome = .ok ()) : (r.show verbosity).exitCode = 0 := by
  rw [RunResult.show, h]

theorem exitCode_show_of_error {e : CommandError} (h : r.outcome = .error e) :
    (r.show verbosity).exitCode = e.exitCode := by
  rw [RunResult.show, h]

/-- A verdict fails iff an outcome does. -/
theorem exitCode_show_of_verdict {report : Report}
    (h : r.outcome = (CompareArguments.verdict report).outcome) :
    (r.show verbosity).exitCode ∈ [0, 4] ∧
      ((r.show verbosity).exitCode = 4 ↔ ∃ o ∈ report, ¬o.passes) := by
  rw [CompareArguments.outcome_verdict] at h
  by_cases hPasses : report.passes
  · rw [if_pos hPasses] at h
    rw [r.exitCode_show_of_ok verbosity h]
    simpa [Report.passes] using hPasses
  · rw [if_neg hPasses] at h
    rw [r.exitCode_show_of_error verbosity h]
    simpa [CommandError.exitCode, Report.passes] using hPasses

end RunResult

/-- A run ends with the exit code of a refused input iff an input is refused, and then it leaves all
files alone and prints nothing. A comparison that comes to a verdict has stored or printed the
report and stored the summary of the same report, and it fails iff an outcome does. A replication
that succeeds has stored the table of the replayed flows. Nothing else is changed, and any other
exit code is due to an output that cannot be written. -/
theorem outputs_of_run (tree : FileTree) :
    (∀ a : CompareArguments,
      let shown := (Invocation.compare a).run tree
      (shown.exitCode ∈ [1, 2, 3] ↔ ∃ e, (a.compare tree).outcome = .error e) ∧
      (shown.exitCode ∈ [1, 2, 3] → shown.tree = tree ∧ shown.printed = "") ∧
      (shown.exitCode ∈ [0, 4] → ∃ report, (a.compare tree).outcome = .ok report ∧
        shown.printed = (if a.report.isNone then report.document else "") ∧
        (a.OutputsApart tree → tree.Stores (a.outputs report) shown.tree) ∧
        (shown.exitCode = 4 ↔ ∃ o ∈ report, ¬o.passes)) ∧
      (shown.exitCode ∉ [0, 1, 2, 3, 4] →
        ∃ path, (path ∈ a.report ∨ path ∈ a.summary) ∧ ¬tree.Writable path)) ∧
    ∀ a : ReplicateArguments,
      let shown := (Invocation.replicate a).run tree
      (shown.exitCode ∈ [1, 2, 3] ↔ ∃ e, (a.replicate tree).outcome = .error e) ∧
      (shown.exitCode ∈ [1, 2, 3] → shown.tree = tree ∧ shown.printed = "") ∧
      (shown.exitCode = 0 → ∃ flows, (a.replicate tree).outcome = .ok flows ∧
        tree.Stores [(a.output, flows.render)] shown.tree) ∧
      (shown.exitCode ∉ [0, 1, 2, 3] → ¬tree.Writable a.output) := by
  constructor
  · intro a
    simp only [Invocation.run, RunResult.tree_show, RunResult.printed_show]
    cases hCompare : (a.compare tree).outcome with
    | error e =>
        have hInput := a.failsOnly_compare tree e hCompare
        rw [CompareArguments.run_of_error hCompare, RunResult.exitCode_show_of_error _ _ rfl]
        refine ⟨iff_of_true hInput ⟨e, rfl⟩, fun _ => ⟨rfl, rfl⟩, fun hVerdict => ?_, fun hOther => ?_⟩
        · exact absurd hVerdict hInput.not_verdict
        · exact absurd (List.mem_cons_of_mem 0 (List.mem_append_left [4] hInput)) hOther
    | ok report =>
        rcases CompareArguments.run_of_report hCompare with ⟨path, hPath, hRefused, _, hRun⟩ | hRun
        · rw [RunResult.exitCode_show_of_error _ _ hRun]
          simpa [CommandError.exitCode] using ⟨path, hPath, hRefused⟩
        · obtain ⟨hCode, hFails⟩ := RunResult.exitCode_show_of_verdict _ a.verbosity hRun.outcome
          have hInput : ((a.run tree).show a.verbosity).exitCode ∉ [1, 2, 3] := by
            rcases List.mem_pair.mp hCode with h | h <;> simp [h]
          refine ⟨by simpa using hInput, fun h => absurd h hInput, fun _ => ?_, fun hOther => ?_⟩
          · exact ⟨report, rfl, hRun.printed, hRun.stores, hFails⟩
          · rcases List.mem_pair.mp hCode with h | h <;> simp [h] at hOther
  · intro a
    simp only [Invocation.run, RunResult.tree_show, RunResult.printed_show]
    cases hReplicate : (a.replicate tree).outcome with
    | error e =>
        have hInput := a.failsOnly_replicate tree e hReplicate
        rw [ReplicateArguments.run_of_error hReplicate, RunResult.exitCode_show_of_error _ _ rfl]
        refine ⟨iff_of_true hInput ⟨e, rfl⟩, fun _ => ⟨rfl, rfl⟩, fun hDone => ?_, fun hOther => ?_⟩
        · exact absurd (by simp [hDone]) hInput.not_verdict
        · exact absurd (List.mem_cons_of_mem 0 hInput) hOther
    | ok flows =>
        rcases ReplicateArguments.run_of_flows hReplicate with
          ⟨hRefused, _, hRun⟩ | ⟨hRun, hStores⟩
        · rw [RunResult.exitCode_show_of_error _ _ hRun]
          simpa [CommandError.exitCode] using hRefused
        · rw [RunResult.exitCode_show_of_ok _ _ hRun]
          simpa using hStores

/-- A flow outside of all rules fails the comparison, and the report replaces an old file. Without
the rules the old file is left alone, and a replay replaces it as well. -/
theorem outputs_of_run_old_file :
    let key : FlowKey := ⟨17, .ofNat .v4 0x0a000001, .ofNat .v4 0x0a000002, 1000, 53⟩
    let d : Dataset := [⟨key, 1000, 2000, 5, 500, none⟩]
    let tree : FileTree :=
      ⟨[(["f"], .file d.render), (["g"], .file (Dataset.render [])), (["r"], .file "rules: []"),
        (["o"], .file "old")]⟩
    let a : CompareArguments :=
      ⟨"f", "g", none, some "r", false, [], false, false, false, true, some "o", some "s", 0⟩
    let missing : CompareArguments := { a with rules := some "m" }
    let b : ReplicateArguments := ⟨"f", none, 1, "o", false, none, 1.0, [], 0⟩
    let report : Report :=
      [Comparison.complementOutcome .packets 5, Comparison.complementOutcome .bytes 500]
    a.OutputsApart tree ∧ ((Invocation.compare a).run tree).exitCode = 4 ∧
      tree.Stores [("o", report.document), ("s", (Summary.ofReport report).text)]
        ((Invocation.compare a).run tree).tree ∧
      ((Invocation.compare missing).run tree).exitCode ∈ [1, 2, 3] ∧
      ((Invocation.compare missing).run tree).tree = tree ∧
      ((Invocation.replicate b).run tree).exitCode = 0 ∧
      tree.Stores [("o", d.render)] ((Invocation.replicate b).run tree).tree := by
  intro key d tree a missing b report
  obtain ⟨hCompare, hReplicate⟩ := outputs_of_run tree
  have hRoot : tree.node? [] = some .directory := rfl
  have hFlows : tree.read "f" = .ok d.render :=
    FileTree.IsPlainName.read_eq (by decide) hRoot rfl
  have hReference : tree.read "g" = .ok (Dataset.render []) :=
    FileTree.IsPlainName.read_eq (by decide) hRoot rfl
  have hRules : tree.read "r" = .ok "rules: []" :=
    FileTree.IsPlainName.read_eq (by decide) hRoot rfl
  have hMissing : tree.read "m" = .error .notFound :=
    FileTree.IsPlainName.read_eq_notFound (by decide) hRoot rfl
  have hReport : tree.Writable "o" := FileTree.IsPlainName.writable (by decide) hRoot (by decide)
  have hSummary : tree.Writable "s" := FileTree.IsPlainName.writable (by decide) hRoot (by decide)
  have hDifferent : tree.Apart "o" "s" :=
    FileTree.IsPlainName.apart (by decide) hRoot (by decide) (by decide)
  have hApart : a.OutputsApart tree := by
    rintro _ ⟨⟩ _ ⟨⟩
    exact hDifferent
  have hRuleSet : a.ruleSet tree = .ok ⟨[], true⟩ := by
    rw [CompareArguments.ruleSet]
    change (RuleSet.load tree "r").mapError _ >>= _ = _
    rw [RuleSet.load, ConfigError.readFile, hRules, mapError_ok, ok_bind, RuleSet.parse_no_rules]
    rfl
  have hTable : (Dataset.load tree "f").outcome = .ok d := by
    rw [Dataset.outcome_load hFlows]
    exact Dataset.parse_render_eq_ok_iff.mpr ⟨by decide, by rfl⟩
  have hEmpty : (Dataset.load tree "g").outcome = .ok [] := by
    rw [Dataset.outcome_load hReference]
    exact Dataset.parse_render_eq_ok_iff.mpr ⟨by decide, by rfl⟩
  have hOutcome : (a.compare tree).outcome = .ok report := by
    rw [CompareArguments.outcome_compare, hRuleSet, hTable, hEmpty]
    rfl
  have hRefused : (missing.compare tree).outcome = .error (.config (.unreadable "m" .notFound)) := by
    rw [CompareArguments.outcome_compare, CompareArguments.ruleSet]
    change ((RuleSet.load tree "m").mapError _ >>= _) >>= _ = _
    rw [RuleSet.load, ConfigError.readFile, hMissing]
    rfl
  have hReplay : (b.replicate tree).outcome = .ok d := by
    have hFlows : (Replicator.mk .unchanged []).replayAll d (.plain 1) = .ok d := by decide +kernel
    have hPlan : b.readPlan tree = .ok .null := rfl
    have hMake : (Replicator.make .null b.ignored).outcome = .ok ⟨.unchanged, []⟩ := by rfl
    rw [ReplicateArguments.outcome_replicate, hPlan, ok_bind, hMake, mapError_ok, ok_bind, hTable,
      mapError_ok, ok_bind]
    change (Replicator.replicate _ d (.plain 1)).outcome.mapError _ = _
    rw [Replicator.outcome_replicate _ d (.plain 1) (by decide) (by decide), hFlows]
    rfl
  have hDelivers : a.Delivers tree report (a.run tree) := by
    refine CompareArguments.delivers_of_writable hOutcome ?_
    rintro path (hPath | hPath)
    · exact Option.some.inj hPath ▸ hReport
    · exact Option.some.inj hPath ▸ hSummary
  obtain ⟨hCode, hFails⟩ := RunResult.exitCode_show_of_verdict _ 0 hDelivers.outcome
  obtain ⟨report', hEq, _, hStores, _⟩ := (hCompare a).2.2.1 hCode
  cases hOutcome.symm.trans hEq
  have hMissingCode := (hCompare missing).1.mpr ⟨_, hRefused⟩
  have hDone : ((Invocation.replicate b).run tree).exitCode = 0 := by
    by_contra hCode
    have hInput : ((Invocation.replicate b).run tree).exitCode ∉ [1, 2, 3] := by
      rw [(hReplicate b).1, hReplay]
      simp
    exact (hReplicate b).2.2.2 (List.not_mem_cons_of_ne_of_not_mem hCode hInput) hReport
  obtain ⟨flows, hFlowsEq, hTableStores⟩ := (hReplicate b).2.2.1 hDone
  cases hReplay.symm.trans hFlowsEq
  exact ⟨hApart, hFails.mpr ⟨_, List.mem_cons_self .., by decide⟩, hStores hApart, hMissingCode,
    ((hCompare missing).2.1 hMissingCode).1, hDone, hTableStores⟩

end FlowAudit
