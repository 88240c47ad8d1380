import FlowAudit.Proofs.Fixture.Check
import FlowAudit.Proofs.Path
/-!
Expected outputs that are written anew. The files that are written stand in a directory of their
own, apart from everything that a fixture is loaded from, so the fixture stays the same up to what
it expects. A fixture that could be loaded has all of these files already, so that no write can
fail after the first one.
-/
namespace FlowAudit.Fixture

open FileTree

/-- The names of the files that are read for the inputs of some pipeline. -/
def inputNames : List String :=
  ["input.csv", "replicator.json", "flows.csv", "reference.csv", "stats.json", "rules.yaml"]

theorem isPlainName_of_mem_inputNames {file : String} (h : file ∈ inputNames) : IsPlainName file := by
  have hAll : ∀ file ∈ inputNames, IsPlainName file := by decide
  exact hAll file h

theorem isPlainName_expected : IsPlainName "expected" := by
  decide

/-- The names of outputs are plain, so they stay in the directory they are written to. -/
theorem isPlainName_of_mem_outputNames {pipeline : Pipeline} {file : String}
    (h : file ∈ pipeline.outputNames) : IsPlainName file := by
  cases pipeline with
  | replicate s =>
      cases List.mem_singleton.mp h
      decide
  | compare s =>
      have hNames : file = "report.md" ∨ file = "summary.json" := by
        simpa [Pipeline.outputNames] using h
      rcases hNames with rfl | rfl <;> decide

section SameFiles

variable {tree tree' : FileTree}

theorem readFile_congr {path : String} (h : tree'.find path = tree.find path) :
    readFile tree' path = readFile tree path := by
  rw [readFile, readFile, read_congr h]

/-- An input that is found as before is read as before. -/
theorem readRequired_congr {directory file : String}
    (h : tree'.find (joinPath directory file) = tree.find (joinPath directory file))
    (name : String) :
    readRequired tree' directory name file = readRequired tree directory name file := by
  simp only [readRequired, hasPath_congr h, readFile_congr h]

theorem readJson_congr {α : Type} {path : String} (h : tree'.find path = tree.find path)
    (part : Json.Part) (ofJson? : Json → Option α) :
    readJson tree' path part ofJson? = readJson tree path part ofJson? := by
  simp only [readJson, readFile_congr h]

theorem readJsonOr_congr {α : Type} {path : String} (h : tree'.find path = tree.find path)
    (part : Json.Part) (ofJson? : Json → Option α) (default : α) :
    readJsonOr tree' path part ofJson? default = readJsonOr tree path part ofJson? default := by
  simp only [readJsonOr, hasPath_congr h, readJson_congr h]

/-- Inputs come from the files of their names and from nowhere else. -/
theorem readInputs_congr {directory : String}
    (h : ∀ file ∈ inputNames,
      tree'.find (joinPath directory file) = tree.find (joinPath directory file))
    (name : String) (pipeline : Pipeline) :
    readInputs tree' directory name pipeline = readInputs tree directory name pipeline := by
  simp only [inputNames, List.forall_mem_cons] at h
  obtain ⟨hTable, hPlan, hFlows, hReference, hStats, hRules, _⟩ := h
  cases pipeline with
  | replicate s => simp only [readInputs, readRequired_congr hTable, readJsonOr_congr hPlan]
  | compare s =>
      simp only [readInputs, readRequired_congr hFlows, readRequired_congr hReference,
        readJsonOr_congr hStats, readRequired_congr hRules]

end SameFiles

/-- Where the directory of a fixture is, and that it holds some files as expected outputs. -/
structure Holds (tree : FileTree) (directory : String) (d : Location) (files : List String) :
    Prop where
  way : tree.walk (origin directory) (components directory) = .ok d
  isDirectory : tree.node? d = some .directory
  hasExpected : tree.node? (d ++ ["expected"]) = some .directory
  hasFiles : ∀ file ∈ files, ∃ text, tree.node? (d ++ ["expected"] ++ [file]) = some (.file text)

namespace Holds

variable {tree tree' : FileTree} {directory : String} {d : Location} {files : List String}

/-- A fixture that is loaded has its expected outputs. -/
theorem of_loadFrom {name : String} {f : Fixture} (h : loadFrom tree directory name = .ok f) :
    ∃ d, Holds tree directory d (f.expected.map Prod.fst) := by
  have hWell := isWellFormed_of_loadFrom h
  obtain ⟨_, _, hExpected⟩ := loadFrom_eq_ok_iff.mp h
  obtain ⟨names, hNames, hEntries, _⟩ := readExpected_eq_ok_iff.mp hExpected
  obtain ⟨e, hLocate, hDirectory, _⟩ := names_eq_ok_iff.mp hNames
  obtain ⟨d, hWay, hParent, rfl⟩ := isPlainName_expected.locate_join_eq_ok_iff.mp hLocate
  refine ⟨d, hWay, hParent, hDirectory, ?_⟩
  intro file hFile
  obtain ⟨entry, hEntry, rfl⟩ := List.mem_map.mp hFile
  have hPlain := isPlainName_of_mem_outputNames (hWell.produced entry hEntry)
  rw [← hEntries] at hEntry
  obtain ⟨_, _, hFound⟩ := List.mem_filterMap.mp hEntry
  obtain ⟨rfl, hFind⟩ := expectedFile?_eq_some_iff.mp hFound
  obtain ⟨l, hFileLocate, hNode, _⟩ := find_eq_file_iff.mp hFind
  rw [hPlain.locate_join_of_directory (isPlainName_expected.walk_join tree directory ▸ hLocate)
    hDirectory] at hFileLocate
  cases hFileLocate
  exact ⟨_, hNode⟩

variable (h : Holds tree directory d files)

include h

theorem of_sameShape (hShape : tree.SameShape tree') : Holds tree' directory d files where
  way := (hShape.walk_eq _ _).trans h.way
  isDirectory := hShape.directory_iff.mpr h.isDirectory
  hasExpected := hShape.directory_iff.mpr h.hasExpected
  hasFiles file hFile := hShape.exists_file (h.hasFiles file hFile)

/-- The way to the expected outputs leads through the directory of the fixture. -/
theorem wayExpected :
    tree.walk (origin (joinPath directory "expected")) (components (joinPath directory "expected")) =
      .ok (d ++ ["expected"]) := by
  rw [isPlainName_expected.walk_join]
  exact isPlainName_expected.locate_join_of_directory h.way h.isDirectory

end Holds

/-- The contents that are written, each at its location. -/
def contents (d : Location) (outputs : List (String × String)) (files : List String) :
    List (Location × String) :=
  files.map fun file => (d ++ ["expected"] ++ [file], outputOf outputs file)

/-- Writing the expected outputs of a fixture that has all of them always succeeds. -/
theorem writeAll_of_holds {tree : FileTree} {directory : String} {d : Location}
    {outputs : List (String × String)} {files : List String}
    (hPlain : ∀ file ∈ files, IsPlainName file) (h : Holds tree directory d files) :
    writeAll (joinPath directory "expected") outputs files tree =
      .ok (tree.putFiles (contents d outputs files)) := by
  induction files generalizing tree with
  | nil => rfl
  | cons file rest ih =>
      obtain ⟨hFile, hRest⟩ := List.forall_mem_cons.mp hPlain
      obtain ⟨old, hOld⟩ := h.hasFiles file (List.mem_cons_self ..)
      have hWrite := hFile.write_join h.wayExpected h.hasExpected hOld (outputOf outputs file)
      have hNext := h.of_sameShape (sameShape_put hOld (outputOf outputs file))
      rw [writeAll, hWrite, mapError_ok, ok_bind]
      exact ih hRest ⟨hNext.way, hNext.isDirectory, hNext.hasExpected,
        fun other hOther => hNext.hasFiles other (List.mem_cons_of_mem _ hOther)⟩

section Written

variable {tree : FileTree} {directory : String} {d : Location} {outputs : List (String × String)}
  {files : List String}

theorem map_fst_contents :
    (contents d outputs files).map Prod.fst = files.map fun file => d ++ ["expected"] ++ [file] := by
  rw [contents, List.map_map]
  rfl

theorem nodup_contents (h : files.Nodup) : ((contents d outputs files).map Prod.fst).Nodup := by
  rw [map_fst_contents]
  exact h.map fun _ _ hEq => List.singleton_injective (List.append_cancel_left hEq)

/-- No input stands among the expected outputs. -/
theorem notMem_contents (name : String) : d ++ [name] ∉ (contents d outputs files).map Prod.fst := by
  rw [map_fst_contents, List.mem_map]
  rintro ⟨file, _, hEq⟩
  simpa using congrArg List.length hEq

variable (h : Holds tree directory d files)

include h

/-- Writing expected outputs anew puts files where there are files already. -/
theorem sameShape_written (outputs : List (String × String)) :
    tree.SameShape (tree.putFiles (contents d outputs files)) := by
  refine sameShape_putFiles fun entry hEntry => ?_
  obtain ⟨file, hFile, rfl⟩ := List.mem_map.mp hEntry
  exact h.hasFiles file hFile

/-- Everything right in the directory of the fixture is found as before. -/
theorem find_input_written {name : String} (hPlain : IsPlainName name) :
    (tree.putFiles (contents d outputs files)).find (joinPath directory name) =
      tree.find (joinPath directory name) := by
  refine (sameShape_written h outputs).find_eq fun l hLocate => ?_
  rw [hPlain.locate_join_of_directory h.way h.isDirectory] at hLocate
  cases hLocate
  exact node?_putFiles_of_notMem (notMem_contents name)

/-- Each expected output is found with its new content. -/
theorem find_output_written (hNodup : files.Nodup) {file : String} (hFile : file ∈ files)
    (hPlain : IsPlainName file) :
    (tree.putFiles (contents d outputs files)).find
        (joinPath (joinPath directory "expected") file) = .ok (.file (outputOf outputs file)) := by
  have hAfter := h.of_sameShape (sameShape_written h outputs)
  have hNode := node?_putFiles_of_mem (t := tree) (nodup_contents hNodup)
    (List.mem_map_of_mem hFile : _ ∈ contents d outputs files)
  rw [hPlain.find_join hAfter.wayExpected hAfter.hasExpected, hNode]
  rfl

end Written

/-- The fixture that expects what it produces. -/
def withOutputs (f : Fixture) (outputs : List (String × String)) : Fixture :=
  { f with expected := f.expected.map fun entry => (entry.1, outputOf outputs entry.1) }

theorem map_fst_withOutputs (f : Fixture) (outputs : List (String × String)) :
    (f.withOutputs outputs).expected.map Prod.fst = f.expected.map Prod.fst := by
  rw [withOutputs, List.map_map]
  rfl

/-- A run does not depend on what is expected. -/
theorem run_withOutputs (f : Fixture) (outputs : List (String × String)) :
    (f.withOutputs outputs).run = f.run := rfl

/-- What expects its own outputs passes. -/
theorem check_withOutputs {f : Fixture} {outputs : List (String × String)}
    (h : f.run = .ok outputs) : (f.withOutputs outputs).check = .ok ⟨f.scenario.name, []⟩ := by
  rw [check_of_run ((run_withOutputs f outputs).trans h), withOutputs, List.filterMap_map]
  have hNone : (f.expected.filterMap ((fun entry : String × String =>
      Difference.between entry.1 entry.2 (outputOf outputs entry.1)) ∘
        fun entry => (entry.1, outputOf outputs entry.1))) = [] := by
    rw [List.filterMap_eq_nil_iff]
    exact fun entry _ => Difference.between_eq_none_iff.mpr rfl
  rw [hNone]

section Loaded

variable {tree : FileTree} {directory name : String} {f : Fixture} {d : Location}
  {outputs : List (String × String)} (hLoad : loadFrom tree directory name = .ok f)
  (hHolds : Holds tree directory d (f.expected.map Prod.fst))

include hLoad

theorem nodup_expected_of_loadFrom : (f.expected.map Prod.fst).Nodup :=
  (isWellFormed_of_loadFrom hLoad).ascending.nodup

theorem isPlainName_of_loadFrom {file : String} (hFile : file ∈ f.expected.map Prod.fst) :
    IsPlainName file := by
  obtain ⟨entry, hEntry, rfl⟩ := List.mem_map.mp hFile
  exact isPlainName_of_mem_outputNames ((isWellFormed_of_loadFrom hLoad).produced entry hEntry)

include hHolds

/-- Whatever has changed is a file that was expected before. -/
theorem file_of_changed {l : Location}
    (hChanged : (tree.putFiles (contents d outputs (f.expected.map Prod.fst))).node? l ≠
      tree.node? l) :
    ∃ file ∈ f.expected.map Prod.fst,
      tree.locate (joinPath (joinPath directory "expected") file) = .ok l ∧
      ∃ old new, tree.node? l = some (.file old) ∧
        (tree.putFiles (contents d outputs (f.expected.map Prod.fst))).node? l =
          some (.file new) := by
  have hMem : l ∈ (contents d outputs (f.expected.map Prod.fst)).map Prod.fst :=
    by_contra fun hNot => hChanged (node?_putFiles_of_notMem hNot)
  rw [map_fst_contents] at hMem
  obtain ⟨file, hFile, rfl⟩ := List.mem_map.mp hMem
  have hPlain := isPlainName_of_loadFrom hLoad hFile
  refine ⟨file, hFile, hPlain.locate_join_of_directory hHolds.wayExpected hHolds.hasExpected, ?_⟩
  exact ((sameShape_written hHolds outputs).nodes _).resolve_left hChanged

/-- The entries in the directory of the expected outputs are the same ones as before, each with the
content that was written. -/
theorem expectedFile?_written {names : List String}
    (hEntries : names.filterMap (expectedFile? tree (joinPath directory "expected")) = f.expected)
    {file : String} (hFile : file ∈ names) :
    expectedFile? (tree.putFiles (contents d outputs (f.expected.map Prod.fst)))
        (joinPath directory "expected") file =
      (expectedFile? tree (joinPath directory "expected") file).map
        fun entry => (entry.1, outputOf outputs entry.1) := by
  have hShape := sameShape_written hHolds outputs
  cases hOld : expectedFile? tree (joinPath directory "expected") file with
  | none =>
      rw [Option.map_none, Option.eq_none_iff_forall_ne_some]
      intro entry hNew
      obtain ⟨rfl, hFind⟩ := expectedFile?_eq_some_iff.mp hNew
      obtain ⟨old, hFindOld⟩ := hShape.symm.exists_find_file ⟨_, hFind⟩
      have hSome := expectedFile?_eq_some_iff.mpr
        (⟨rfl, hFindOld⟩ : (entry.1, old).1 = entry.1 ∧ _)
      cases hOld.symm.trans hSome
  | some entry =>
      have hEntry : entry ∈ f.expected := hEntries ▸ List.mem_filterMap.mpr ⟨file, hFile, hOld⟩
      obtain ⟨rfl, _⟩ := expectedFile?_eq_some_iff.mp hOld
      have hName : entry.1 ∈ f.expected.map Prod.fst := List.mem_map_of_mem hEntry
      exact expectedFile?_eq_some_iff.mpr ⟨rfl, find_output_written hHolds
        (nodup_expected_of_loadFrom hLoad) hName (isPlainName_of_loadFrom hLoad hName)⟩

/-- A fixture that can be loaded and run has its expected outputs replaced. -/
theorem regenerate_of_run (hName : name = nameOf directory) (hRun : f.run = .ok outputs) :
    regenerate tree directory =
      .ok (tree.putFiles (contents d outputs (f.expected.map Prod.fst))) := by
  rw [regenerate, ← hName, hLoad, mapError_ok, ok_bind, hRun, ok_bind]
  exact writeAll_of_holds (fun _ => isPlainName_of_loadFrom hLoad) hHolds

/-- Once the expected outputs are written, the same fixture is loaded, and it expects them. -/
theorem loadFrom_written (outputs : List (String × String)) :
    loadFrom (tree.putFiles (contents d outputs (f.expected.map Prod.fst))) directory name =
      .ok (f.withOutputs outputs) := by
  have hShape := sameShape_written hHolds outputs
  obtain ⟨hScenario, hInputs, hExpected⟩ := loadFrom_eq_ok_iff.mp hLoad
  obtain ⟨names, hNames, hEntries, hProduced, hSome⟩ := readExpected_eq_ok_iff.mp hExpected
  refine loadFrom_eq_ok_iff.mpr ⟨?_, ?_, ?_⟩
  · rw [readJson_congr (find_input_written hHolds (by decide))]
    exact hScenario
  · rw [readInputs_congr fun file hFile =>
      find_input_written hHolds (isPlainName_of_mem_inputNames hFile)]
    exact hInputs
  · refine readExpected_eq_ok_iff.mpr ⟨names, hShape.names_eq_ok_iff.mpr hNames, ?_, ?_, ?_⟩
    · refine (List.filterMap_congr fun file hFile =>
        expectedFile?_written hLoad hHolds hEntries hFile).trans ?_
      rw [← List.map_filterMap, hEntries, withOutputs]
    · intro entry hEntry
      obtain ⟨old, hOld, rfl⟩ := List.mem_map.mp hEntry
      exact hProduced old hOld
    · exact fun hNone => hSome (List.map_eq_nil_iff.mp hNone)

end Loaded

/-- Writes files into a directory and keeps the tree that is left if one of them cannot be written. -/
def writeSteps (directory : String) (outputs : List (String × String)) :
    List String → FileTree → Except RunError Unit × FileTree
  | [], tree => (.ok (), tree)
  | file :: rest, tree =>
    match tree.write (joinPath directory file) (outputOf outputs file) with
    | .ok tree => writeSteps directory outputs rest tree
    | .error cause => (.error (.unwritable (joinPath directory file) cause), tree)

/-- Replaces the expected outputs of a fixture and keeps the tree that is left in any case. -/
def regenerateSteps (tree : FileTree) (directory : String) : Except RunError Unit × FileTree :=
  match loadFrom tree directory (nameOf directory) with
  | .error cause => (.error (.load cause), tree)
  | .ok f =>
    match f.run with
    | .error e => (.error e, tree)
    | .ok outputs =>
      writeSteps (joinPath directory "expected") outputs (f.expected.map Prod.fst) tree

/-- Writing one file after the other ends with the tree of its steps, unless a step fails. -/
theorem writeAll_eq_steps {directory : String} {outputs : List (String × String)}
    {files : List String} {tree : FileTree} :
    writeAll directory outputs files tree =
      (writeSteps directory outputs files tree).1.map
        fun _ => (writeSteps directory outputs files tree).2 := by
  induction files generalizing tree with
  | nil => rfl
  | cons file rest ih =>
      rw [writeAll, writeSteps]
      cases tree.write (joinPath directory file) (outputOf outputs file) with
      | error cause => rfl
      | ok next => exact ih

/-- The tree that is left after a success is the one that is returned. -/
theorem regenerate_eq_steps (tree : FileTree) (directory : String) :
    regenerate tree directory =
      (regenerateSteps tree directory).1.map fun _ => (regenerateSteps tree directory).2 := by
  rw [regenerate, regenerateSteps]
  cases loadFrom tree directory (nameOf directory) with
  | error cause => rfl
  | ok f =>
      simp only [mapError_ok, ok_bind]
      cases f.run with
      | error e => rfl
      | ok outputs => exact writeAll_eq_steps

/-- The ways in which expected outputs cannot be written anew. -/
theorem regenerate_eq_error_iff {tree : FileTree} {directory : String} {e : RunError} :
    regenerate tree directory = .error e ↔
      (∃ cause, loadFrom tree directory (nameOf directory) = .error cause ∧ .load cause = e) ∨
        ∃ f, loadFrom tree directory (nameOf directory) = .ok f ∧ f.run = .error e := by
  rw [regenerate, bind_eq_error_iff, mapError_eq_error_iff]
  refine or_congr_right (exists_congr fun f => ?_)
  rw [mapError_eq_ok_iff, bind_eq_error_iff]
  refine and_congr_right fun hLoad => or_iff_left ?_
  rintro ⟨outputs, hRun, hWrite⟩
  obtain ⟨d, hHolds⟩ := Holds.of_loadFrom hLoad
  rw [writeAll_of_holds (fun _ => isPlainName_of_loadFrom hLoad) hHolds] at hWrite
  cases hWrite

/-- Only loading and running can fail, and both come before the first file is written. -/
theorem regenerateSteps_of_error {tree : FileTree} {directory : String} {e : RunError}
    (h : regenerate tree directory = .error e) : (regenerateSteps tree directory).2 = tree := by
  rcases regenerate_eq_error_iff.mp h with ⟨cause, hLoad, _⟩ | ⟨f, hLoad, hRun⟩
  · rw [regenerateSteps, hLoad]
  · rw [regenerateSteps, hLoad]
    simp only [hRun]

/-- Expected outputs that are written anew conform. The fixture is then loaded with the scenario, the
inputs and the names of the expected outputs that it had before, it passes its check, and writing
them once more changes nothing. Only files that were expected before have changed. If the fixture
cannot be loaded or run, and in no other case, the writing fails, and then all files are left as they
were. -/
theorem regenerate_conforms (tree : FileTree) (directory : String) :
    let steps := regenerateSteps tree directory
    regenerate tree directory = steps.1.map (fun _ => steps.2) ∧
    (∀ tree', regenerate tree directory = .ok tree' → ∃ f f' : Fixture,
      (∀ name, loadFrom tree directory name = .ok f) ∧
      (∀ name, loadFrom tree' directory name = .ok f') ∧
      f'.scenario = f.scenario ∧ f'.inputs = f.inputs ∧
      f'.expected.map Prod.fst = f.expected.map Prod.fst ∧
      f'.check = .ok ⟨f.scenario.name, []⟩ ∧
      (∀ l, tree'.node? l ≠ tree.node? l → ∃ file ∈ f.expected.map Prod.fst,
        tree.locate (joinPath (joinPath directory "expected") file) = .ok l ∧
        ∃ old new, tree.node? l = some (.file old) ∧ tree'.node? l = some (.file new)) ∧
      regenerate tree' directory = .ok tree') ∧
    ∀ e,
      (regenerate tree directory = .error e ↔
        (∃ cause, loadFrom tree directory (nameOf directory) = .error cause ∧ .load cause = e) ∨
          ∃ f, loadFrom tree directory (nameOf directory) = .ok f ∧ f.run = .error e) ∧
      (regenerate tree directory = .error e → steps.2 = tree) := by
  refine ⟨regenerate_eq_steps tree directory, fun tree' hDone => ?_,
    fun e => ⟨regenerate_eq_error_iff, regenerateSteps_of_error⟩⟩
  obtain ⟨f, hLoaded, hRest⟩ := bind_eq_ok_iff.mp hDone
  have hLoad := mapError_eq_ok_iff.mp hLoaded
  obtain ⟨outputs, hRun, _⟩ := bind_eq_ok_iff.mp hRest
  obtain ⟨d, hHolds⟩ := Holds.of_loadFrom hLoad
  have hTree := hDone.symm.trans (regenerate_of_run hLoad hHolds rfl hRun)
  cases hTree
  have hShape := sameShape_written hHolds outputs
  have hAgain := loadFrom_written hLoad hHolds outputs
  refine ⟨f, f.withOutputs outputs, fun name => (loadFrom_eq_ok_iff_of_name _ name).mp hLoad,
    fun name => (loadFrom_eq_ok_iff_of_name _ name).mp hAgain, rfl, rfl,
    map_fst_withOutputs f outputs, check_withOutputs hRun, ?_, ?_⟩
  · exact fun l hChanged => file_of_changed hLoad hHolds hChanged
  · have hHoldsAgain : Holds (tree.putFiles (contents d outputs (f.expected.map Prod.fst))) directory
        d ((f.withOutputs outputs).expected.map Prod.fst) := by
      rw [map_fst_withOutputs]
      exact hHolds.of_sameShape hShape
    rw [regenerate_of_run hAgain hHoldsAgain rfl hRun, map_fst_withOutputs,
      putFiles_putFiles (nodup_contents (nodup_expected_of_loadFrom hLoad))]

set_option maxRecDepth 20000 in
/-- A scenario that is written as an array, with all options of a comparison left out. -/
theorem readPart?_scenario :
    (Json.readPart? (.record Scenario.names) "[\"n\",\"\",[\"compare\"]]").bind Scenario.ofJson? =
      some ⟨"n", "", .compare ⟨⟨false, false, false⟩, false, []⟩⟩ := by
  have hTokens : Json.tokens? "[\"n\",\"\",[\"compare\"]]".toList =
      some [.openArray, .string (some "n"), .comma, .string (some ""), .comma, .openArray,
        .string (some "compare"), .closeArray, .closeArray] := by rfl
  rw [Json.readPart?, Json.Written.ofText?, hTokens]
  rfl

/-- Only the summary is expected, so only the summary is written. -/
theorem regenerate_conforms_old_summary :
    let tree : FileTree :=
      ⟨[(["fx"], .directory), (["fx", "scenario.json"], .file "[\"n\",\"\",[\"compare\"]]"),
        (["fx", "flows.csv"], .file (Dataset.render [])),
        (["fx", "reference.csv"], .file (Dataset.render [])),
        (["fx", "rules.yaml"], .file "rules: []"), (["fx", "expected"], .directory),
        (["fx", "expected", "summary.json"], .file "")]⟩
    ∃ tree' f', regenerate tree "fx" = .ok tree' ∧ tree' ≠ tree ∧
      (∀ name, loadFrom tree' "fx" name = .ok f') ∧ f'.expected.map Prod.fst = ["summary.json"] ∧
      f'.check = .ok ⟨"n", []⟩ ∧ regenerate tree' "fx" = .ok tree' := by
  intro tree
  have hFx : IsPlainName "fx" := by decide
  have hWay : tree.walk (origin "fx") (components "fx") = .ok ["fx"] := by
    rw [hFx.origin_eq, hFx.components_eq]
    rfl
  have hHere : tree.node? ["fx"] = some .directory := rfl
  have hRead : ∀ file text, IsPlainName file → tree.node? ["fx", file] = some (.file text) →
      tree.read (joinPath "fx" file) = .ok text :=
    fun _ _ hPlain hNode => hPlain.read_join hWay hHere hNode
  let f : Fixture :=
    ⟨⟨"n", "", .compare ⟨⟨false, false, false⟩, false, []⟩⟩,
      .compare (Dataset.render []) (Dataset.render []) .zero (some "rules: []"),
      [("summary.json", "")]⟩
  have hInputs : readInputs tree "fx" (nameOf "fx") f.scenario.pipeline = .ok f.inputs := by
    have hStats : tree.hasPath (joinPath "fx" "stats.json") = false :=
      IsPlainName.hasPath_join (by decide) hWay hHere
    refine (readInputs_compare_eq_ok_iff (hRead "flows.csv" _ (by decide) rfl)
      (hRead "reference.csv" _ (by decide) rfl)).mpr ⟨.zero, some "rules: []", ?_, ?_, rfl⟩
    · simp [readStats, readJsonOr, hStats]
    · have hRules := hRead "rules.yaml" "rules: []" (by decide) rfl
      simp [readRules, readRequired_of_read hRules]
  have hExpected : readExpected tree "fx" (nameOf "fx") f.scenario.pipeline.outputNames =
      .ok f.expected := by
    have hDirectory : tree.locate (joinPath "fx" "expected") = .ok ["fx", "expected"] :=
      isPlainName_expected.locate_join_of_directory hWay hHere
    have hFind : tree.find (joinPath (joinPath "fx" "expected") "summary.json") = .ok (.file "") :=
      IsPlainName.find_join (by decide) (isPlainName_expected.walk_join tree "fx" ▸ hDirectory) rfl
    refine readExpected_eq_ok_iff.mpr ⟨["summary.json"], ?_, ?_, by decide, by decide⟩
    · refine names_eq_ok_iff.mpr ⟨["fx", "expected"], hDirectory, rfl, ?_⟩
      have hChildren : tree.children ["fx", "expected"] = ["summary.json"] := by rfl
      rw [hChildren, ascending_singleton]
    · have hFound : expectedFile? tree (joinPath "fx" "expected") "summary.json" =
          some ("summary.json", "") := expectedFile?_eq_some_iff.mpr ⟨rfl, hFind⟩
      rw [List.filterMap_cons_some hFound]
      rfl
  have hScenario : readJson tree (joinPath "fx" "scenario.json") (.record Scenario.names)
      Scenario.ofJson? = .ok f.scenario :=
    (readJson_of_read (hRead "scenario.json" "[\"n\",\"\",[\"compare\"]]" (by decide) rfl)).mpr
      readPart?_scenario
  have hLoad : loadFrom tree "fx" (nameOf "fx") = .ok f :=
    loadFrom_eq_ok_iff.mpr ⟨hScenario, hInputs, hExpected⟩
  have hRun : f.run = .ok (filesOf []) := run_compare_nothing ..
  obtain ⟨tree', hDone⟩ : ∃ tree', regenerate tree "fx" = .ok tree' := by
    cases hResult : regenerate tree "fx" with
    | ok tree' => exact ⟨tree', rfl⟩
    | error e =>
        rcases ((regenerate_conforms tree "fx").2.2 e).1.mp hResult with ⟨_, hFails, _⟩ | ⟨_, h, hFails⟩
        · cases hLoad.symm.trans hFails
        · cases hLoad.symm.trans h
          cases hRun.symm.trans hFails
  obtain ⟨g, f', hBefore, hAfter, _, _, hNames, hCheck, _, hAgain⟩ :=
    (regenerate_conforms tree "fx").2.1 tree' hDone
  cases hLoad.symm.trans (hBefore _)
  refine ⟨tree', f', hDone, ?_, hAfter, hNames, hCheck, hAgain⟩
  -- a tree that stayed the same would still expect an empty summary
  rintro rfl
  cases hLoad.symm.trans (hAfter _)
  have hSame := hCheck.symm.trans (check_of_run hRun)
  simp [f, outputOf, filesOf, List.lookup, Difference.between] at hSame

end FlowAudit.Fixture
