import FlowAudit.Proofs.FileTree.Shape
import FlowAudit.Proofs.Fixture.Produce
/-!
What a directory of a fixture must hold for the fixture to be loaded. The name of the fixture only
occurs in errors, and the expected outputs are files that the pipeline produces, by ascending names.
-/
namespace FlowAudit.Fixture

/-- What loading makes sure of: every expected output has a name of its own, the names ascend, and
the pipeline produces a file of each name. -/
structure IsWellFormed (f : Fixture) : Prop where
  ascending : (f.expected.map Prod.fst).Pairwise (· < ·)
  produced : ∀ entry ∈ f.expected, entry.1 ∈ f.scenario.pipeline.outputNames

/-- The entry of a file among the expected outputs, unless there is no such file. -/
def expectedFile? (tree : FileTree) (path file : String) : Option (String × String) :=
  match tree.find (joinPath path file) with
  | .ok (.file content) => some (file, content)
  | _ => none

/-- An expected output is a file with the name of the entry. Directories among the entries count as
none. -/
theorem expectedFile?_eq_some_iff {tree : FileTree} {path file : String}
    {entry : String × String} :
    expectedFile? tree path file = some entry ↔
      entry.1 = file ∧ tree.find (joinPath path file) = .ok (.file entry.2) := by
  rw [expectedFile?]
  split
  · next content hFind =>
      rw [hFind]
      constructor
      · rintro ⟨⟩
        exact ⟨rfl, rfl⟩
      · rintro ⟨rfl, hContent⟩
        cases hContent
        rfl
  · next hFind => exact iff_of_false nofun fun h => hFind _ h.2

/-- Reads one entry of the directory of expected outputs. -/
def readEntry (tree : FileTree) (path name : String) (outputs : List String) (file : String) :
    Except LoadError (Option (String × String)) :=
  match tree.find (joinPath path file) with
  | .ok (.file content) =>
    if outputs.contains file then .ok (some (file, content)) else .error (.unknownOutput name file)
  | _ => .ok none

/-- An entry is refused iff it is a file that the pipeline does not produce. -/
theorem readEntry_eq_ok_iff (tree : FileTree) (path name : String) (outputs : List String)
    (file : String) (o : Option (String × String)) :
    readEntry tree path name outputs file = .ok o ↔
      (∀ entry, expectedFile? tree path file = some entry → entry.1 ∈ outputs) ∧
        expectedFile? tree path file = o := by
  rw [readEntry, expectedFile?]
  split
  · by_cases hProduced : file ∈ outputs <;> simp [hProduced]
  · simp

theorem hasPath_of_names {tree : FileTree} {path : String} {files : List String}
    (h : tree.names path = .ok files) : tree.hasPath path = true := by
  obtain ⟨l, hLocate, hDirectory, _⟩ := FileTree.names_eq_ok_iff.mp h
  simp only [FileTree.hasPath, FileTree.find, hLocate, ok_bind, hDirectory]
  rfl

/-- The expected outputs are the files in their directory, and all of them are produced. -/
theorem readExpected_eq_ok_iff {tree : FileTree} {directory name : String} {outputs : List String}
    {expected : List (String × String)} :
    readExpected tree directory name outputs = .ok expected ↔
      ∃ files, tree.names (joinPath directory "expected") = .ok files ∧
        files.filterMap (expectedFile? tree (joinPath directory "expected")) = expected ∧
        (∀ entry ∈ expected, entry.1 ∈ outputs) ∧ expected ≠ [] := by
  rw [readExpected]
  by_cases hPath : tree.hasPath (joinPath directory "expected")
  · simp only [hPath, Bool.not_true, Bool.false_eq_true, if_false, bind_eq_ok_iff,
      mapError_eq_ok_iff]
    refine exists_congr fun files => and_congr_right fun _ => ?_
    refine (exists_congr fun entries => and_congr_left fun _ => filterMapM_eq_ok_iff
      (readEntry_eq_ok_iff tree (joinPath directory "expected") name outputs)).trans ?_
    constructor
    · rintro ⟨entries, ⟨hProduced, rfl⟩, hEnd⟩
      split at hEnd
      · cases hEnd
      · next hSome =>
          cases hEnd
          refine ⟨rfl, fun entry hEntry => ?_, by simpa using hSome⟩
          obtain ⟨file, hFile, hFound⟩ := List.mem_filterMap.mp hEntry
          exact hProduced file hFile entry hFound
    · rintro ⟨rfl, hProduced, hSome⟩
      refine ⟨_, ⟨fun file hFile entry hFound => ?_, rfl⟩, ?_⟩
      · exact hProduced entry (List.mem_filterMap.mpr ⟨file, hFile, hFound⟩)
      · rw [if_neg (by simpa using hSome)]
        rfl
  · simp only [hPath]
    refine iff_of_false nofun ?_
    rintro ⟨files, hNames, _⟩
    exact hPath (hasPath_of_names hNames)

/-- The names of the expected outputs are those of the files in their directory. -/
theorem map_fst_filterMap_expectedFile? (tree : FileTree) (path : String) (files : List String) :
    (files.filterMap (expectedFile? tree path)).map Prod.fst =
      files.filter fun file => (expectedFile? tree path file).isSome := by
  rw [List.map_filterMap, ← List.filterMap_eq_filter]
  refine List.filterMap_congr fun file _ => ?_
  cases hEntry : expectedFile? tree path file with
  | none => simp [Option.guard, hEntry]
  | some entry => simp [Option.guard, hEntry, (expectedFile?_eq_some_iff.mp hEntry).1]

/-- A fixture is loaded iff its scenario, its inputs and its expected outputs can all be read, in
this order. -/
theorem loadFrom_eq_ok_iff {tree : FileTree} {directory name : String} {f : Fixture} :
    loadFrom tree directory name = .ok f ↔
      readJson tree (joinPath directory "scenario.json") (.record Scenario.names)
          Scenario.ofJson? = .ok f.scenario ∧
        readInputs tree directory name f.scenario.pipeline = .ok f.inputs ∧
        readExpected tree directory name f.scenario.pipeline.outputNames = .ok f.expected := by
  simp only [loadFrom, bind_eq_ok_iff, pure_eq_ok_iff]
  constructor
  · rintro ⟨scenario, hScenario, inputs, hInputs, expected, hExpected, rfl⟩
    exact ⟨hScenario, hInputs, hExpected⟩
  · rintro ⟨hScenario, hInputs, hExpected⟩
    exact ⟨_, hScenario, _, hInputs, _, hExpected, rfl⟩

/-- Every fixture that is loaded is well-formed. -/
theorem isWellFormed_of_loadFrom {tree : FileTree} {directory name : String} {f : Fixture}
    (h : loadFrom tree directory name = .ok f) : f.IsWellFormed := by
  obtain ⟨_, _, hExpected⟩ := loadFrom_eq_ok_iff.mp h
  obtain ⟨files, hNames, hEntries, hProduced, _⟩ := readExpected_eq_ok_iff.mp hExpected
  obtain ⟨l, _, _, rfl⟩ := FileTree.names_eq_ok_iff.mp hNames
  refine ⟨?_, hProduced⟩
  rw [← hEntries, map_fst_filterMap_expectedFile?]
  exact (pairwise_ascending _).filter _

theorem readRequired_eq_ok_iff {tree : FileTree} {directory name file text : String} :
    readRequired tree directory name file = .ok text ↔
      tree.read (joinPath directory file) = .ok text := by
  rw [readRequired]
  split
  · rw [readFile, mapError_eq_ok_iff]
  · next hPath => exact iff_of_false (by simp) fun hRead => hPath (FileTree.hasPath_of_read hRead)

/-- Inputs are read under every name, or under none. -/
theorem readInputs_eq_ok_iff_of_name (name other : String) {tree : FileTree} {directory : String}
    {pipeline : Pipeline} {inputs : FixtureInputs} :
    readInputs tree directory name pipeline = .ok inputs ↔
      readInputs tree directory other pipeline = .ok inputs := by
  cases pipeline with
  | replicate s => simp only [readInputs, bind_eq_ok_iff, readRequired_eq_ok_iff]
  | compare s =>
      cases hPrecise : s.precise <;>
        simp only [readInputs, hPrecise, bind_eq_ok_iff, readRequired_eq_ok_iff, map_eq_ok_iff,
          if_true, if_false, Bool.false_eq_true]

/-- A fixture is loaded under every name, or under none. -/
theorem loadFrom_eq_ok_iff_of_name (name other : String) {tree : FileTree} {directory : String}
    {f : Fixture} :
    loadFrom tree directory name = .ok f ↔ loadFrom tree directory other = .ok f := by
  rw [loadFrom_eq_ok_iff, loadFrom_eq_ok_iff, readInputs_eq_ok_iff_of_name name other,
    readExpected_eq_ok_iff, readExpected_eq_ok_iff]

end FlowAudit.Fixture
