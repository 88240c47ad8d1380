import FlowAudit.Command.Arguments
import FlowAudit.Proofs.Traversal
import Mathlib.Data.List.TakeWhile
/-!
Command lines that are written on purpose. Every value is spelled behind the name of its option, in
the order in which the options are known, and reading such a command line gives all values back. So
an invocation that keeps the rules about which options need each other has a command line, and no
other one has.
-/
namespace FlowAudit

namespace OptionRule

/-- One argument for an option and its value. A flag is spelled without a value. -/
def spell (rule : OptionRule) (value : String) : String :=
  if rule.value?.isSome then "--" ++ rule.name ++ "=" ++ value else "--" ++ rule.name

/-- Whether the values may be given for an option, one after the other. -/
structure Admits (rule : OptionRule) (values : List String) : Prop where
  accepted : ∀ v ∈ values, rule.value?.all fun kind => kind.accepts v
  ofFlag : rule.value? = none → ∀ v ∈ values, v = ""
  single : rule.repeatable ∨ values.length ≤ 1

/-- Whether an option can be found by its name, and its name can be told from a value. -/
structure IsSpelled (rule : OptionRule) (rules : List OptionRule) : Prop where
  found : rules.find? (fun r => r.name == rule.name) = some rule
  nonempty : rule.name.toList ≠ []
  plain : '=' ∉ rule.name.toList

end OptionRule

theorem ne_equals {name : String} (h : '=' ∉ name.toList) :
    ∀ c ∈ name.toList, (c != '=') = true := by
  intro c hc
  rw [bne_iff_ne]
  rintro rfl
  exact h hc

/-- An option without an equals sign has no value attached. -/
theorem splitOption_name {name : String} (h : '=' ∉ name.toList) :
    splitOption name.toList = (name, none) := by
  have hName := ne_equals h
  have hNone : name.toList.dropWhile (· != '=') = [] := by
    simpa [List.dropWhile_eq_nil_iff] using hName
  have hAll : name.toList.takeWhile (· != '=') = name.toList := by
    simpa [List.takeWhile_eq_self_iff] using hName
  simp only [splitOption, hAll, hNone, String.ofList_toList]

/-- The first equals sign ends the name, and a value may contain more of them. -/
theorem splitOption_value {name : String} (h : '=' ∉ name.toList) (value : String) :
    splitOption (name.toList ++ '=' :: value.toList) = (name, some value) := by
  have hName := ne_equals h
  simp only [splitOption, List.takeWhile_append_of_pos hName, List.dropWhile_append_of_pos hName]
  simp

/-- An argument that is spelled for an option is read as that option. -/
theorem readOptions_spell {rules : List OptionRule} {rule : OptionRule} (h : rule.IsSpelled rules)
    {value : String} (hFlag : rule.value? = none → value = "") (options : GivenOptions)
    (rest : List String) :
    readOptions rules options (rule.spell value :: rest) =
      options.add rule value >>= fun options => readOptions rules options rest := by
  obtain ⟨c, cs, hName⟩ := List.exists_cons_of_ne_nil h.nonempty
  cases hValue : rule.value? with
  | none =>
      have hText : (rule.spell value).toList = '-' :: '-' :: c :: cs := by
        simp [OptionRule.spell, hValue, hName]
      have hSplit : splitOption (c :: cs) = (rule.name, none) := hName ▸ splitOption_name h.plain
      rw [readOptions, hText]
      simp only [hSplit, findRule, h.found, hValue, hFlag hValue]
  | some kind =>
      have hText : (rule.spell value).toList = '-' :: '-' :: c :: (cs ++ '=' :: value.toList) := by
        simp [OptionRule.spell, hValue, hName]
      have hSplit : splitOption (c :: (cs ++ '=' :: value.toList)) = (rule.name, some value) := by
        rw [← List.cons_append, ← hName]
        exact splitOption_value h.plain value
      rw [readOptions, hText]
      simp only [hSplit, findRule, h.found, hValue]

namespace GivenOptions

/-- The options of a command line that gives each option some values. -/
def written (rules : List OptionRule) (given : String → List String) : GivenOptions :=
  rules.flatMap fun rule => (given rule.name).map fun value => (rule.name, value)

theorem values_append (options more : GivenOptions) (name : String) :
    values (options ++ more) name = values options name ++ values more name := by
  simp [values]

theorem values_single (name : String) (texts : List String) (other : String) :
    values (texts.map fun value => (name, value)) other = if name = other then texts else [] := by
  by_cases h : name = other <;> simp [values, List.filter_map, Function.comp_def, h]

/-- Reading the options back. -/
theorem values_written {rules : List OptionRule} (hNames : (rules.map OptionRule.name).Nodup)
    (given : String → List String) (name : String) :
    values (written rules given) name =
      if name ∈ rules.map OptionRule.name then given name else [] := by
  induction rules with
  | nil => rfl
  | cons rule rest ih =>
      obtain ⟨hFresh, hRest⟩ := List.nodup_cons.mp hNames
      have hSplit : written (rule :: rest) given =
          (given rule.name).map (fun value => (rule.name, value)) ++ written rest given := rfl
      rw [hSplit, values_append, values_single, ih hRest]
      by_cases h : rule.name = name
      · subst h
        simp [hFresh]
      · simp [h, Ne.symm h]

theorem has_eq_false_iff {options : GivenOptions} {name : String} :
    has options name = false ↔ values options name = [] := by
  simp [has, value?]

/-- An option is added if it may stand here once more and its value is of the kind that its rule
asks for. -/
theorem add_eq_ok {options : GivenOptions} {rule : OptionRule} {value : String}
    (hNew : rule.repeatable ∨ values options rule.name = [])
    (hAccepted : rule.value?.all fun kind => kind.accepts value) :
    options.add rule value = .ok (options ++ [(rule.name, value)]) := by
  have hOnce : ¬(has options rule.name = true ∧ (!rule.repeatable) = true) := by
    rintro ⟨hHas, hSingle⟩
    rcases hNew with h | h
    · simp [h] at hSingle
    · simp [has_eq_false_iff.mpr h] at hHas
  rw [add, if_neg hOnce, if_pos hAccepted]

end GivenOptions

open GivenOptions

/-- All values of one option are read together. -/
theorem readOptions_values {rules : List OptionRule} {rule : OptionRule} (h : rule.IsSpelled rules)
    {texts : List String} (hAdmits : rule.Admits texts) {options : GivenOptions}
    (hNew : values options rule.name = []) (rest : List String) :
    readOptions rules options (texts.map rule.spell ++ rest) =
      readOptions rules (options ++ texts.map fun value => (rule.name, value)) rest := by
  obtain ⟨hAccepted, hFlag, hSingle⟩ := hAdmits
  have hNext : rule.repeatable ∨ (texts.length ≤ 1 ∧ values options rule.name = []) :=
    hSingle.imp_right fun hLength => ⟨hLength, hNew⟩
  clear hNew hSingle
  induction texts generalizing options with
  | nil => simp
  | cons text more ih =>
      obtain ⟨hText, hMore⟩ := List.forall_mem_cons.mp hAccepted
      have hAdd := add_eq_ok (hNext.imp_right And.right) hText
      rw [List.map_cons, List.cons_append,
        readOptions_spell h fun hNone => hFlag hNone text (List.mem_cons_self ..), hAdd, ok_bind]
      rcases hNext with hRepeatable | ⟨hLength, _⟩
      · rw [ih hMore (fun hNone v hv => hFlag hNone v (List.mem_cons_of_mem _ hv))
          (.inl hRepeatable)]
        simp
      · cases more with
        | nil => simp
        | cons second others => simp at hLength

/-- A command line that gives each option admissible values is read completely. -/
theorem readOptions_written {rules more : List OptionRule} {given : String → List String}
    (hNames : (more.map OptionRule.name).Nodup)
    (hSpelled : ∀ rule ∈ more, rule.IsSpelled rules)
    (hAdmits : ∀ rule ∈ more, rule.Admits (given rule.name)) {options : GivenOptions}
    (hNew : ∀ rule ∈ more, values options rule.name = []) :
    readOptions rules options (more.flatMap fun rule => (given rule.name).map rule.spell) =
      .ok (options ++ written more given) := by
  induction more generalizing options with
  | nil => simp [readOptions, written]
  | cons rule rest ih =>
      obtain ⟨hFresh, hRest⟩ := List.nodup_cons.mp hNames
      obtain ⟨hRule, hOthers⟩ := List.forall_mem_cons.mp hSpelled
      obtain ⟨hTexts, hMore⟩ := List.forall_mem_cons.mp hAdmits
      obtain ⟨hNone, hNext⟩ := List.forall_mem_cons.mp hNew
      rw [List.flatMap_cons, readOptions_values hRule hTexts hNone, ih hRest hOthers hMore]
      · simp [written]
      · intro other hOther
        have hNe : rule.name ≠ other.name := fun hEq =>
          hFresh (hEq ▸ List.mem_map_of_mem hOther)
        rw [values_append, hNext other hOther, values_single, if_neg hNe, List.append_nil]

/-- Names are unique, so an option finds its own rule. -/
theorem find?_name {rules : List OptionRule} (hNames : (rules.map OptionRule.name).Nodup)
    {rule : OptionRule} (h : rule ∈ rules) :
    rules.find? (fun r => r.name == rule.name) = some rule := by
  induction rules with
  | nil => cases h
  | cons first rest ih =>
      obtain ⟨hFresh, hRest⟩ := List.nodup_cons.mp hNames
      rcases List.mem_cons.mp h with rfl | hMem
      · simp
      · have hNe : first.name ≠ rule.name := fun hEq => hFresh (hEq ▸ List.mem_map_of_mem hMem)
        rw [List.find?_cons_of_neg (by simpa using hNe), ih hRest hMem]

/-- A command is either not asked for at all, or taken from the options that were read. -/
theorem exists_options_of_readCommand {α : Type} {rules : List OptionRule}
    {ofOptions? : GivenOptions → Option α} {make : α → Invocation} {arguments : List String}
    {i : Invocation} (h : Invocation.readCommand rules ofOptions? make arguments = some i) :
    i = .help ∨ ∃ options a, ofOptions? options = some a ∧ make a = i := by
  rw [Invocation.readCommand] at h
  split at h
  · next options _ => exact .inr ⟨options, Option.map_eq_some_iff.mp h⟩
  · exact .inl (Option.some.inj h).symm
  · cases h

namespace CompareArguments

/-- The values that a command line gives for a comparison. -/
def given (a : CompareArguments) (name : String) : List String :=
  let flag (b : Bool) : List String := if b then [""] else []
  match name with
  | "flows" => [a.flows]
  | "reference" => [a.reference]
  | "stats" => a.stats.toList
  | "rules" => a.rules.toList
  | "precise" => flag a.precise
  | "prefilter" => a.networks
  | "merge" => flag a.merge
  | "biflows" => flag a.biflows
  | "align-reference" => flag a.alignReference
  | "check-complement" => flag a.checkComplement
  | "report" => a.report.toList
  | "summary" => a.summary.toList
  | "verbose" => List.replicate a.verbosity ""
  | _ => []

/-- A command line for a comparison. -/
def commandLine (a : CompareArguments) : List String :=
  "compare" :: optionRules.flatMap fun rule => (a.given rule.name).map rule.spell

/-- Whether no path is empty. -/
structure HasPaths (a : CompareArguments) : Prop where
  flows : a.flows ≠ ""
  reference : a.reference ≠ ""
  stats : a.stats ≠ some ""
  rules : a.rules ≠ some ""
  report : a.report ≠ some ""
  summary : a.summary ≠ some ""

/-- Whether the options that are given may stand together. There is either a rule document or the
wish for precise rules, and precise rules as well as networks need the totals of the generator. -/
structure IsConsistent (a : CompareArguments) : Prop where
  rules : a.rules.isSome = !a.precise
  stats : a.precise ∨ a.networks ≠ [] → a.stats.isSome

theorem nodup_names : (optionRules.map OptionRule.name).Nodup := by
  decide

theorem isSpelled_optionRules : ∀ rule ∈ optionRules, rule.IsSpelled optionRules := by
  have hNames : ∀ name ∈ optionRules.map OptionRule.name,
      name.toList ≠ [] ∧ '=' ∉ name.toList := by
    decide
  intro rule hRule
  obtain ⟨hNonempty, hPlain⟩ := hNames rule.name (List.mem_map_of_mem hRule)
  exact ⟨find?_name nodup_names hRule, hNonempty, hPlain⟩

/-- All values of a comparison are admissible. -/
theorem admits_given {a : CompareArguments} (h : a.HasPaths) :
    ∀ rule ∈ optionRules, rule.Admits (a.given rule.name) := by
  have hPath : ∀ name path, path ≠ "" → (OptionRule.single name .path).Admits [path] := by
    intro name path hPath
    refine ⟨?_, nofun, .inr (Nat.le_refl _)⟩
    simpa [OptionRule.single, ValueKind.accepts] using hPath
  have hOptional : ∀ name (path : Option String), path ≠ some "" →
      (OptionRule.single name .path).Admits path.toList := by
    intro name path hPath'
    cases path with
    | none => exact ⟨by simp, nofun, .inr (Nat.zero_le _)⟩
    | some path => exact hPath name path fun hEq => hPath' (congrArg some hEq)
  have hFlag : ∀ name (b : Bool), (OptionRule.flag name).Admits (if b then [""] else []) := by
    intro name b
    cases b
    · exact ⟨by simp, by simp, .inr (Nat.zero_le _)⟩
    · exact ⟨by simp [OptionRule.flag], by simp, .inr (Nat.le_refl _)⟩
  simp only [optionRules, List.forall_mem_cons]
  refine ⟨hPath _ _ h.flows, hPath _ _ h.reference, hOptional _ _ h.stats, hOptional _ _ h.rules,
    hFlag _ _, ⟨?_, nofun, .inl rfl⟩, hFlag _ _, hFlag _ _, hFlag _ _, hFlag _ _,
    hOptional _ _ h.report, hOptional _ _ h.summary, ⟨?_, ?_, .inl rfl⟩, by simp⟩
  · simp [OptionRule.many, ValueKind.accepts]
  · simp [OptionRule.verbose]
  · simp [OptionRule.verbose, given]

/-- Only options that may stand together give arguments. -/
theorem isConsistent_of_ofOptions? {options : GivenOptions} {a : CompareArguments}
    (h : ofOptions? options = some a) : a.IsConsistent := by
  simp only [ofOptions?] at h
  obtain ⟨flows, _, h⟩ := Option.bind_eq_some_iff.mp h
  obtain ⟨reference, _, h⟩ := Option.bind_eq_some_iff.mp h
  split at h
  · cases h
  · next hRules =>
      split at h
      · cases h
      · next hStats =>
          cases h
          constructor
          · simpa [Bool.eq_not] using hRules
          · simpa [has, value?, Option.isSome_iff_ne_none] using hStats

/-- Consistent arguments are read back from the options that are written for them. -/
theorem ofOptions?_written {a : CompareArguments} (h : a.IsConsistent) :
    ofOptions? (written optionRules a.given) = some a := by
  have hValues : ∀ name ∈ optionRules.map OptionRule.name,
      values (written optionRules a.given) name = a.given name := by
    intro name hName
    rw [values_written nodup_names, if_pos hName]
  have hFlag : ∀ b : Bool, (if b then [""] else []).head?.isSome = b := by
    decide
  have hOptional : ∀ text : Option String, text.toList.head? = text := by
    intro text
    cases text <;> rfl
  simp (disch := decide) only [ofOptions?, has, value?, hValues, given, hFlag, hOptional,
    OptionRule.verbose, List.head?_cons, List.length_replicate]
  have hRules : ¬a.rules.isSome = a.precise := by
    simp [h.rules]
  have hStats : ¬((a.precise = true ∨ a.networks.head?.isSome = true) ∧
      a.stats.isNone = true) := by
    rintro ⟨hGiven, hNone⟩
    have hSome := h.stats (by simpa using hGiven)
    simp_all
  simp only [hRules, hStats, if_false]
  rfl

/-- Whatever a command line says, arguments of a comparison that come out of it are consistent. -/
theorem isConsistent_of_read? {arguments : List String} {a : CompareArguments}
    (h : Invocation.read? arguments = some (.compare a)) : a.IsConsistent := by
  unfold Invocation.read? at h
  split at h
  · rcases exists_options_of_readCommand h with hHelp | ⟨options, b, hOptions, hEq⟩
    · cases hHelp
    · cases hEq
      exact isConsistent_of_ofOptions? hOptions
  · rcases exists_options_of_readCommand h with hHelp | ⟨options, b, _, hEq⟩
    · cases hHelp
    · cases hEq
  · cases h
  · split at h <;> cases h
  · split at h
    · cases h
    · split at h <;> cases h
  · cases h

/-- Every comparison with consistent arguments has a command line that asks for it. -/
theorem read?_commandLine {a : CompareArguments} (hPaths : a.HasPaths) (h : a.IsConsistent) :
    Invocation.read? a.commandLine = some (.compare a) := by
  have hOptions := readOptions_written nodup_names isSpelled_optionRules (admits_given hPaths)
    (fun rule _ => (rfl : values [] rule.name = []))
  rw [commandLine, Invocation.read?, Invocation.readCommand, hOptions]
  simp [ofOptions?_written h]

/-- A comparison has a command line iff its options may stand together. -/
theorem exists_read?_iff {a : CompareArguments} (h : a.HasPaths) :
    (∃ arguments, Invocation.read? arguments = some (.compare a)) ↔ a.IsConsistent :=
  ⟨fun ⟨_, hRead⟩ => isConsistent_of_read? hRead, fun hConsistent =>
    ⟨a.commandLine, read?_commandLine h hConsistent⟩⟩

end CompareArguments

end FlowAudit
