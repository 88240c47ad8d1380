import FlowAudit.Decimal.Literal
/-!
Arguments of the command line. Options are written with two hyphens, and their values follow as
the next argument or behind an equals sign. `Invocation.read?` accepts exactly the arguments that
ask for something the program can do.
-/
namespace FlowAudit

/-- Arguments of a comparison. Paths are not empty. -/
structure CompareArguments where
  flows : String
  reference : String
  stats : Option String
  rules : Option String
  precise : Bool
  networks : List String
  merge : Bool
  biflows : Bool
  alignReference : Bool
  checkComplement : Bool
  report : Option String
  summary : Option String
  verbosity : Nat

/-- Arguments of a replication. -/
structure ReplicateArguments where
  input : String
  plan : Option String
  loops : UInt32
  output : String
  mergeAcrossLoops : Bool
  inactiveTimeout : Option UInt64
  speed : Float
  ignored : List UInt32
  verbosity : Nat

/-- What the program is asked for. -/
inductive Invocation
  | compare (a : CompareArguments)
  | replicate (a : ReplicateArguments)
  | version
  | help

/-- A number of at most 32 bits with an optional sign. Of negative numbers only zero is taken. -/
def readNumber32? (s : String) : Option UInt32 := do
  let (negative, digits) := Decimal.splitSign s.toList
  if digits.isEmpty ∨ !digits.all Char.isDigit then none
  let n := Decimal.natOfDigits digits
  if UInt32.size ≤ n ∨ (negative ∧ n ≠ 0) then none
  return UInt32.ofNat n

/-- A number of at most 64 bits. -/
def readNumber64? (s : String) : Option UInt64 :=
  ((Decimal.readUnsigned 10 (UInt64.size - 1) s.toList).toOption).map UInt64.ofNat

/-- A real number. -/
def readReal? (s : String) : Option Float :=
  Decimal.readFloat? s.toList

/-- What an option takes as its value. -/
inductive ValueKind
  | path
  | text
  | number32
  | number64
  | real
  deriving DecidableEq

/-- Whether a text is a value of a kind. Paths are not empty. -/
def ValueKind.accepts : ValueKind → String → Bool
  | path, s => !s.isEmpty
  | text, _ => true
  | number32, s => (readNumber32? s).isSome
  | number64, s => (readNumber64? s).isSome
  | real, s => (readReal? s).isSome

/-- How an option is written, what it takes and whether it may be given several times. -/
structure OptionRule where
  name : String
  value? : Option ValueKind
  repeatable : Bool

namespace OptionRule

/-- An option without a value. -/
def flag (name : String) : OptionRule :=
  ⟨name, none, false⟩

/-- An option with a value that is given at most once. -/
def single (name : String) (kind : ValueKind) : OptionRule :=
  ⟨name, some kind, false⟩

/-- An option with a value that may be given several times. -/
def many (name : String) (kind : ValueKind) : OptionRule :=
  ⟨name, some kind, true⟩

/-- The option that asks for more messages, the more often the more. -/
def verbose : OptionRule :=
  ⟨"verbose", none, true⟩

end OptionRule

/-- What ends the reading of options before all of them are read. -/
inductive EarlyEnd
  | helpWanted
  | refused
  deriving DecidableEq

/-- Options as given, in order. Flags have an empty value. -/
abbrev GivenOptions := List (String × String)

namespace GivenOptions

/-- All values of an option. -/
def values (options : GivenOptions) (name : String) : List String :=
  (options.filter fun o => o.1 == name).map Prod.snd

/-- The first value of an option. -/
def value? (options : GivenOptions) (name : String) : Option String :=
  (values options name).head?

/-- Whether an option is given. -/
def has (options : GivenOptions) (name : String) : Bool :=
  (value? options name).isSome

/-- Adds an option behind the others. -/
def add (options : GivenOptions) (rule : OptionRule) (value : String) :
    Except EarlyEnd GivenOptions :=
  if has options rule.name ∧ !rule.repeatable then .error .refused
  else if rule.value?.all fun kind => kind.accepts value then .ok (options ++ [(rule.name, value)])
  else .error .refused

/-- Adds flags of one letter each. -/
def addLetters (options : GivenOptions) : List Char → Except EarlyEnd GivenOptions
  | [] => .ok options
  | 'h' :: _ => .error .helpWanted
  | 'v' :: rest => do addLetters (← add options .verbose "") rest
  | _ => .error .refused

end GivenOptions

/-- Splits an option at its first equals sign. -/
def splitOption (cs : List Char) : String × Option String :=
  let name := String.ofList (cs.takeWhile (· != '='))
  match cs.dropWhile (· != '=') with
  | _ :: value => (name, some (String.ofList value))
  | [] => (name, none)

/-- Whether an argument cannot be the value of the option before it. A single hyphen can. -/
def looksLikeOption (argument : String) : Bool :=
  argument.startsWith "-" && argument != "-"

/-- Finds the rule of an option. -/
def findRule (rules : List OptionRule) (name : String) (value? : Option String) :
    Except EarlyEnd OptionRule :=
  match rules.find? fun rule => rule.name == name with
  | some rule => .ok rule
  | none => .error (if name = "help" ∧ value?.isNone then .helpWanted else .refused)

/-- Reads options that follow given rules. Each is checked before the next one is looked at, and
arguments that belong to no option are refused. -/
def readOptions (rules : List OptionRule) (options : GivenOptions) :
    List String → Except EarlyEnd GivenOptions
  | [] => .ok options
  | argument :: rest =>
    match argument.toList with
    | ['-'] => .error .refused
    | ['-', '-'] => if rest.isEmpty then .ok options else .error .refused
    | '-' :: '-' :: option =>
      let (name, value?) := splitOption option
      match findRule rules name value? with
      | .error e => .error e
      | .ok rule =>
        match rule.value?, value?, rest with
        | none, none, rest => do readOptions rules (← options.add rule "") rest
        | some _, some value, rest => do readOptions rules (← options.add rule value) rest
        | some _, none, value :: rest =>
          if looksLikeOption value then .error .refused
          else do readOptions rules (← options.add rule value) rest
        | _, _, _ => .error .refused
    | '-' :: letters => do readOptions rules (← options.addLetters letters) rest
    | _ => .error .refused

namespace CompareArguments

def optionRules : List OptionRule :=
  [.single "flows" .path, .single "reference" .path, .single "stats" .path,
    .single "rules" .path, .flag "precise", .many "prefilter" .text, .flag "merge",
    .flag "biflows", .flag "align-reference", .flag "check-complement",
    .single "report" .path, .single "summary" .path, .verbose]

/-- Takes the arguments of a comparison. Either a rule document or the precise rules are asked for.
The precise rules need the totals of the generator, and so do networks, although they have a
meaning only for the precise rules. -/
def ofOptions? (o : GivenOptions) : Option CompareArguments := do
  let flows ← o.value? "flows"
  let reference ← o.value? "reference"
  let stats := o.value? "stats"
  let rules := o.value? "rules"
  let precise := o.has "precise"
  if rules.isSome = precise then none
  if (precise ∨ o.has "prefilter") ∧ stats.isNone then none
  return {
    flows, reference, stats, rules, precise
    networks := o.values "prefilter"
    merge := o.has "merge"
    biflows := o.has "biflows"
    alignReference := o.has "align-reference"
    checkComplement := o.has "check-complement"
    report := o.value? "report"
    summary := o.value? "summary"
    verbosity := (o.values OptionRule.verbose.name).length }

end CompareArguments

namespace ReplicateArguments

def optionRules : List OptionRule :=
  [.single "input" .path, .single "config" .path, .single "loops" .number32,
    .single "out" .path, .flag "merge-across-loops", .single "inactive-timeout-ms" .number64,
    .single "speed" .real, .many "ignore-loop" .number32, .verbose]

/-- Takes the arguments of a replication. A timeout has a meaning only for merging. -/
def ofOptions? (o : GivenOptions) : Option ReplicateArguments := do
  let input ← o.value? "input"
  let output ← o.value? "out"
  let plan := o.value? "config"
  let loops ← (o.value? "loops").mapM readNumber32?
  let inactiveTimeout ← (o.value? "inactive-timeout-ms").mapM readNumber64?
  let speed ← (o.value? "speed").mapM readReal?
  let ignored ← (o.values "ignore-loop").mapM readNumber32?
  let mergeAcrossLoops := o.has "merge-across-loops"
  if inactiveTimeout.isSome ∧ !mergeAcrossLoops then none
  return {
    input, plan, output, mergeAcrossLoops, inactiveTimeout, ignored
    loops := loops.getD 1
    speed := speed.getD 1.0
    verbosity := (o.values OptionRule.verbose.name).length }

end ReplicateArguments

namespace Invocation

/-- Reads the options of a command. -/
def readCommand {α : Type} (rules : List OptionRule) (ofOptions? : GivenOptions → Option α)
    (make : α → Invocation) (arguments : List String) : Option Invocation :=
  match readOptions rules [] arguments with
  | .ok options => (ofOptions? options).map make
  | .error .helpWanted => some help
  | .error .refused => none

/-- The commands about which help can be asked for. -/
def commandNames : List String :=
  ["compare", "replicate", "help"]

/-- Reads all arguments. -/
def read? : List String → Option Invocation
  | "compare" :: rest =>
    readCommand CompareArguments.optionRules CompareArguments.ofOptions? compare rest
  | "replicate" :: rest =>
    readCommand ReplicateArguments.optionRules ReplicateArguments.ofOptions? replicate rest
  | ["help"] => some help
  | ["help", command] => if commandNames.contains command then some help else none
  | first :: _ =>
    if first = "--version" ∨ first.startsWith "-V" then some version
    else if first = "--help" ∨ first.startsWith "-h" then some help
    else none
  | [] => none

end Invocation

end FlowAudit
