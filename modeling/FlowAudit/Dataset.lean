import FlowAudit.Csv
import FlowAudit.FileTree
import FlowAudit.Flow.Row
import FlowAudit.Log
import FlowAudit.Text.Blank
/-!
Flow tables: reading them from comma-separated text, writing them, and the totals and time bounds
of their flows. `Dataset.parse` and `Dataset.render` are the two directions of the table format.
-/
namespace FlowAudit

/-- The flows of a table in order. -/
abbrev Dataset := List Flow

/-- Why a text is not a table of rows. -/
inductive TableError
  | unequalLengths (position : Csv.Position) (found expected : Nat)
  | cell (position : Csv.Position) (index : Nat) (cause : Decimal.ReadError)
  | duplicateColumn (position : Csv.Position) (column : Column)
  | unreadable (cause : FileError)
  deriving DecidableEq

/-- Why a table of flows cannot be read or written. -/
inductive DatasetError
  | unreadable (path : String) (cause : FileError)
  | unwritable (path : String) (cause : FileError)
  | malformed (cause : TableError)
  | missingColumn (column : Column)
  | invalidRow (line : Nat) (cause : RowError)
  deriving DecidableEq

def Decimal.ReadError.message : Decimal.ReadError → String
  | empty => "cannot parse integer from empty string"
  | invalidDigit => "invalid digit found in string"
  | tooLarge => "number too large to fit in target type"

/-- A place as error messages name it. -/
def Csv.Position.text (p : Csv.Position) : String :=
  s!"record {p.record} (line: {p.line}, byte: {p.byte})"

def TableError.message : TableError → String
  | unequalLengths position found expected =>
    s!"CSV error: {position.text}: found record with {found} fields, " ++
      s!"but the previous record has {expected} fields"
  | cell position index cause =>
    s!"CSV deserialize error: {position.text}: field {index}: {cause.message}"
  | duplicateColumn position column =>
    s!"CSV deserialize error: {position.text}: duplicate field \x60{column.name}\x60"
  | unreadable cause => cause.message

def DatasetError.message : DatasetError → String
  | unreadable path cause => s!"failed to read file {path}: {cause.message}"
  | unwritable path cause => s!"failed to write file {path}: {cause.message}"
  | malformed cause => s!"malformed flow CSV: {cause.message}"
  | missingColumn column => s!"missing required column: {column.name}"
  | invalidRow line cause => s!"invalid record on line {line}: {cause.message}"

namespace Dataset

/-- Leaves out the flows to noise destinations. -/
def ofFlows (flows : List Flow) : Dataset :=
  flows.filter fun f => !f.key.destination.isNoise

/-- Reads the cells of one record in the order of its columns. Columns without a known name are
skipped, and a known name may occur only once. -/
def readCells (position : Csv.Position) (index : Nat) (seen : List Column) :
    List (Option Column × String) → Except TableError (List (Column × Cell))
  | [] => .ok []
  | (none, _) :: rest => readCells position (index + 1) seen rest
  | (some column, text) :: rest =>
    if column ∈ seen then .error (.duplicateColumn position column)
    else match column.readCell text with
      | .error cause => .error (.cell position index cause)
      | .ok cell => do
        let cells ← readCells position (index + 1) (column :: seen) rest
        return (column, cell) :: cells

/-- Reads one record below a header. It must have as many fields as the header. -/
def readRow (header : List (Option Column)) (record : Csv.Record) : Except TableError Row :=
  if record.fields.length ≠ header.length then
    .error (.unequalLengths record.position record.fields.length header.length)
  else do
    let fields := record.fields.map Text.trimmed
    let cells ← readCells record.position 0 [] (header.zip fields)
    return .ofCells fun column => (cells.lookup column).getD .blank

/-- Turns rows into flows. Lines are counted from the first row, which stands on line two. -/
def flowsOfRows : Nat → List Row → Except DatasetError (List Flow)
  | _, [] => .ok []
  | line, row :: rest =>
    match row.toFlow with
    | .error cause => .error (.invalidRow line cause)
    | .ok flow => do
      let flows ← flowsOfRows (line + 1) rest
      return flow :: flows

/-- The columns of a header; names that are not known stand for no column. -/
def readHeader (fields : List String) : List (Option Column) :=
  fields.map fun field => Column.ofName? (Text.trimmed field)

/-- The first column that a header must have and does not. -/
def missingColumn? (header : List (Option Column)) : Option Column :=
  Column.all.find? fun column => !column.isOptional && !header.contains (some column)

/-- Reads a table. All rows are read before the first one becomes a flow, and flows to noise
destinations are dropped. Errors come in the order of the rows: of several rows that make no flow,
the first one is reported. A reader that converts the rows side by side may report any of them. -/
def parse (text : String) : Traced DatasetError Dataset := do
  let records := Csv.records text
  let header := readHeader ((records.head?.map Csv.Record.fields).getD [])
  match missingColumn? header with
  | some column => Traced.ofExcept (.error (.missingColumn column))
  | none => pure ()
  let rows ← (records.tail.mapM (readRow header)).mapError DatasetError.malformed
  let flows ← flowsOfRows 2 rows
  let kept := ofFlows flows
  let dropped := flows.length - kept.length
  if 0 < dropped then
    Traced.report .debug s!"dropped {dropped} broadcast/multicast flows"
  return kept

/-- Reads the table in a file. -/
def load (tree : FileTree) (path : String) : Traced DatasetError Dataset := do
  Traced.report .debug s!"reading flows from {path}"
  let text ← match tree.read path with
    | .ok text => pure text
    | .error .isDirectory => Traced.ofExcept (.error (.malformed (.unreadable .isDirectory)))
    | .error cause => Traced.ofExcept (.error (.unreadable path cause))
  let dataset ← parse text
  Traced.report .verbose s!"loaded {dataset.length} flows from {path}"
  return dataset

/-- The table as text: the header and one line for each flow. -/
def render (d : Dataset) : String :=
  let header := Csv.renderRecord (Column.all.map Column.name)
  let rows := d.map fun f =>
    Csv.renderRecord (Column.all.map fun c => ((Row.ofFlow f).cell c).render)
  header ++ String.join rows

/-- Writes the table into a file. -/
def save (tree : FileTree) (path : String) (d : Dataset) : Except DatasetError FileTree :=
  (tree.write path d.render).mapError (.unwritable path)

/-- The flows at which the mask is true, in their order. -/
def select (d : Dataset) (mask : List Bool) : Dataset :=
  (d.zip mask).filterMap fun (flow, keep) => if keep then some flow else none

/-- The sum of all packet counters. -/
def totalPackets (d : Dataset) : Nat :=
  d.foldr (fun f total => f.packets.toNat + total) 0

/-- The sum of all byte counters. -/
def totalBytes (d : Dataset) : Nat :=
  d.foldr (fun f total => f.bytes.toNat + total) 0

/-- The earliest start and the latest end, if there are flows. -/
def timeBounds? (d : Dataset) : Option (Nat × Nat) := do
  let start ← (d.map fun f => f.startTime.toNat).min?
  let stop ← (d.map fun f => f.endTime.toNat).max?
  return (start, stop)

/-- The length in seconds of a span of milliseconds, both ends included. A reversed span counts as
one millisecond. -/
def spanSeconds (start stop : Nat) : Float :=
  Float.ofNat (stop - start + 1) / 1000.0

/-- The observed duration in seconds, zero without flows. -/
def duration (d : Dataset) : Float :=
  match d.timeBounds? with
  | some (start, stop) => spanSeconds start stop
  | none => 0.0

end Dataset

end FlowAudit
