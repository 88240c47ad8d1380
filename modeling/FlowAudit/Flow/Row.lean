import FlowAudit.Decimal.Unsigned
import FlowAudit.Flow
import FlowAudit.Json
import FlowAudit.Text.Quoted
/-!
Rows of a flow table before their addresses are read, and the columns of such a table. Rows come
from cells and become flows; every flow has a row.
-/
namespace FlowAudit

/-- The columns of a flow table. -/
inductive Column
  | startTime
  | endTime
  | protocol
  | source
  | destination
  | sourcePort
  | destinationPort
  | packets
  | bytes
  deriving DecidableEq, Repr

namespace Column

/-- All columns in the order in which they are written. -/
def all : List Column :=
  [startTime, endTime, protocol, source, destination, sourcePort, destinationPort, packets, bytes]

/-- The name of a column in a table header. -/
def name : Column → String
  | startTime => "START_TIME"
  | endTime => "END_TIME"
  | protocol => "PROTOCOL"
  | source => "SRC_IP"
  | destination => "DST_IP"
  | sourcePort => "SRC_PORT"
  | destinationPort => "DST_PORT"
  | packets => "PACKETS"
  | bytes => "BYTES"

/-- The column of a name, which must match exactly. -/
def ofName? (s : String) : Option Column :=
  all.find? fun c => c.name == s

/-- Whether a table may do without the column. Only ports can be left out. -/
def isOptional : Column → Bool
  | sourcePort => true
  | destinationPort => true
  | _ => false

/-- The largest number of a numeric column. Address columns hold text. -/
def largest? : Column → Option Nat
  | protocol => some (UInt8.size - 1)
  | sourcePort => some (UInt16.size - 1)
  | destinationPort => some (UInt16.size - 1)
  | source => none
  | destination => none
  | _ => some (UInt64.size - 1)

end Column

/-- The content of one cell. -/
inductive Cell
  | blank
  | number (n : Nat)
  | text (s : String)
  deriving DecidableEq, Repr

/-- The number of a cell, zero if there is none. -/
def Cell.toNat : Cell → Nat
  | number n => n
  | _ => 0

/-- The text of a cell, empty if there is none. -/
def Cell.toText : Cell → String
  | text s => s
  | _ => ""

/-- The port in a cell. A blank cell holds no port. -/
def Cell.toPort : Cell → Option UInt16
  | number n => some (UInt16.ofNat n)
  | _ => none

/-- Reads a cell of a column from its text. Numbers are decimal, or hexadecimal after `0x`; an
optional column may be blank. -/
def Column.readCell (c : Column) (s : String) : Except Decimal.ReadError Cell :=
  match c.largest? with
  | none => .ok (.text s)
  | some largest =>
    if c.isOptional ∧ s.isEmpty then .ok .blank
    else match s.toList with
      | '0' :: 'x' :: digits => .number <$> Decimal.readUnsigned 16 largest digits
      | digits => .number <$> Decimal.readUnsigned 10 largest digits

/-- One row of a flow table. Addresses are still texts, and ports may be absent. -/
structure Row where
  startTime : UInt64
  endTime : UInt64
  protocol : UInt8
  source : String
  destination : String
  sourcePort : Option UInt16
  destinationPort : Option UInt16
  packets : UInt64
  bytes : UInt64
  deriving DecidableEq

/-- Why a row is not a flow. -/
inductive RowError
  | invalidAddress (column : Column) (text : String)
  | invertedTimes (startTime endTime : UInt64)
  deriving DecidableEq

def RowError.message : RowError → String
  | invalidAddress column text => s!"invalid address in {column.name}: {Text.quoted text}"
  | invertedTimes startTime endTime =>
    s!"END_TIME {endTime.toNat} precedes START_TIME {startTime.toNat}"

namespace Row

/-- Collects a row from the cells of its columns. -/
def ofCells (cell : Column → Cell) : Row where
  startTime := UInt64.ofNat (cell .startTime).toNat
  endTime := UInt64.ofNat (cell .endTime).toNat
  protocol := UInt8.ofNat (cell .protocol).toNat
  source := (cell .source).toText
  destination := (cell .destination).toText
  sourcePort := (cell .sourcePort).toPort
  destinationPort := (cell .destinationPort).toPort
  packets := UInt64.ofNat (cell .packets).toNat
  bytes := UInt64.ofNat (cell .bytes).toNat

/-- The cell of a column. -/
def cell (r : Row) : Column → Cell
  | .startTime => .number r.startTime.toNat
  | .endTime => .number r.endTime.toNat
  | .protocol => .number r.protocol.toNat
  | .source => .text r.source
  | .destination => .text r.destination
  | .sourcePort => (r.sourcePort.map fun p => Cell.number p.toNat).getD .blank
  | .destinationPort => (r.destinationPort.map fun p => Cell.number p.toNat).getD .blank
  | .packets => .number r.packets.toNat
  | .bytes => .number r.bytes.toNat

/-- The address in a column. -/
def readAddress (column : Column) (text : String) : Except RowError Address :=
  match Address.parse? text with
  | some a => .ok a
  | none => .error (.invalidAddress column text)

/-- The flow of a row. Addresses are checked before times, and absent ports become zero. -/
def toFlow (r : Row) : Except RowError Flow := do
  let source ← readAddress .source r.source
  let destination ← readAddress .destination r.destination
  if r.endTime < r.startTime then throw (.invertedTimes r.startTime r.endTime)
  return {
    key := ⟨r.protocol, source, destination, r.sourcePort.getD 0, r.destinationPort.getD 0⟩
    startTime := r.startTime
    endTime := r.endTime
    packets := r.packets
    bytes := r.bytes
    flowCount := none }

/-- The row of a flow. The flow count has no column. -/
def ofFlow (f : Flow) : Row where
  startTime := f.startTime
  endTime := f.endTime
  protocol := f.key.protocol
  source := toString f.key.source
  destination := toString f.key.destination
  sourcePort := some f.key.sourcePort
  destinationPort := some f.key.destinationPort
  packets := f.packets
  bytes := f.bytes

end Row

/-- Reads a cell of a column from a plain value. A port may be null. -/
def Column.cellOfJson? (c : Column) (json : Json) : Option Cell :=
  match c.largest?, json with
  | none, .string s => some (.text s)
  | none, _ => none
  | some _, .null => if c.isOptional then some .blank else none
  | some largest, json => (json.toNatUpTo? largest).map .number

/-- The plain value of a cell. -/
def Cell.toJson : Cell → Json
  | blank => .null
  | number n => .number (.natural (UInt64.ofNat n))
  | text s => .string s

namespace Row

/-- Reads the cell of a column. Only optional columns may be absent. -/
def fieldOfJson? (column : Column) : Option Json → Option (Column × Cell)
  | some json => (column.cellOfJson? json).map fun cell => (column, cell)
  | none => if column.isOptional then some (column, .blank) else none

/-- Reads a row from a record of its columns. -/
def ofJson? (json : Json) : Option Row := do
  let fields ← json.fields? (Column.all.map Column.name)
  let cells ← (Column.all.zip fields).mapM fun (column, field) => fieldOfJson? column field
  return ofCells fun column => (cells.lookup column).getD .blank

/-- The record of a row. -/
def toJson (r : Row) : Json :=
  .object (Column.all.map fun column => (column.name, (r.cell column).toJson))

end Row

/-- The written form of a cell. -/
def Cell.render : Cell → String
  | blank => ""
  | number n => String.ofList (Decimal.decimalDigits n)
  | text s => s

end FlowAudit
