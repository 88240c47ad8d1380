import FlowAudit.Dataset
import FlowAudit.Proofs.Address.Text
import FlowAudit.Proofs.Csv
import FlowAudit.Proofs.Traversal
import Mathlib
/-!
A table of flows is read back from its text. Cells are read back one by one, whatever their column;
rows, the header and the whole table follow from that.
-/
namespace FlowAudit

section Cells

/-- A cell of the kind that a column holds, with a number in the range of the column. -/
def Column.Admits (c : Column) : Cell → Prop
  | .number n => ∃ largest, c.largest? = some largest ∧ n ≤ largest
  | .text _ => c.largest? = none
  | .blank => False

/-- Decimal digits are never taken for a hexadecimal number. -/
theorem Column.readCell_decimalDigits {c : Column} {largest n : Nat}
    (hColumn : c.largest? = some largest) (h : n ≤ largest) :
    c.readCell (String.ofList (Decimal.decimalDigits n)) = .ok (.number n) := by
  have hEmpty : (String.ofList (Decimal.decimalDigits n)).isEmpty = false := by
    simp [Decimal.decimalDigits_ne_nil]
  have hDigit : ∀ rest, Decimal.decimalDigits n ≠ '0' :: 'x' :: rest := by
    intro rest hEq
    have hMem : 'x' ∈ Decimal.decimalDigits n := by simp [hEq]
    exact absurd (Decimal.isDigit_of_mem_decimalDigits hMem) (by decide)
  rw [readCell, hColumn]
  simp only [hEmpty, Bool.false_eq_true, and_false, if_false, String.toList_ofList]
  rw [Decimal.readUnsigned_decimalDigits h]
  rfl

/-- A cell is read back from what was written for it. -/
theorem Column.readCell_render {c : Column} {cell : Cell} (h : c.Admits cell) :
    c.readCell cell.render = .ok cell := by
  cases cell with
  | blank => exact h.elim
  | number n =>
      obtain ⟨largest, hColumn, hn⟩ := h
      exact readCell_decimalDigits hColumn hn
  | text s =>
      have hColumn : c.largest? = none := h
      rw [readCell, hColumn]
      rfl

/-- The cells of a flow are of the kinds that their columns admit. -/
theorem Row.admits_cell (f : Flow) (c : Column) : c.Admits ((ofFlow f).cell c) := by
  cases c with
  | source => rfl
  | destination => rfl
  | startTime => exact ⟨_, rfl, Nat.le_sub_one_of_lt f.startTime.toNat_lt⟩
  | endTime => exact ⟨_, rfl, Nat.le_sub_one_of_lt f.endTime.toNat_lt⟩
  | protocol => exact ⟨_, rfl, Nat.le_sub_one_of_lt f.key.protocol.toNat_lt⟩
  | sourcePort => exact ⟨_, rfl, Nat.le_sub_one_of_lt f.key.sourcePort.toNat_lt⟩
  | destinationPort => exact ⟨_, rfl, Nat.le_sub_one_of_lt f.key.destinationPort.toNat_lt⟩
  | packets => exact ⟨_, rfl, Nat.le_sub_one_of_lt f.packets.toNat_lt⟩
  | bytes => exact ⟨_, rfl, Nat.le_sub_one_of_lt f.bytes.toNat_lt⟩

/-- Cells consist of digits and of the characters of addresses. -/
theorem mem_alphabet_of_mem_render {f : Flow} {column : Column} {c : Char}
    (h : c ∈ ((Row.ofFlow f).cell column).render.toList) : c ∈ Address.alphabet := by
  have hNumber : ∀ n, c ∈ (Cell.number n).render.toList → c ∈ Address.alphabet := by
    intro n hMem
    rw [Cell.render, String.toList_ofList] at hMem
    obtain ⟨d, hd, rfl⟩ := Decimal.exists_of_mem_toDigits (by decide) hMem
    have hDigit : ∀ d < 10, d.digitChar ∈ Address.alphabet := by decide
    exact hDigit d hd
  have hAddress : ∀ a : Address, c ∈ (toString a).toList → c ∈ Address.alphabet := fun a hMem =>
    Address.mem_alphabet_of_mem_text (String.toList_ofList ▸ hMem)
  cases column with
  | source => exact hAddress _ h
  | destination => exact hAddress _ h
  | _ => exact hNumber _ h

end Cells

section Rows

/-- A row is collected from the cells of its columns. -/
theorem Row.ofCells_cell (f : Flow) : ofCells (ofFlow f).cell = ofFlow f := by
  simp [ofCells, cell, ofFlow, Cell.toNat, Cell.toText, Cell.toPort]

/-- A flow is read back from its row, apart from the flow count. -/
theorem Row.toFlow_ofFlow {f : Flow} (hOrdered : f.startTime ≤ f.endTime)
    (hCount : f.flowCount = none) : (ofFlow f).toFlow = .ok f := by
  have hAddress : ∀ column a, readAddress column (toString a) = .ok a := by
    intro column a
    rw [readAddress, Address.parse?_toString]
  have hSource : readAddress .source (ofFlow f).source = .ok f.key.source := hAddress _ _
  have hDestination : readAddress .destination (ofFlow f).destination = .ok f.key.destination :=
    hAddress _ _
  have hTimes : ¬(ofFlow f).endTime < (ofFlow f).startTime := UInt64.not_lt.mpr hOrdered
  rw [toFlow, hSource, ok_bind, hDestination, ok_bind, if_neg hTimes]
  obtain ⟨key, start, stop, packets, bytes, count⟩ := f
  cases hCount
  rfl

namespace Dataset

/-- The fields of the line that is written for a flow. -/
def renderedFields (f : Flow) : List String :=
  Column.all.map fun c => ((Row.ofFlow f).cell c).render

/-- Cells of different columns are read one after the other. -/
theorem readCells_map {columns : List Column} (hNodup : columns.Nodup) {text : Column → String}
    {cell : Column → Cell} (hRead : ∀ c : Column, c.readCell (text c) = .ok (cell c))
    (position : Csv.Position) (index : Nat) {seen : List Column} (hSeen : ∀ c ∈ columns, c ∉ seen) :
    readCells position index seen (columns.map fun c => (some c, text c)) =
      .ok (columns.map fun c => (c, cell c)) := by
  induction columns generalizing index seen with
  | nil => rfl
  | cons c columns ih =>
      obtain ⟨hFresh, hNodup⟩ := List.nodup_cons.mp hNodup
      obtain ⟨hHead, hTail⟩ := List.forall_mem_cons.mp hSeen
      have hRest : ∀ d ∈ columns, d ∉ c :: seen := by
        intro d hd hMem
        rcases List.mem_cons.mp hMem with rfl | hMem
        · exact hFresh hd
        · exact hTail d hd hMem
      rw [List.map_cons, readCells, if_neg hHead, hRead]
      simp only
      rw [ih hNodup _ hRest]
      rfl

/-- Rendered fields have no blanks at their ends, so trimming keeps them. -/
theorem trimmed_renderedFields (f : Flow) :
    (renderedFields f).map Text.trimmed = renderedFields f := by
  rw [renderedFields, List.map_map]
  refine List.map_congr_left fun column _ => ?_
  rw [Function.comp_apply, Text.trimmed, Text.trim_of_forall fun c hc =>
    Address.isBlank_of_mem_alphabet c (mem_alphabet_of_mem_render hc), String.ofList_toList]

/-- The line that is written for a flow is read as its row. -/
theorem readRow_renderedFields {f : Flow} {record : Csv.Record}
    (h : record.fields = renderedFields f) :
    readRow (Column.all.map some) record = .ok (Row.ofFlow f) := by
  have hZip : (Column.all.map some).zip (renderedFields f) =
      Column.all.map fun c => (some c, ((Row.ofFlow f).cell c).render) := rfl
  have hLookup : ∀ c, ((Column.all.map fun c => (c, (Row.ofFlow f).cell c)).lookup c).getD .blank =
      (Row.ofFlow f).cell c := by
    intro c
    cases c <;> rfl
  have hCells := readCells_map (show Column.all.Nodup by decide)
    (fun c => Column.readCell_render (Row.admits_cell f c)) record.position 0
    (fun _ _ => List.not_mem_nil)
  have hLength : ¬(renderedFields f).length ≠ (Column.all.map some).length := not_not.mpr rfl
  rw [readRow, h, if_neg hLength, trimmed_renderedFields]
  simp only
  rw [hZip, hCells, ok_bind]
  simp only [hLookup]
  exact congrArg Except.ok (Row.ofCells_cell f)

/-- Rows of flows with ordered times make these flows again. -/
theorem flowsOfRows_ofFlow {d : Dataset} (hOrdered : ∀ f ∈ d, f.startTime ≤ f.endTime)
    (hCount : ∀ f ∈ d, f.flowCount = none) (line : Nat) :
    flowsOfRows line (d.map Row.ofFlow) = .ok d := by
  induction d generalizing line with
  | nil => rfl
  | cons f d ih =>
      obtain ⟨hHead, hTail⟩ := List.forall_mem_cons.mp hOrdered
      obtain ⟨hNone, hRest⟩ := List.forall_mem_cons.mp hCount
      rw [List.map_cons, flowsOfRows.eq_def]
      simp only [Row.toFlow_ofFlow hHead hNone, ih hTail hRest]
      rfl

end Dataset

end Rows

namespace Dataset

theorem isPlainRecord_names : Csv.IsPlainRecord (Column.all.map Column.name) := by
  refine ⟨fun s hs => ?_, "START_TIME", rfl, by decide⟩
  obtain ⟨c, _, rfl⟩ := List.mem_map.mp hs
  rw [Csv.IsPlainField]
  cases c <;> simp [Column.name, Csv.IsPlain]

/-- No field of a flow needs quotes. -/
theorem isPlainRecord_renderedFields (f : Flow) : Csv.IsPlainRecord (renderedFields f) := by
  have hPlain : ∀ c ∈ Address.alphabet, Csv.IsPlain c := by
    simp [Address.alphabet, Csv.IsPlain]
  refine ⟨fun s hs c hc => ?_, _, rfl, ?_⟩
  · obtain ⟨column, _, rfl⟩ := List.mem_map.mp hs
    exact hPlain c (mem_alphabet_of_mem_render hc)
  · intro hEmpty
    exact Decimal.decimalDigits_ne_nil _ (String.ofList_eq_empty_iff.mp hEmpty)

theorem readHeader_names : readHeader (Column.all.map Column.name) = Column.all.map some := by
  decide

/-- The text of a table has the fields of the header and those of all flows. -/
theorem fields_records_render (d : Dataset) :
    (Csv.records d.render).map Csv.Record.fields =
      Column.all.map Column.name :: d.map renderedFields := by
  have hText : d.render =
      String.join ((Column.all.map Column.name :: d.map renderedFields).map Csv.renderRecord) := by
    rw [List.map_cons, String.join_cons, List.map_map]
    rfl
  rw [hText, Csv.fields_records]
  intro fields hFields
  rcases List.mem_cons.mp hFields with rfl | hFields
  · exact isPlainRecord_names
  · obtain ⟨f, _, rfl⟩ := List.mem_map.mp hFields
    exact isPlainRecord_renderedFields f

/-- Under a full header, rendered fields are read back as the rows they were rendered from. -/
theorem mapM_readRow {d : Dataset} {rows : List Csv.Record}
    (h : rows.map Csv.Record.fields = d.map renderedFields) :
    rows.mapM (readRow (Column.all.map some)) = .ok (d.map Row.ofFlow) := by
  have hSame : List.Forall₂ (· = ·) (rows.map Csv.Record.fields) (d.map renderedFields) :=
    h ▸ List.forall₂_same.mpr fun _ _ => rfl
  have hRows := List.forall₂_map_right_iff.mp (List.forall₂_map_left_iff.mp hSame)
  rw [mapM_eq_ok_iff, List.forall₂_map_right_iff]
  exact hRows.imp fun _ _ => readRow_renderedFields

/-- Writing a table and reading it again gives the same flows in the same order. -/
theorem parse_render {d : Dataset} (hOrdered : ∀ f ∈ d, f.startTime ≤ f.endTime)
    (hNoise : ∀ f ∈ d, f.key.destination.isNoise = false)
    (hCount : ∀ f ∈ d, f.flowCount = none) : (parse d.render).outcome = .ok d := by
  have hRecords := fields_records_render d
  rw [List.map_eq_cons_iff] at hRecords
  obtain ⟨first, rows, hRecords, hHeader, hRows⟩ := hRecords
  have hKept : ofFlows d = d := List.filter_eq_self.mpr fun f hf => by simp [hNoise f hf]
  have hColumns : missingColumn? (Column.all.map some) = none := by decide
  rw [parse, hRecords]
  simp only [List.head?_cons, Option.map_some, Option.getD_some, hHeader, readHeader_names,
    List.tail_cons, mapM_readRow hRows, hColumns, mapError_ok, Traced.outcome_bind,
    Traced.outcome_lift, ok_bind, flowsOfRows_ofFlow hOrdered hCount, hKept, Nat.sub_self]
  rfl

/-- Addresses in all their written forms, both extremes of every number, and a flow that occurs
twice. -/
theorem parse_render_extremes :
    let largest : UInt64 := 0xffffffffffffffff
    let key (source destination : Nat) : FlowKey :=
      ⟨255, .ofNat .v6 source, .ofNat .v6 destination, 0, 65535⟩
    let short : FlowKey := ⟨0, .ofNat .v4 0, .ofNat .v4 0xfffffffe, 0, 0⟩
    let d : Dataset :=
      [⟨short, 0, 0, 0, 0, none⟩,
        ⟨key 0xffff00000000 0, 7, largest, largest, largest, none⟩,
        ⟨key 1 (0x20010db8 <<< 96 + 0x10000), 7, 7, 1, 1, none⟩,
        ⟨key (2 ^ 128 - 1) (2 ^ 127), 1, 2, 3, 4, none⟩,
        ⟨short, 0, 0, 0, 0, none⟩]
    d.map (fun f => f.key.source.text) =
      ["0.0.0.0".toList, "::ffff:0.0.0.0".toList, "::1".toList,
        "ffff:ffff:ffff:ffff:ffff:ffff:ffff:ffff".toList, "0.0.0.0".toList] ∧
    d.map (fun f => f.key.destination.text) =
      ["255.255.255.254".toList, "::".toList, "2001:db8::1:0".toList, "8000::".toList,
        "255.255.255.254".toList] ∧
    (parse d.render).outcome = .ok d := by
  intro largest key short d
  exact ⟨by decide +kernel, by decide +kernel,
    parse_render (by decide) (by decide) (by decide)⟩

end Dataset

end FlowAudit
