import FlowAudit.Proofs.Csv
import FlowAudit.Proofs.Dataset.Loaded
/-!
What loading takes from a table: for each known name the cells below it, wherever they stand. So
neither the order of the columns nor those of other names matter, and a port column without any
content is as good as none.
-/
namespace FlowAudit

/-- One column of a table: its name in the header, and its field in each of `n` rows. -/
structure TextColumn (n : Nat) where
  name : String
  fields : Fin n → String

/-- A table, column by column. -/
abbrev TextTable (n : Nat) := List (TextColumn n)

variable {n : Nat}

/-- The known column of that name, blanks around it aside. -/
def TextColumn.column? (c : TextColumn n) : Option Column :=
  Column.ofName? (Text.trimmed c.name)

/-- Whether no field holds anything but blanks. -/
def TextColumn.IsBlank (c : TextColumn n) : Prop :=
  ∀ i, Text.trimmed (c.fields i) = ""

namespace TextTable

def header (t : TextTable n) : List String :=
  t.map TextColumn.name

def row (t : TextTable n) (i : Fin n) : List String :=
  t.map fun c => c.fields i

/-- The header and the rows as they stand in the text. -/
def records (t : TextTable n) : List (List String) :=
  t.header :: (List.finRange n).map t.row

/-- The fields of a row that stand below known names. -/
def entries (t : TextTable n) (i : Fin n) : List (Column × String) :=
  t.filterMap fun c => c.column?.map fun column => (column, Text.trimmed (c.fields i))

/-- Whether every column occurs that a table must have. -/
def Complete (t : TextTable n) : Prop :=
  ∀ column : Column, column.isOptional = false → ∃ c ∈ t, c.column? = some column

/-- Whether a row can be read: no known name occurs twice, and every cell below one is read. -/
structure Readable (t : TextTable n) (i : Fin n) : Prop where
  distinct : ((t.entries i).map Prod.fst).Nodup
  cells : ∀ e ∈ t.entries i, ∃ cell, e.1.readCell e.2 = .ok cell

/-- The cell of a column in a row. It is blank if the column does not occur. -/
def cellAt (t : TextTable n) (i : Fin n) (column : Column) : Cell :=
  (((t.entries i).lookup column).bind fun text => (column.readCell text).toOption).getD .blank

end TextTable

/-- An optional column may be blank. -/
theorem Column.readCell_blank {column : Column} (h : column.isOptional) :
    column.readCell "" = .ok .blank := by
  cases column with
  | sourcePort => rfl
  | destinationPort => rfl
  | _ => cases h

section Lookup

variable {α β : Type} [BEq α] [LawfulBEq α]

/-- Where no key occurs twice, the order of the entries does not matter. -/
theorem lookup_eq_of_perm {entries others : List (α × β)} (h : entries.Perm others)
    (hDistinct : (entries.map Prod.fst).Nodup) (a : α) : entries.lookup a = others.lookup a := by
  induction h with
  | nil => rfl
  | cons e _ ih =>
      rw [List.lookup_cons, List.lookup_cons, ih (List.nodup_cons.mp hDistinct).2]
  | swap e f rest =>
      have hNe : f.1 ≠ e.1 := List.ne_of_not_mem_cons (List.nodup_cons.mp hDistinct).1
      rw [List.lookup_cons, List.lookup_cons, List.lookup_cons, List.lookup_cons]
      by_cases hf : a == f.1
      · have he : (a == e.1) = false :=
          beq_eq_false_iff_ne.mpr fun he => hNe ((beq_iff_eq.mp hf).symm.trans he)
        rw [hf, he]
      · rw [Bool.eq_false_iff.mpr hf]
  | trans hFirst _ ih ih' =>
      exact (ih hDistinct).trans (ih' ((hFirst.map Prod.fst).nodup_iff.mp hDistinct))

theorem lookup_eq_none_of_not_mem {entries : List (α × β)} {a : α}
    (h : a ∉ entries.map Prod.fst) : entries.lookup a = none := by
  rw [List.lookup_eq_none_iff]
  intro e he
  rw [bne_iff_ne]
  rintro rfl
  exact h (List.mem_map_of_mem he)

end Lookup

namespace Dataset

/-- The fields of a record that stand below known names. -/
def belowNames (cells : List (Option Column × String)) : List (Column × String) :=
  cells.filterMap fun cell => cell.1.map fun column => (column, cell.2)

/-- Reads the cell below a known name. -/
def readEntry (e : Column × String) : Except Decimal.ReadError (Column × Cell) :=
  (fun cell => (e.1, cell)) <$> e.1.readCell e.2

/-- Cells are read iff no known name occurs twice, counting those that were seen before, and each
of them is read. -/
theorem readCells_eq_ok_iff {position : Csv.Position} {index : Nat} {seen : List Column}
    {cells : List (Option Column × String)} {out : List (Column × Cell)} :
    readCells position index seen cells = .ok out ↔
      ((belowNames cells).map Prod.fst).Nodup ∧
        (∀ column ∈ (belowNames cells).map Prod.fst, column ∉ seen) ∧
          (belowNames cells).mapM readEntry = .ok out := by
  induction cells generalizing index seen out with
  | nil =>
      rw [readCells, belowNames, List.filterMap_nil, List.mapM_nil, pure_eq_ok_iff,
        Except.ok.injEq]
      exact ⟨fun h => ⟨List.nodup_nil, fun _ hMem => absurd hMem List.not_mem_nil, h⟩,
        fun h => h.2.2⟩
  | cons cell cells ih =>
      obtain ⟨column?, text⟩ := cell
      cases column? with
      | none => exact ih
      | some column =>
          have hCons : belowNames ((some column, text) :: cells) =
              (column, text) :: belowNames cells := rfl
          -- A later duplicate is one that is seen by then, so the two conditions trade places.
          have hSeen : (∀ other ∈ (belowNames cells).map Prod.fst, other ∉ column :: seen) ↔
              column ∉ (belowNames cells).map Prod.fst ∧
                ∀ other ∈ (belowNames cells).map Prod.fst, other ∉ seen := by
            simp only [List.mem_cons, not_or, forall_and, List.forall_mem_ne']
          rw [hCons, List.map_cons, List.nodup_cons, List.forall_mem_cons, List.mapM_cons,
            readCells]
          by_cases hDuplicate : column ∈ seen
          · rw [if_pos hDuplicate]
            constructor
            · intro h
              cases h
            · intro h
              exact absurd hDuplicate h.2.1.1
          · rw [if_neg hDuplicate, readEntry]
            cases column.readCell text with
            | error cause =>
                constructor
                · intro h
                  cases h
                · intro h
                  cases h.2.2
            | ok cell =>
                have hHead : ((fun cell => (column, cell)) <$> .ok cell :
                    Except Decimal.ReadError (Column × Cell)) = .ok (column, cell) := rfl
                simp only [hHead, ok_bind, bind_eq_ok_iff, pure_eq_ok_iff, ih, hSeen]
                constructor
                · rintro ⟨rest, ⟨hDistinct, ⟨hFresh, hTail⟩, hRest⟩, hOut⟩
                  exact ⟨⟨hFresh, hDistinct⟩, ⟨hDuplicate, hTail⟩, rest, hRest, hOut⟩
                · rintro ⟨⟨hFresh, hDistinct⟩, ⟨-, hTail⟩, rest, hRest, hOut⟩
                  exact ⟨rest, ⟨hDistinct, ⟨hFresh, hTail⟩, hRest⟩, hOut⟩

/-- The cell of a column comes from the field below its name. -/
theorem lookup_of_read {entries : List (Column × String)} {cells : List (Column × Cell)}
    (h : entries.mapM readEntry = .ok cells) (column : Column) :
    cells.lookup column =
      (entries.lookup column).bind fun text => (column.readCell text).toOption := by
  induction mapM_eq_ok_iff.mp h with
  | nil => rfl
  | @cons e cell entries cells hHead hTail ih =>
      obtain ⟨content, hCell, rfl⟩ := map_eq_ok_iff.mp hHead
      rw [List.lookup_cons, List.lookup_cons, ih (mapM_eq_ok_iff.mpr hTail)]
      by_cases hColumn : column == e.1
      · rw [hColumn, beq_iff_eq.mp hColumn]
        simp only [Option.bind_some, hCell]
        rfl
      · rw [Bool.eq_false_iff.mpr hColumn]

/-- A record below a header is read iff its row can be, and gives the cells of that row. -/
theorem readRow_eq_ok_iff {t : TextTable n} {i : Fin n} {record : Csv.Record} {row : Row}
    (h : record.fields = t.row i) :
    readRow (readHeader t.header) record = .ok row ↔
      t.Readable i ∧ Row.ofCells (t.cellAt i) = row := by
  have hLength : ¬record.fields.length ≠ (readHeader t.header).length := by
    rw [h, readHeader, List.length_map, TextTable.header, List.length_map, TextTable.row,
      List.length_map]
    exact not_not.mpr rfl
  have hCells : (readHeader t.header).zip (record.fields.map Text.trimmed) =
      t.map fun c => (c.column?, Text.trimmed (c.fields i)) := by
    rw [h, readHeader, TextTable.header, TextTable.row, List.map_map, List.map_map, List.zip_map']
    rfl
  have hEntries : belowNames (t.map fun c => (c.column?, Text.trimmed (c.fields i))) =
      t.entries i := List.filterMap_map
  rw [readRow, if_neg hLength]
  simp only [hCells, bind_eq_ok_iff, readCells_eq_ok_iff, hEntries]
  constructor
  · rintro ⟨cells, ⟨hDistinct, -, hRead⟩, hRow⟩
    simp only [lookup_of_read hRead] at hRow
    refine ⟨⟨hDistinct, fun e he => ?_⟩, Except.ok.inj hRow⟩
    obtain ⟨_, hCell⟩ := exists_mapM_eq_ok_iff.mp ⟨cells, hRead⟩ e he
    obtain ⟨cell, hCell, -⟩ := map_eq_ok_iff.mp hCell
    exact ⟨cell, hCell⟩
  · rintro ⟨⟨hDistinct, hRead⟩, rfl⟩
    have hEach : ∀ e ∈ t.entries i, ∃ cell, readEntry e = .ok cell := by
      intro e he
      obtain ⟨cell, hCell⟩ := hRead e he
      exact ⟨_, map_eq_ok_iff.mpr ⟨cell, hCell, rfl⟩⟩
    obtain ⟨cells, hCells⟩ := exists_mapM_eq_ok_iff.mpr hEach
    refine ⟨cells, ⟨hDistinct, fun _ _ => List.not_mem_nil, hCells⟩, ?_⟩
    simp only [lookup_of_read hCells]
    rfl

/-- The rows below a header are read iff each of them is readable, and then a row has the cells that
its columns give. -/
theorem mapM_readRow_eq_ok_iff {t : TextTable n} {is : List (Fin n)} {rows : List Csv.Record}
    {out : List Row} (h : rows.map Csv.Record.fields = is.map t.row) :
    rows.mapM (readRow (readHeader t.header)) = .ok out ↔
      (∀ i ∈ is, t.Readable i) ∧ is.map (fun i => Row.ofCells (t.cellAt i)) = out := by
  induction is generalizing rows out with
  | nil =>
      rw [List.map_eq_nil_iff.mp h, List.mapM_nil, pure_eq_ok_iff]
      exact ⟨fun hOut => ⟨nofun, hOut⟩, fun hOut => hOut.2⟩
  | cons i is ih =>
      obtain ⟨record, rows, rfl, hHead, hTail⟩ := List.map_eq_cons_iff.mp h
      rw [List.mapM_cons, bind_eq_ok_iff, List.forall_mem_cons, List.map_cons]
      simp only [readRow_eq_ok_iff hHead, bind_eq_ok_iff, ih hTail, pure_eq_ok_iff]
      constructor
      · rintro ⟨_, ⟨hRow, rfl⟩, _, ⟨hRest, rfl⟩, hOut⟩
        exact ⟨⟨hRow, hRest⟩, hOut⟩
      · rintro ⟨⟨hRow, hRest⟩, hOut⟩
        exact ⟨_, ⟨hRow, rfl⟩, _, ⟨hRest, rfl⟩, hOut⟩

/-- No column is missed in a header iff the table is complete. -/
theorem missingColumn?_eq_none_iff {t : TextTable n} :
    missingColumn? (readHeader t.header) = none ↔ t.Complete := by
  have hAll : ∀ column, column ∈ Column.all := by
    intro column
    cases column <;> decide
  have hOccurs : ∀ column, some column ∈ readHeader t.header ↔ ∃ c ∈ t, c.column? = some column := by
    intro column
    rw [readHeader, TextTable.header, List.map_map, List.mem_map]
    rfl
  rw [missingColumn?, List.find?_eq_none, TextTable.Complete]
  simp only [hAll, true_imp_iff, ← hOccurs]
  refine forall_congr' fun column => ?_
  cases column.isOptional <;> simp

section Written

variable {t : TextTable n} {text : String} (hText : Csv.WritesTable t.records text.toList)
  (hNames : ∀ c ∈ t, c.name.toList.head? ≠ some '\uFEFF')

include hText hNames

/-- The records of the text are those of the table. Empty ones are lost, because an empty line is
none. -/
theorem fields_records_table :
    (Csv.records text).map Csv.Record.fields = t.records.filter (!·.isEmpty) := by
  apply Csv.fields_records_written hText
  rintro _ ⟨⟩ s hs
  obtain ⟨c, hc, rfl⟩ := List.mem_map.mp hs
  exact hNames c hc

/-- A table with a column has a header and keeps the number of its rows. -/
theorem exists_records_table (hSome : t ≠ []) :
    ∃ first rows, Csv.records text = first :: rows ∧ first.fields = t.header ∧
      rows.map Csv.Record.fields = (List.finRange n).map t.row := by
  have hKept : t.records.filter (!·.isEmpty) = t.records := by
    rw [List.filter_eq_self]
    intro fields hFields
    have hLength : fields.length = t.length := by
      rcases List.mem_cons.mp hFields with rfl | hFields
      · exact List.length_map ..
      · obtain ⟨i, -, rfl⟩ := List.mem_map.mp hFields
        exact List.length_map ..
    rw [Bool.not_eq_true', List.isEmpty_eq_false_iff, ← List.length_pos_iff, hLength]
    exact List.length_pos_of_ne_nil hSome
  have hRecords := fields_records_table hText hNames
  rw [hKept] at hRecords
  exact List.map_eq_cons_iff.mp hRecords

/-- The header of the text is that of the table, also where there is no column and no line at
all. -/
theorem headerOf_table : headerOf text = readHeader t.header := by
  cases t with
  | nil =>
      have hNone : (TextTable.records ([] : TextTable n)).filter (!·.isEmpty) = [] := by
        rw [List.filter_eq_nil_iff]
        intro fields hFields
        rcases List.mem_cons.mp hFields with rfl | hFields
        · exact Bool.false_ne_true
        · obtain ⟨i, -, rfl⟩ := List.mem_map.mp hFields
          exact Bool.false_ne_true
      have hRecords := (fields_records_table hText hNames).trans hNone
      rw [headerOf, List.map_eq_nil_iff.mp hRecords]
      rfl
  | cons c t =>
      obtain ⟨first, rows, hRecords, hHeader, -⟩ :=
        exists_records_table hText hNames (List.cons_ne_nil c t)
      rw [headerOf, hRecords, ← hHeader]
      rfl

/-- What makes a table load, and what it loads. -/
theorem parse_table_eq_ok_iff {d : Dataset} :
    (parse text).outcome = .ok d ↔ t.Complete ∧ (∀ i, t.Readable i) ∧
      ∃ flows, ((List.finRange n).map fun i => Row.ofCells (t.cellAt i)).mapM Row.toFlow =
        .ok flows ∧ ofFlows flows = d := by
  rw [outcome_parse, headerOf_table hText hNames, ← missingColumn?_eq_none_iff]
  cases hMissing : missingColumn? (readHeader t.header) with
  | some column => exact iff_of_false nofun nofun
  | none =>
      -- The lines of a table without columns are empty and hold no records at all.
      have hSome : t ≠ [] := by
        rintro rfl
        cases hMissing
      obtain ⟨first, rows, hRecords, -, hRows⟩ := exists_records_table hText hNames hSome
      simp only [hRecords, List.tail_cons, bind_eq_ok_iff, mapError_eq_ok_iff,
        mapM_readRow_eq_ok_iff hRows, flowsOfRows_eq_ok_iff, Except.ok.injEq, List.mem_finRange,
        true_imp_iff, true_and]
      constructor
      · rintro ⟨_, ⟨hReadable, rfl⟩, hFlows⟩
        exact ⟨hReadable, hFlows⟩
      · rintro ⟨hReadable, hFlows⟩
        exact ⟨_, ⟨hReadable, rfl⟩, hFlows⟩

end Written

end Dataset

namespace TextTable

/-- Tables that differ in nothing that loading looks at. The columns may stand in any order;
columns of unknown names may stand anywhere; and where an optional column does not occur, it may
stand anywhere without content. -/
inductive Alike : TextTable n → TextTable n → Prop
  | reordered {t u : TextTable n} : t.Perm u → Alike t u
  | unknown {front back : TextTable n} {c : TextColumn n} : c.column? = none →
      Alike (front ++ back) (front ++ c :: back)
  | blank {front back : TextTable n} {c : TextColumn n} {column : Column} :
      c.column? = some column → column.isOptional → c.IsBlank →
        (∀ d ∈ front ++ back, d.column? ≠ some column) → Alike (front ++ back) (front ++ c :: back)
  | symm {t u : TextTable n} : Alike t u → Alike u t
  | trans {t u v : TextTable n} : Alike t u → Alike u v → Alike t v

/-- Tables that loading cannot tell apart: the same rows can be read, and they have the same
cells. -/
structure LoadsLike (t u : TextTable n) : Prop where
  complete : t.Complete ↔ u.Complete
  readable : ∀ i, t.Readable i ↔ u.Readable i
  cells : ∀ i, t.Readable i → t.cellAt i = u.cellAt i

theorem LoadsLike.symm {t u : TextTable n} (h : LoadsLike t u) : LoadsLike u t where
  complete := h.complete.symm
  readable i := (h.readable i).symm
  cells i hReadable := (h.cells i ((h.readable i).mpr hReadable)).symm

theorem LoadsLike.trans {t u v : TextTable n} (h : LoadsLike t u) (h' : LoadsLike u v) :
    LoadsLike t v where
  complete := h.complete.trans h'.complete
  readable i := (h.readable i).trans (h'.readable i)
  cells i hReadable := (h.cells i hReadable).trans (h'.cells i ((h.readable i).mp hReadable))

/-- Only which entries a row has matters for loading, not in which order they stand. -/
theorem LoadsLike.of_perm {t u : TextTable n} (hComplete : t.Complete ↔ u.Complete)
    (hEntries : ∀ i, (t.entries i).Perm (u.entries i)) : LoadsLike t u where
  complete := hComplete
  readable i := by
    have hDistinct := ((hEntries i).map Prod.fst).nodup_iff
    constructor
    · rintro ⟨hNodup, hCells⟩
      exact ⟨hDistinct.mp hNodup, fun e he => hCells e ((hEntries i).mem_iff.mpr he)⟩
    · rintro ⟨hNodup, hCells⟩
      exact ⟨hDistinct.mpr hNodup, fun e he => hCells e ((hEntries i).mem_iff.mp he)⟩
  cells i hReadable := by
    funext column
    rw [cellAt, cellAt, lookup_eq_of_perm (hEntries i) hReadable.distinct]

theorem loadsLike_of_reordered {t u : TextTable n} (h : t.Perm u) : LoadsLike t u := by
  apply LoadsLike.of_perm
  · simp only [Complete, h.mem_iff]
  · exact fun i => h.filterMap _

theorem complete_cons {t : TextTable n} {c : TextColumn n}
    (h : ∀ column : Column, column.isOptional = false → c.column? ≠ some column) :
    Complete (c :: t) ↔ t.Complete := by
  refine forall₂_congr fun column hRequired => ?_
  rw [List.exists_mem_cons_iff, or_iff_right (h column hRequired)]

/-- A column without a known name is not seen. -/
theorem loadsLike_unknown {t : TextTable n} {c : TextColumn n} (h : c.column? = none) :
    LoadsLike t (c :: t) := by
  apply LoadsLike.of_perm
  · exact (complete_cons fun column _ => h ▸ nofun).symm
  · intro i
    rw [entries, entries, List.filterMap_cons, h]
    rfl

/-- An optional column of blanks says the same as no column of this name. -/
theorem loadsLike_blank {t : TextTable n} {c : TextColumn n} {column : Column}
    (hName : c.column? = some column) (hOptional : column.isOptional) (hBlank : c.IsBlank)
    (hAbsent : ∀ d ∈ t, d.column? ≠ some column) : LoadsLike t (c :: t) := by
  have hCons : ∀ i, entries (c :: t) i = (column, "") :: t.entries i := by
    intro i
    rw [entries, List.filterMap_cons, hName, hBlank i]
    rfl
  have hFresh : ∀ i, column ∉ (t.entries i).map Prod.fst := by
    intro i hMem
    obtain ⟨e, he, rfl⟩ := List.mem_map.mp hMem
    obtain ⟨d, hd, hEntry⟩ := List.mem_filterMap.mp he
    obtain ⟨_, hOther, rfl⟩ := Option.map_eq_some_iff.mp hEntry
    exact hAbsent d hd hOther
  have hRead := Column.readCell_blank hOptional
  constructor
  · apply (complete_cons _).symm
    rw [hName]
    rintro _ hRequired ⟨⟩
    cases hRequired.symm.trans hOptional
  · intro i
    constructor
    · rintro ⟨hDistinct, hCells⟩
      constructor
      · rw [hCons, List.map_cons, List.nodup_cons]
        exact ⟨hFresh i, hDistinct⟩
      · rw [hCons, List.forall_mem_cons]
        exact ⟨⟨.blank, hRead⟩, hCells⟩
    · rintro ⟨hDistinct, hCells⟩
      rw [hCons, List.map_cons, List.nodup_cons] at hDistinct
      rw [hCons, List.forall_mem_cons] at hCells
      exact ⟨hDistinct.2, hCells.2⟩
  · intro i _
    funext other
    rw [cellAt, cellAt, hCons, List.lookup_cons]
    by_cases hOther : other == column
    · rw [hOther, beq_iff_eq.mp hOther, lookup_eq_none_of_not_mem (hFresh i)]
      simp only [Option.bind_some, hRead]
      rfl
    · rw [Bool.eq_false_iff.mpr hOther]

/-- Each step from a table to one that is alike keeps what is loaded. -/
theorem Alike.loadsLike {t u : TextTable n} (h : Alike t u) : LoadsLike t u := by
  induction h with
  | reordered h => exact loadsLike_of_reordered h
  | unknown h => exact (loadsLike_unknown h).trans (loadsLike_of_reordered List.perm_middle.symm)
  | blank hName hOptional hBlank hAbsent =>
      exact (loadsLike_blank hName hOptional hBlank hAbsent).trans
        (loadsLike_of_reordered List.perm_middle.symm)
  | symm _ ih => exact ih.symm
  | trans _ _ ih ih' => exact ih.trans ih'

end TextTable

namespace Dataset

/-- Whether a table loads, and what it loads, depends neither on the order of its columns, nor on
columns of unknown names, nor on whether an absent port column stands there without content. Each
of the two texts may have any fields in quotes. -/
theorem parse_alike {t u : TextTable n} (h : t.Alike u) {text other : String}
    (hText : Csv.WritesTable t.records text.toList)
    (hOther : Csv.WritesTable u.records other.toList)
    (hNames : ∀ c ∈ t, c.name.toList.head? ≠ some '\uFEFF')
    (hOtherNames : ∀ c ∈ u, c.name.toList.head? ≠ some '\uFEFF') (d : Dataset) :
    (parse text).outcome = .ok d ↔ (parse other).outcome = .ok d := by
  have hLike := h.loadsLike
  rw [parse_table_eq_ok_iff hText hNames, parse_table_eq_ok_iff hOther hOtherNames, hLike.complete,
    forall_congr' hLike.readable]
  refine and_congr_right fun _ => and_congr_right fun hReadable => ?_
  have hCells : t.cellAt = u.cellAt := by
    funext i
    exact hLike.cells i ((hLike.readable i).mpr (hReadable i))
  rw [hCells]

/-- A table without source ports, and its columns in reverse with blank source ports and a comment
in front of them. -/
theorem parse_alike_reversed :
    let column (name field : String) : TextColumn 1 := ⟨name, fun _ => field⟩
    let t : TextTable 1 :=
      [column "START_TIME" "1", column "END_TIME" "2", column "PROTOCOL" "6",
        column "SRC_IP" "10.0.0.1", column "DST_IP" "10.0.0.2", column "DST_PORT" "80",
        column "PACKETS" "3", column "BYTES" "4"]
    let u : TextTable 1 := column "note" "a,\n\"b\"" :: column " SRC_PORT" "\t" :: t.reverse
    let text := "START_TIME,END_TIME,PROTOCOL,SRC_IP,DST_IP,DST_PORT,PACKETS,BYTES\n" ++
      "1,2,6,10.0.0.1,10.0.0.2,80,3,4\n"
    let other := String.ofList (u.records.flatMap fun fields => Csv.quotedRecord fields ++ ['\n'])
    let f : Flow := ⟨⟨6, .ofNat .v4 0x0a000001, .ofNat .v4 0x0a000002, 0, 80⟩, 1, 2, 3, 4, none⟩
    t.Alike u ∧ Csv.WritesTable t.records text.toList ∧
      Csv.WritesTable u.records other.toList ∧ (parse text).outcome = .ok [f] ∧
        (parse other).outcome = .ok [f] := by
  intro column t u text other f
  have hPort : TextTable.Alike ([] ++ t.reverse) ([] ++ column " SRC_PORT" "\t" :: t.reverse) :=
    .blank (by decide +kernel : _ = some Column.sourcePort) rfl
      (fun _ => show Text.trimmed "\t" = "" by decide +kernel) (by decide +kernel)
  have hNote : TextTable.Alike ([] ++ column " SRC_PORT" "\t" :: t.reverse) ([] ++ u) :=
    .unknown (by decide +kernel)
  have hAlike : t.Alike u := .trans (.trans (.reordered (List.reverse_perm t).symm) hPort) hNote
  have hPlain : ∀ fields ∈ t.records, Csv.IsPlainRecord fields := by
    have hFields : ∀ fields ∈ t.records, ∀ s ∈ fields, Csv.IsPlainField s := by
      simp [t, column, TextTable.records, TextTable.header, TextTable.row, Csv.IsPlainField,
        Csv.IsPlain]
    have hBegins : ∀ fields ∈ t.records, ∃ s ∈ fields.head?, s ≠ "" := by decide +kernel
    exact fun fields h => ⟨hFields fields h, hBegins fields h⟩
  have hText : Csv.WritesTable t.records text.toList := by
    have hLines : text.toList = t.records.flatMap fun fields =>
        (Csv.renderRecord fields).toList := by decide +kernel
    rw [hLines]
    exact Csv.writesTable_of_plain hPlain
  have hOther : Csv.WritesTable u.records other.toList := by
    rw [String.toList_ofList]
    exact Csv.writesTable_quoted _
  have hLoaded : (parse text).outcome = .ok [f] := by decide +kernel
  have hNames : ∀ c ∈ u, c.name.toList.head? ≠ some '\uFEFF' := by decide +kernel
  have hFirst : ∀ c ∈ t, c.name.toList.head? ≠ some '\uFEFF' := by decide +kernel
  exact ⟨hAlike, hText, hOther, hLoaded,
    (parse_alike hAlike hText hOther hFirst hNames [f]).mp hLoaded⟩

end Dataset

end FlowAudit
