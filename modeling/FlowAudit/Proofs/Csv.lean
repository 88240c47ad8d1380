import FlowAudit.Csv
import FlowAudit.Proofs.Digits
import Mathlib
/-!
The texts of a table, and that each of them is read as the fields it was written for. Only the
fields are compared: where a record began matters to messages alone.
-/
namespace FlowAudit.Csv

section Written

/-- A character that ends a record. -/
def IsLineEnd (c : Char) : Prop :=
  c = '\n' ∨ c = '\r'

/-- What stands between the quotes of a field: its quotes are doubled. -/
def doubled (cs : List Char) : List Char :=
  cs.flatMap fun c => if c = '"' then ['"', '"'] else [c]

/-- The texts of a field. Quotes may be left out unless the field holds a separator or begins with
a quote. -/
inductive WritesField (s : String) : List Char → Prop
  | plain : (∀ c ∈ s.toList, c ≠ ',' ∧ ¬IsLineEnd c) → s.toList.head? ≠ some '"' →
      WritesField s s.toList
  | quoted : WritesField s ('"' :: (doubled s.toList ++ ['"']))

/-- The texts of a record without its line end. An empty line holds no record, so that a single
empty field needs quotes. -/
structure WritesRecord (fields : List String) (cs : List Char) : Prop where
  texts : ∃ texts, List.Forall₂ WritesField fields texts ∧ cs = separated ',' true texts
  visible : cs = [] → fields = []

/-- The texts of a table. The last record may do without a line end, and empty lines may stand
anywhere. -/
inductive WritesTable : List (List String) → List Char → Prop
  | nil : WritesTable [] []
  | last {fields : List String} {cs : List Char} : WritesRecord fields cs → WritesTable [fields] cs
  | cons {fields : List String} {table : List (List String)} {cs rest : List Char} {c : Char} :
      WritesRecord fields cs → IsLineEnd c → WritesTable table rest →
        WritesTable (fields :: table) (cs ++ c :: rest)
  | blank {table : List (List String)} {rest : List Char} {c : Char} :
      IsLineEnd c → WritesTable table rest → WritesTable table (c :: rest)

/-- A record with quotes around each of its fields. -/
def quotedRecord (fields : List String) : List Char :=
  separated ',' true (fields.map fun s => '"' :: (doubled s.toList ++ ['"']))

/-- Any fields can be written by quoting all of them, which leaves no condition on their
characters. -/
theorem writesRecord_quoted (fields : List String) :
    WritesRecord fields (quotedRecord fields) := by
  constructor
  · refine ⟨_, ?_, rfl⟩
    rw [List.forall₂_map_right_iff, List.forall₂_same]
    exact fun s _ => .quoted
  · intro hNil
    cases fields with
    | nil => rfl
    | cons s fields =>
        rw [quotedRecord, List.map_cons, separated_cons] at hNil
        cases hNil

/-- Every table has a text, whatever its fields hold. -/
theorem writesTable_quoted (table : List (List String)) :
    WritesTable table (table.flatMap fun fields => quotedRecord fields ++ ['\n']) := by
  induction table with
  | nil => exact .nil
  | cons fields table ih =>
      rw [List.flatMap_cons, List.append_assoc, List.singleton_append]
      exact .cons (writesRecord_quoted fields) (.inl rfl) ih

end Written

section Fields

/-- Outside of quotes, a quote is text unless the field begins or may have been closed. -/
theorem readRecord_text {state : FieldState} {c : Char} (hState : state ≠ .quoted)
    (hQuote : c = '"' → state = .plain) (hText : c ≠ ',' ∧ ¬IsLineEnd c) (field : List Char)
    (fields : List String) (p : Position) (rest : List Char) :
    readRecord state field fields p (c :: rest) =
      readRecord .plain (c :: field) fields (p.after c) rest := by
  have hOpening : ¬(c = '"' ∧ state = .start) := by
    rintro ⟨hc, hStart⟩
    cases hStart.symm.trans (hQuote hc)
  have hClosing : ¬(c = '"' ∧ state = .closing) := by
    rintro ⟨hc, hClosed⟩
    cases hClosed.symm.trans (hQuote hc)
  have hEnd : ¬(c = '\n' ∨ c = '\r') := hText.2
  rw [readRecord, if_neg hState, if_neg hOpening, if_neg hClosing, if_neg hText.1, if_neg hEnd]

/-- Outside quotes, characters that neither separate fields nor end the line are collected as they
are. -/
theorem readRecord_plain {cs : List Char} (hPlain : ∀ c ∈ cs, c ≠ ',' ∧ ¬IsLineEnd c)
    (field : List Char) (fields : List String) (p : Position) (rest : List Char) :
    ∃ p', readRecord .plain field fields p (cs ++ rest) =
      readRecord .plain (cs.reverse ++ field) fields p' rest := by
  induction cs generalizing field p with
  | nil => exact ⟨p, rfl⟩
  | cons c cs ih =>
      obtain ⟨hHead, hTail⟩ := List.forall_mem_cons.mp hPlain
      obtain ⟨p', hRead⟩ := ih hTail (c :: field) (p.after c)
      have hState : FieldState.plain ≠ .quoted := nofun
      refine ⟨p', ?_⟩
      rw [List.cons_append, readRecord_text hState (fun _ => rfl) hHead, hRead, List.reverse_cons,
        List.append_assoc]
      rfl

/-- Inside of quotes, everything up to the next single quote is text. -/
theorem readRecord_quoted (cs field : List Char) (fields : List String) (p : Position)
    (rest : List Char) :
    ∃ p', readRecord .quoted field fields p (doubled cs ++ '"' :: rest) =
      readRecord .closing (cs.reverse ++ field) fields p' rest := by
  induction cs generalizing field p with
  | nil => exact ⟨p.after '"', rfl⟩
  | cons c cs ih =>
      rw [doubled, List.flatMap_cons, ← doubled, List.append_assoc, List.reverse_cons,
        List.append_assoc, List.singleton_append]
      by_cases hQuote : c = '"'
      · subst hQuote
        exact ih ('"' :: field) ((p.after '"').after '"')
      · obtain ⟨p', hRead⟩ := ih (c :: field) (p.after c)
        refine ⟨p', ?_⟩
        rw [if_neg hQuote, List.singleton_append, readRecord, if_pos rfl, if_neg hQuote, hRead]

/-- A field is read as it was written, in front of any text. -/
theorem readRecord_field {s : String} {text : List Char} (h : WritesField s text)
    (fields : List String) (p : Position) (rest : List Char) :
    ∃ state p', state ≠ .quoted ∧ readRecord .start [] fields p (text ++ rest) =
      readRecord state s.toList.reverse fields p' rest := by
  cases h with
  | plain hPlain hFirst =>
      cases hText : s.toList with
      -- Nothing is read for an empty field, so that even a quote would still open it.
      | nil => exact ⟨.start, p, nofun, rfl⟩
      | cons c cs =>
          rw [hText] at hPlain hFirst
          obtain ⟨hHead, hTail⟩ := List.forall_mem_cons.mp hPlain
          have hQuote : c ≠ '"' := fun hc => hFirst (congrArg some hc)
          obtain ⟨p', hRead⟩ := readRecord_plain hTail [c] fields (p.after c) rest
          have hState : FieldState.start ≠ .quoted := nofun
          refine ⟨.plain, p', nofun, ?_⟩
          rw [List.cons_append, readRecord_text hState (fun hc => absurd hc hQuote) hHead, hRead,
            List.reverse_cons]
  | quoted =>
      obtain ⟨p', hRead⟩ := readRecord_quoted s.toList [] fields (p.after '"') rest
      refine ⟨.closing, p', nofun, ?_⟩
      rw [List.append_nil] at hRead
      rw [← hRead, List.cons_append, List.append_assoc]
      rfl

/-- Each field goes to the fields in front of it. The last one remains to be added. -/
theorem readRecord_separated {fields : List String} {texts : List (List Char)}
    (h : List.Forall₂ WritesField fields texts) {state : FieldState} (hState : state ≠ .quoted)
    (field : List Char) (done : List String) (p : Position) (rest : List Char) :
    ∃ state' field' done' p', state' ≠ .quoted ∧
      (pushField field' done').reverse = (pushField field done).reverse ++ fields ∧
      readRecord state field done p (separated ',' false texts ++ rest) =
        readRecord state' field' done' p' rest := by
  induction h generalizing state field done p with
  | nil => exact ⟨state, field, done, p, hState, (List.append_nil _).symm, rfl⟩
  | @cons s text fields texts hHead _ ih =>
      obtain ⟨state', p', hState', hField⟩ := readRecord_field hHead (pushField field done)
        (p.after ',') (separated ',' false texts ++ rest)
      obtain ⟨state'', field', done', p'', hState'', hDone, hRead⟩ :=
        ih hState' s.toList.reverse (pushField field done) p'
      have hComma : ',' ≠ '"' := by decide
      refine ⟨state'', field', done', p'', hState'', ?_, ?_⟩
      · rw [hDone, pushField, List.reverse_reverse, String.ofList_toList, List.reverse_cons,
          List.append_assoc, List.singleton_append]
      · rw [separated_cons, if_neg Bool.false_ne_true, List.append_assoc, List.append_assoc,
          List.singleton_append, readRecord, if_neg hState, if_neg (fun h => hComma h.1),
          if_neg (fun h => hComma h.1), if_pos rfl, hField, hRead]

/-- A record ends at a line end and at the end of the text. -/
theorem readRecord_end {state : FieldState} (hState : state ≠ .quoted) {rest : List Char}
    (hEnd : ∀ c ∈ rest.head?, IsLineEnd c) (field : List Char) (done : List String)
    (p : Position) :
    ∃ p', readRecord state field done p rest = ⟨(pushField field done).reverse, p', rest.tail⟩ := by
  cases rest with
  | nil => exact ⟨p, rfl⟩
  | cons c rest =>
      refine ⟨p.after c, ?_⟩
      rcases hEnd c rfl with rfl | rfl
      · rw [readRecord, if_neg hState]
        rfl
      · rw [readRecord, if_neg hState]
        rfl

end Fields

section Records

/-- A record that is written at all begins with the text of a first field. An empty list of fields
has no text. -/
theorem WritesRecord.exists_cons {fields : List String} {cs : List Char}
    (h : WritesRecord fields cs) (hSome : cs ≠ []) :
    ∃ s others text texts, fields = s :: others ∧ WritesField s text ∧
      List.Forall₂ WritesField others texts ∧ cs = text ++ separated ',' false texts := by
  obtain ⟨texts, hTexts, rfl⟩ := h.texts
  cases hTexts with
  | nil => exact absurd (separated_nil ..) hSome
  | cons hHead hTail =>
      refine ⟨_, _, _, _, rfl, hHead, hTail, ?_⟩
      rw [separated_cons, if_pos rfl, List.nil_append]

/-- A record begins with its first field, with a quote, or with the separator behind a field that
is empty. -/
theorem WritesRecord.head_cases {fields : List String} {cs : List Char}
    (h : WritesRecord fields cs) {c : Char} (hHead : cs.head? = some c) :
    c = '"' ∨ c = ',' ∨ ¬IsLineEnd c ∧ ∃ s ∈ fields, s.toList.head? = some c := by
  have hSome : cs ≠ [] := by
    rintro rfl
    cases hHead
  obtain ⟨s, others, text, texts, rfl, hText, -, rfl⟩ := h.exists_cons hSome
  cases hText with
  | quoted => exact .inl (Option.some.inj hHead).symm
  | plain hPlain _ =>
      cases hs : s.toList with
      | nil =>
          cases texts with
          | nil => exact absurd (by rw [hs, separated_nil]; rfl) hSome
          | cons text texts =>
              rw [hs, separated_cons] at hHead
              exact .inr (.inl (Option.some.inj hHead).symm)
      | cons d ds =>
          rw [hs] at hHead hPlain
          obtain rfl : d = c := Option.some.inj hHead
          exact .inr (.inr ⟨(hPlain d (List.mem_cons_self ..)).2, s, List.mem_cons_self ..,
            congrArg List.head? hs⟩)

/-- A written record does not begin with a line end, so it is not skipped as an empty line. -/
theorem WritesRecord.head_not_lineEnd {fields : List String} {cs : List Char}
    (h : WritesRecord fields cs) {c : Char} (hHead : cs.head? = some c) : ¬IsLineEnd c := by
  rcases h.head_cases hHead with rfl | rfl | ⟨hEnd, -⟩
  · rintro (hEnd | hEnd) <;> cases hEnd
  · rintro (hEnd | hEnd) <;> cases hEnd
  · exact hEnd

/-- Reading stops behind the line end of a record. -/
theorem readRecord_written {fields : List String} {cs rest : List Char}
    (h : WritesRecord fields cs) (hSome : cs ≠ []) (hEnd : ∀ c ∈ rest.head?, IsLineEnd c)
    (p : Position) :
    ∃ p', readRecord .start [] [] p (cs ++ rest) = ⟨fields, p', rest.tail⟩ := by
  obtain ⟨s, others, text, texts, rfl, hText, hTexts, rfl⟩ := h.exists_cons hSome
  obtain ⟨state, p', hState, hField⟩ := readRecord_field hText [] p
    (separated ',' false texts ++ rest)
  obtain ⟨state', field, done, p'', hState', hDone, hRead⟩ :=
    readRecord_separated hTexts hState s.toList.reverse [] p' rest
  obtain ⟨stop, hStop⟩ := readRecord_end hState' hEnd field done p''
  refine ⟨stop, ?_⟩
  rw [List.append_assoc, hField, hRead, hStop, hDone, pushField, List.reverse_reverse,
    String.ofList_toList]
  rfl

theorem skipLineEnds_lineEnd {c : Char} (h : IsLineEnd c) (p : Position) (cs : List Char) :
    skipLineEnds p (c :: cs) = skipLineEnds (p.after c) cs := by
  rcases h with rfl | rfl <;> rfl

theorem skipLineEnds_of_not {c : Char} (h : ¬IsLineEnd c) (p : Position) (cs : List Char) :
    skipLineEnds p (c :: cs) = (p, c :: cs) := by
  rw [skipLineEnds.eq_def]
  split
  · next hEq => exact absurd (.inl (List.cons.inj hEq).1) h
  · next hEq => exact absurd (.inr (List.cons.inj hEq).1) h
  · rfl

/-- The fields of all records, without the places. -/
theorem fields_recordsFrom (p : Position) (cs : List Char) :
    (recordsFrom p cs).map Record.fields =
      match skipLineEnds p cs with
      | (_, []) => []
      | (start, c :: rest) =>
        let stop := readRecord .start [] [] start (c :: rest)
        stop.fields ::
          (recordsFrom { stop.position with record := p.record + 1 } stop.rest).map
            Record.fields := by
  rw [recordsFrom.eq_def]
  split <;> simp [*]

/-- A line end in front is an empty line, which changes positions and no fields. -/
theorem fields_recordsFrom_lineEnd {c : Char} (h : IsLineEnd c) (p : Position) (cs : List Char) :
    (recordsFrom p (c :: cs)).map Record.fields =
      (recordsFrom (p.after c) cs).map Record.fields := by
  rw [fields_recordsFrom, fields_recordsFrom (p.after c), skipLineEnds_lineEnd h]
  rfl

theorem WritesRecord.nonempty_fields {fields : List String} {cs : List Char}
    (h : WritesRecord fields cs) (hSome : cs ≠ []) : [fields].filter (!·.isEmpty) = [fields] := by
  obtain ⟨s, others, -, -, rfl, -⟩ := h.exists_cons hSome
  rfl

/-- One record is read, and reading goes on behind its line end. Nothing is read for a record
without fields. -/
theorem WritesRecord.fields_recordsFrom {fields : List String} {cs rest : List Char}
    (h : WritesRecord fields cs) (hEnd : ∀ c ∈ rest.head?, IsLineEnd c) (p : Position) :
    ∃ p', (recordsFrom p (cs ++ rest)).map Record.fields =
      [fields].filter (!·.isEmpty) ++ (recordsFrom p' rest.tail).map Record.fields := by
  cases cs with
  | nil =>
      rw [h.visible rfl, List.nil_append]
      cases rest with
      | nil => exact ⟨p, rfl⟩
      | cons c rest => exact ⟨p.after c, fields_recordsFrom_lineEnd (hEnd c rfl) p rest⟩
  | cons c cs =>
      obtain ⟨p', hRead⟩ := readRecord_written h (List.cons_ne_nil c cs) hEnd p
      rw [List.cons_append] at hRead
      refine ⟨{ p' with record := p.record + 1 }, ?_⟩
      rw [h.nonempty_fields (List.cons_ne_nil c cs), Csv.fields_recordsFrom, List.cons_append,
        skipLineEnds_of_not (h.head_not_lineEnd rfl)]
      simp only [hRead]
      rfl

/-- A table is read as it was written, apart from records without fields. -/
theorem WritesTable.fields_recordsFrom {table : List (List String)} {cs : List Char}
    (h : WritesTable table cs) (p : Position) :
    (recordsFrom p cs).map Record.fields = table.filter (!·.isEmpty) := by
  have hNil : ∀ p, (recordsFrom p []).map Record.fields = [] := by
    intro p
    rw [Csv.fields_recordsFrom]
    rfl
  induction h generalizing p with
  | nil => exact hNil p
  | @last fields cs hRecord =>
      have hEnd : ∀ c ∈ ([] : List Char).head?, IsLineEnd c := nofun
      obtain ⟨p', hRead⟩ := hRecord.fields_recordsFrom hEnd p
      rw [List.append_nil, List.tail_nil, hNil, List.append_nil] at hRead
      exact hRead
  | @cons fields table cs rest c hRecord hEnd _ ih =>
      have hHead : ∀ d ∈ (c :: rest).head?, IsLineEnd d := by
        rintro _ ⟨⟩
        exact hEnd
      obtain ⟨p', hRead⟩ := hRecord.fields_recordsFrom hHead p
      rw [hRead, List.tail_cons, ih, ← List.filter_append, List.singleton_append]
  | blank hEnd _ ih => rw [fields_recordsFrom_lineEnd hEnd, ih]

/-- The text of a table begins with a byte order mark only if a field of its first record does. -/
theorem WritesTable.head_ne_mark {table : List (List String)} {cs : List Char}
    (h : WritesTable table cs)
    (hNames : ∀ fields ∈ table.head?, ∀ s ∈ fields, s.toList.head? ≠ some '\uFEFF') :
    cs.head? ≠ some '\uFEFF' := by
  have hLine : ∀ {c : Char}, IsLineEnd c → some c ≠ some '\uFEFF' := by
    rintro c (rfl | rfl) <;> decide
  have hRecord : ∀ {fields cs}, WritesRecord fields cs →
      (∀ s ∈ fields, s.toList.head? ≠ some '\uFEFF') → cs.head? ≠ some '\uFEFF' := by
    intro fields cs hRecord hFields hMark
    rcases hRecord.head_cases hMark with h | h | ⟨-, s, hs, h⟩
    · cases h
    · cases h
    · exact hFields s hs h
  cases h with
  | nil => nofun
  | last h => exact hRecord h (hNames _ rfl)
  | @cons fields table cs rest c h hEnd _ =>
      cases cs with
      | nil => exact hLine hEnd
      | cons d cs =>
          have hFirst := hRecord h (hNames _ rfl)
          exact hFirst
  | blank hEnd _ => exact hLine hEnd

/-- Reading the text of a table gives the fields it was written for. -/
theorem fields_records_written {table : List (List String)} {text : String}
    (h : WritesTable table text.toList)
    (hNames : ∀ fields ∈ table.head?, ∀ s ∈ fields, s.toList.head? ≠ some '\uFEFF') :
    (records text).map Record.fields = table.filter (!·.isEmpty) := by
  have hMark := h.head_ne_mark hNames
  rw [records.eq_def]
  split
  · next hText => exact absurd (congrArg List.head? hText) hMark
  · exact h.fields_recordsFrom _

end Records

section Rendered

/-- A character that stands for itself in a field without quotes, wherever it stands. -/
def IsPlain (c : Char) : Prop :=
  c ≠ '"' ∧ c ≠ ',' ∧ c ≠ '\n' ∧ c ≠ '\r' ∧ c ≠ '\uFEFF'

/-- A field that needs no quotes. -/
def IsPlainField (s : String) : Prop :=
  ∀ c ∈ s.toList, IsPlain c

/-- A record that can be told from an empty line. -/
structure IsPlainRecord (fields : List String) : Prop where
  plain : ∀ s ∈ fields, IsPlainField s
  begins : ∃ s ∈ fields.head?, s ≠ ""

/-- A field that needs no quotes is its own text. -/
theorem IsPlainField.writesField {s : String} (h : IsPlainField s) : WritesField s s.toList := by
  apply WritesField.plain
  · intro c hc
    obtain ⟨-, hComma, hFeed, hReturn, -⟩ := h c hc
    exact ⟨hComma, not_or.mpr ⟨hFeed, hReturn⟩⟩
  · intro hQuote
    exact (h '"' (List.mem_of_mem_head? hQuote)).1 rfl

theorem toList_renderRecord (fields : List String) :
    (renderRecord fields).toList = separated ',' true (fields.map String.toList) ++ ['\n'] := by
  rw [renderRecord, String.toList_append, String.toList_intercalate]
  rfl

/-- Plain fields between commas are a written record. -/
theorem IsPlainRecord.writesRecord {fields : List String} (h : IsPlainRecord fields) :
    WritesRecord fields (separated ',' true (fields.map String.toList)) := by
  obtain ⟨hPlain, s, hFirst, hSome⟩ := h
  obtain ⟨others, rfl⟩ := List.head?_eq_some_iff.mp hFirst
  constructor
  · refine ⟨_, ?_, rfl⟩
    rw [List.forall₂_map_right_iff, List.forall₂_same]
    exact fun s hs => (hPlain s hs).writesField
  · intro hNil
    rw [List.map_cons, separated_cons, if_pos rfl, List.nil_append, List.append_eq_nil_iff,
      String.toList_eq_nil_iff] at hNil
    exact absurd hNil.1 hSome

/-- A table of plain records is written by its lines. -/
theorem writesTable_of_plain {table : List (List String)}
    (h : ∀ fields ∈ table, IsPlainRecord fields) :
    WritesTable table (table.flatMap fun fields => (renderRecord fields).toList) := by
  induction table with
  | nil => exact .nil
  | cons fields table ih =>
      obtain ⟨hHead, hTail⟩ := List.forall_mem_cons.mp h
      rw [List.flatMap_cons, toList_renderRecord, List.append_assoc, List.singleton_append]
      exact .cons hHead.writesRecord (.inl rfl) (ih hTail)

/-- Writing records and reading them again gives the same fields. -/
theorem fields_records {table : List (List String)}
    (h : ∀ fields ∈ table, IsPlainRecord fields) :
    (records (String.join (table.map renderRecord))).map Record.fields = table := by
  have hText : (String.join (table.map renderRecord)).toList =
      table.flatMap fun fields => (renderRecord fields).toList := by
    rw [String.toList_join, List.flatMap_map]
  have hNames : ∀ fields ∈ table.head?, ∀ s ∈ fields, s.toList.head? ≠ some '\uFEFF' := by
    intro fields hFields s hs hMark
    have hPlain := (h fields (List.mem_of_mem_head? hFields)).plain s hs
    exact (hPlain _ (List.mem_of_mem_head? hMark)).2.2.2.2 rfl
  rw [fields_records_written (hText ▸ writesTable_of_plain h) hNames, List.filter_eq_self]
  intro fields hFields
  obtain ⟨s, hFirst, -⟩ := (h fields hFields).begins
  rw [List.isEmpty_eq_false_iff.mpr (List.ne_nil_of_mem (List.mem_of_mem_head? hFirst))]
  rfl

end Rendered

end FlowAudit.Csv
