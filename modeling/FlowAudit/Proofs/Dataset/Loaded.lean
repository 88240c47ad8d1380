import FlowAudit.Proofs.Dataset.RoundTrip
import FlowAudit.Proofs.FileTree
import FlowAudit.Proofs.Totals
/-!
What reading a table can give. Rows become flows one by one, each with the times of its row in
order, and flows to noise destinations are left out. Saving and loading any table keeps the flows
that remain under these rules, without their counts.
-/
namespace FlowAudit

namespace Row

/-- A row whose times are reversed never becomes a flow. -/
theorem times_of_toFlow {r : Row} {f : Flow} (h : r.toFlow = .ok f) :
    r.startTime ≤ r.endTime ∧ f.startTime = r.startTime ∧ f.endTime = r.endTime := by
  obtain ⟨source, _, h⟩ := bind_eq_ok_iff.mp h
  obtain ⟨destination, _, h⟩ := bind_eq_ok_iff.mp h
  by_cases hReversed : r.endTime < r.startTime
  · rw [if_pos hReversed] at h
    cases h
  · rw [if_neg hReversed] at h
    cases h
    exact ⟨UInt64.not_lt.mp hReversed, rfl, rfl⟩

/-- A flow is read back from its row iff its times are ordered. Its count is not written. -/
theorem toFlow_ofFlow_eq_ok_iff {f g : Flow} :
    (ofFlow f).toFlow = .ok g ↔ f.startTime ≤ f.endTime ∧ f.uncounted = g := by
  constructor
  · intro h
    have hOrdered : f.startTime ≤ f.endTime := (times_of_toFlow h).1
    have hRead := h.symm.trans (toFlow_ofFlow (f := f.uncounted) hOrdered rfl)
    exact ⟨hOrdered, (Except.ok.inj hRead).symm⟩
  · rintro ⟨hOrdered, rfl⟩
    exact toFlow_ofFlow (f := f.uncounted) hOrdered rfl

end Row

namespace Dataset

/-- The tables that are read from a text or from a file. -/
inductive Loaded : Dataset → Prop
  | text {text : String} {d : Dataset} : (parse text).outcome = .ok d → Loaded d
  | file {tree : FileTree} {path : String} {d : Dataset} :
      (load tree path).outcome = .ok d → Loaded d

/-- Line numbers matter to errors only. -/
theorem flowsOfRows_eq_ok_iff {line : Nat} {rows : List Row} {flows : List Flow} :
    flowsOfRows line rows = .ok flows ↔ rows.mapM Row.toFlow = .ok flows := by
  induction rows generalizing line flows with
  | nil =>
      rw [flowsOfRows, List.mapM_nil]
      constructor <;> exact fun h => Except.ok.inj h ▸ rfl
  | cons row rest ih =>
      rw [flowsOfRows.eq_def, List.mapM_cons]
      simp only
      cases row.toFlow with
      | error cause => simp [bind, Except.bind]
      | ok f =>
          simp only [ok_bind, bind_eq_ok_iff, ih]
          exact exists_congr fun others => and_congr_right fun _ =>
            ⟨fun h => Except.ok.inj h ▸ rfl, fun h => Except.ok.inj h ▸ rfl⟩

/-- The columns that the first record of a text names. -/
def headerOf (text : String) : List (Option Column) :=
  readHeader (((Csv.records text).head?.map Csv.Record.fields).getD [])

/-- Reading without its messages. The columns are checked first, then all rows are read, and then
they become flows. -/
theorem outcome_parse (text : String) :
    (parse text).outcome =
      match missingColumn? (headerOf text) with
      | some column => .error (.missingColumn column)
      | none =>
        ((Csv.records text).tail.mapM (readRow (headerOf text))).mapError DatasetError.malformed
          >>= fun rows => flowsOfRows 2 rows >>= fun flows => .ok (ofFlows flows) := by
  have hReport : ∀ flows : List Flow,
      (do
        if 0 < flows.length - (ofFlows flows).length then
          Traced.report .debug
            s!"dropped {flows.length - (ofFlows flows).length} broadcast/multicast flows"
        return ofFlows flows : Traced DatasetError Dataset).outcome = .ok (ofFlows flows) := by
    intro flows
    split <;> rfl
  rw [parse, headerOf]
  generalize readHeader _ = header
  cases missingColumn? header with
  | some column => rfl
  | none => simp only [Traced.outcome_bind, Traced.outcome_lift, hReport]

/-- Whatever a text says, a table that is read from it has been made of rows. -/
theorem exists_rows_of_parse {text : String} {d : Dataset} (h : (parse text).outcome = .ok d) :
    ∃ (rows : List Row) (flows : List Flow), rows.mapM Row.toFlow = .ok flows ∧
      d = ofFlows flows := by
  rw [outcome_parse] at h
  cases hMissing : missingColumn? (headerOf text) with
  | some column =>
      rw [hMissing] at h
      cases h
  | none =>
      rw [hMissing] at h
      obtain ⟨rows, _, h⟩ := bind_eq_ok_iff.mp h
      obtain ⟨flows, hFlows, h⟩ := bind_eq_ok_iff.mp h
      exact ⟨rows, flows, flowsOfRows_eq_ok_iff.mp hFlows, (Except.ok.inj h).symm⟩

theorem outcome_load {tree : FileTree} {path text : String} (h : tree.read path = .ok text) :
    (load tree path).outcome = (parse text).outcome := by
  rw [load, h]
  simp only [Traced.outcome_bind, Traced.outcome_report, Traced.outcome_pure, ok_bind, bind_ok]

/-- A table that is loaded has been read from a text. -/
theorem exists_text_of_load {tree : FileTree} {path : String} {d : Dataset}
    (h : (load tree path).outcome = .ok d) : ∃ text, (parse text).outcome = .ok d := by
  cases hRead : tree.read path with
  | ok text => exact ⟨text, outcome_load hRead ▸ h⟩
  | error cause =>
      rw [load, hRead] at h
      simp only [Traced.outcome_bind, Traced.outcome_report, ok_bind] at h
      cases cause <;> cases h

/-- Loaded tables come from rows, and have no flows to noise destinations. -/
theorem Loaded.exists_rows {d : Dataset} (h : Loaded d) :
    ∃ (rows : List Row) (flows : List Flow), rows.mapM Row.toFlow = .ok flows ∧
      d = ofFlows flows := by
  cases h with
  | text hText => exact exists_rows_of_parse hText
  | file hFile =>
      obtain ⟨text, hText⟩ := exists_text_of_load hFile
      exact exists_rows_of_parse hText

/-- Written rows are always read, so only making flows of them can fail. -/
theorem outcome_parse_render (d : Dataset) :
    (parse d.render).outcome = flowsOfRows 2 (d.map Row.ofFlow) >>= fun flows =>
      .ok (ofFlows flows) := by
  have hRecords := fields_records_render d
  rw [List.map_eq_cons_iff] at hRecords
  obtain ⟨first, rows, hRecords, hHeader, hRows⟩ := hRecords
  have hColumns : missingColumn? (Column.all.map some) = none := by decide
  rw [outcome_parse, headerOf, hRecords]
  simp only [List.head?_cons, Option.map_some, Option.getD_some, hHeader, readHeader_names,
    List.tail_cons, mapM_readRow hRows, hColumns, mapError_ok, ok_bind]

/-- A written table is read back iff the times of all flows are ordered. Flows to noise destinations
are left out, and counts are lost. -/
theorem parse_render_eq_ok_iff {d e : Dataset} :
    (parse d.render).outcome = .ok e ↔
      (∀ f ∈ d, f.startTime ≤ f.endTime) ∧ e = ofFlows (d.map Flow.uncounted) := by
  have hFlows : ∀ flows, flowsOfRows 2 (d.map Row.ofFlow) = .ok flows ↔
      (∀ f ∈ d, f.startTime ≤ f.endTime) ∧ flows = d.map Flow.uncounted := by
    intro flows
    rw [flowsOfRows_eq_ok_iff, mapM_eq_ok_iff, List.forall₂_map_left_iff]
    simp only [Row.toFlow_ofFlow_eq_ok_iff]
    rw [List.forall₂_and_left, @eq_comm _ flows, ← List.forall₂_eq_eq_eq,
      List.forall₂_map_left_iff]
  rw [outcome_parse_render, bind_eq_ok_iff]
  simp only [hFlows]
  constructor
  · rintro ⟨_, ⟨hOrdered, rfl⟩, hEq⟩
    exact ⟨hOrdered, (Except.ok.inj hEq).symm⟩
  · rintro ⟨hOrdered, rfl⟩
    exact ⟨_, ⟨hOrdered, rfl⟩, rfl⟩

/-- Loading what was saved is refused iff the times of some flow are reversed. Otherwise all flows
come back that do not go to noise destinations. -/
theorem load_save_eq_ok_iff {d e : Dataset} {tree saved : FileTree} {path : String}
    (hSave : d.save tree path = .ok saved) (hSink : saved.find path ≠ .ok .sink) :
    (load saved path).outcome = .ok e ↔
      (∀ f ∈ d, f.startTime ≤ f.endTime) ∧ e = ofFlows (d.map Flow.uncounted) := by
  have hRead := FileTree.read_write (mapError_eq_ok_iff.mp hSave) hSink
  rw [outcome_load hRead, parse_render_eq_ok_iff]

end Dataset

end FlowAudit
