import FlowAudit.Text.Line
/-!
Lines of a text. Every text is written from its lines in exactly one way up to the ends of the lines,
and reading finds them. A text without line ends is a line, and lines that each got an end are read
back as the same lines.
-/
namespace FlowAudit.Text

section Written

/-- The texts of some lines. A line ends at a line feed or at a carriage return and a line feed, and
only the last line may do without an end, unless it is empty. -/
inductive WritesLines : List (List Char) → List Char → Prop
  | nil : WritesLines [] []
  | last {line : List Char} : '\n' ∉ line → line ≠ [] → WritesLines [line] line
  | feed {line rest : List Char} {ls : List (List Char)} :
      '\n' ∉ line → line.getLast? ≠ some '\r' → WritesLines ls rest →
        WritesLines (line :: ls) (line ++ '\n' :: rest)
  | returnFeed {line rest : List Char} {ls : List (List Char)} :
      '\n' ∉ line → WritesLines ls rest → WritesLines (line :: ls) (line ++ '\r' :: '\n' :: rest)

/-- Whether a text consists of some lines. -/
def HasLines (s : String) (ls : List String) : Prop :=
  WritesLines (ls.map String.toList) s.toList

/-- A character that does not end the line belongs to it. A carriage return does so unless a line
feed follows. -/
theorem splitLine_cons {c : Char} {cs : List Char} (hFeed : c ≠ '\n')
    (hReturn : c = '\r' → cs.head? ≠ some '\n') :
    splitLine (c :: cs) = (c :: (splitLine cs).1, (splitLine cs).2) := by
  rw [splitLine]
  · exact hFeed
  · rintro rest hc rfl
    exact hReturn hc rfl

/-- A line goes on until its end. Its last character may be a carriage return, which must not meet a
line feed. -/
theorem splitLine_append {line rest : List Char} (hFeed : '\n' ∉ line)
    (hReturn : line.getLast? = some '\r' → rest.head? ≠ some '\n') :
    splitLine (line ++ rest) = (line ++ (splitLine rest).1, (splitLine rest).2) := by
  induction line with
  | nil => rfl
  | cons c line ih =>
      obtain ⟨hHead, hTail⟩ := List.ne_and_not_mem_of_not_mem_cons hFeed
      have hNext : c = '\r' → (line ++ rest).head? ≠ some '\n' := by
        rintro rfl
        cases line with
        | nil => exact hReturn rfl
        | cons d line => simpa [eq_comm] using (List.ne_and_not_mem_of_not_mem_cons hTail).1
      have hRest : line.getLast? = some '\r' → rest.head? ≠ some '\n' := fun hLast =>
        hReturn (by rw [List.getLast?_cons, hLast, Option.getD_some])
      rw [List.cons_append, splitLine_cons (Ne.symm hHead) hNext, ih hTail hRest]
      rfl

/-- A line ends at its first line feed. -/
theorem splitLine_feed {line : List Char} (hFeed : '\n' ∉ line)
    (hReturn : line.getLast? ≠ some '\r') (rest : List Char) :
    splitLine (line ++ '\n' :: rest) = (line, rest) := by
  rw [splitLine_append hFeed fun hLast => absurd hLast hReturn, splitLine, List.append_nil]

theorem splitLine_returnFeed {line : List Char} (hFeed : '\n' ∉ line) (rest : List Char) :
    splitLine (line ++ '\r' :: '\n' :: rest) = (line, rest) := by
  rw [splitLine_append hFeed fun _ => by simp, splitLine, List.append_nil]

theorem splitLine_last {line : List Char} (hFeed : '\n' ∉ line) : splitLine line = (line, []) := by
  have hSplit : splitLine (line ++ []) = _ := splitLine_append hFeed nofun
  rwa [List.append_nil, splitLine, List.append_nil] at hSplit

theorem splitLines_of_ne_nil {cs : List Char} (h : cs ≠ []) :
    splitLines cs = (splitLine cs).1 :: splitLines (splitLine cs).2 := by
  obtain ⟨c, rest, rfl⟩ := List.exists_cons_of_ne_nil h
  rw [splitLines]

/-- Lines that are written are read back. -/
theorem WritesLines.splitLines_eq {ls : List (List Char)} {cs : List Char} (h : WritesLines ls cs) :
    splitLines cs = ls := by
  induction h with
  | nil => rw [splitLines]
  | last hFeed hSome => rw [splitLines_of_ne_nil hSome, splitLine_last hFeed, splitLines]
  | feed hFeed hReturn _ ih =>
      rw [splitLines_of_ne_nil (by simp), splitLine_feed hFeed hReturn, ih]
  | returnFeed hFeed _ ih => rw [splitLines_of_ne_nil (by simp), splitLine_returnFeed hFeed, ih]

/-- What is split off a text is its first line, whatever the end of that line is. -/
theorem WritesLines.cons_splitLine {ls : List (List Char)} {cs : List Char} (hSome : cs ≠ [])
    (h : WritesLines ls (splitLine cs).2) : WritesLines ((splitLine cs).1 :: ls) cs := by
  by_cases hFeed : '\n' ∈ cs
  · obtain ⟨before, rest, rfl, hBefore⟩ := List.eq_append_cons_of_mem hFeed
    by_cases hReturn : before.getLast? = some '\r'
    · obtain ⟨line, rfl⟩ := List.getLast?_eq_some_iff.mp hReturn
      have hLine : '\n' ∉ line := fun hMem => hBefore (List.mem_append_left _ hMem)
      rw [List.append_assoc, List.singleton_append, splitLine_returnFeed hLine] at h ⊢
      exact .returnFeed hLine h
    · rw [splitLine_feed hBefore hReturn] at h ⊢
      exact .feed hBefore hReturn h
  · rw [splitLine_last hFeed] at h ⊢
    obtain rfl : [] = ls := by rw [← h.splitLines_eq, splitLines]
    exact .last hFeed hSome

/-- Every text is written by the lines that are read from it. -/
theorem writesLines_splitLines (cs : List Char) : WritesLines (splitLines cs) cs := by
  fun_induction splitLines cs with
  | case1 => exact .nil
  | case2 c cs ih => exact ih.cons_splitLine (List.cons_ne_nil c cs)

/-- Every text consists of exactly one list of lines. -/
theorem lines_eq_iff {s : String} {ls : List String} : lines s = ls ↔ HasLines s ls := by
  constructor
  · rintro rfl
    rw [HasLines, lines, List.map_map, String.toList_comp_ofList, List.map_id]
    exact writesLines_splitLines s.toList
  · intro h
    rw [lines, h.splitLines_eq, List.map_map, String.ofList_comp_toList, List.map_id]

end Written

/-- Whether no line ends within some characters, and none of them belongs to a line end. -/
def Inline (cs : List Char) : Prop :=
  ∀ c ∈ cs, c ≠ '\n' ∧ c ≠ '\r'

-- an instance that looks at all characters there are could be found instead
instance (cs : List Char) : Decidable (Inline cs) :=
  List.decidableBAll (fun c => c ≠ '\n' ∧ c ≠ '\r') cs

theorem inline_append {cs more : List Char} : Inline (cs ++ more) ↔ Inline cs ∧ Inline more :=
  List.forall_mem_append

theorem inline_cons {c : Char} {cs : List Char} :
    Inline (c :: cs) ↔ (c ≠ '\n' ∧ c ≠ '\r') ∧ Inline cs :=
  List.forall_mem_cons

/-- Whether a text is a line. -/
def IsLine (s : String) : Prop :=
  Inline s.toList

instance (s : String) : Decidable (IsLine s) :=
  inferInstanceAs (Decidable (Inline s.toList))

theorem isLine_ofList {cs : List Char} : IsLine (String.ofList cs) ↔ Inline cs := by
  rw [IsLine, String.toList_ofList]

theorem isLine_append {s t : String} : IsLine (s ++ t) ↔ IsLine s ∧ IsLine t := by
  rw [IsLine, String.toList_append]
  exact inline_append

/-- Lines that are joined by lines are a line. -/
theorem isLine_intercalate {sep : String} (hSep : IsLine sep) {parts : List String}
    (h : ∀ s ∈ parts, IsLine s) : IsLine (String.intercalate sep parts) := by
  induction parts with
  | nil => exact List.forall_mem_nil _
  | cons first rest ih =>
      obtain ⟨hFirst, hRest⟩ := List.forall_mem_cons.mp h
      cases rest with
      | nil => simpa using hFirst
      | cons second rest =>
          rw [String.intercalate_cons_cons]
          exact isLine_append.mpr ⟨isLine_append.mpr ⟨hFirst, hSep⟩, ih hRest⟩

/-- Some lines as one text, with an end for each. -/
def ofLines (ls : List String) : String :=
  String.join (ls.map (· ++ "\n"))

@[simp] theorem ofLines_nil : ofLines [] = "" := rfl

theorem ofLines_append (ls more : List String) :
    ofLines (ls ++ more) = ofLines ls ++ ofLines more := by
  rw [ofLines, List.map_append, ← String.toList_inj]
  simp [ofLines]

/-- Lines that each got an end make a text of these lines. -/
theorem hasLines_ofLines {ls : List String} (h : ∀ l ∈ ls, IsLine l) : HasLines (ofLines ls) ls := by
  induction ls with
  | nil => exact .nil
  | cons l rest ih =>
      obtain ⟨hLine, hRest⟩ := List.forall_mem_cons.mp h
      have hFeed : '\n' ∉ l.toList := fun hMem => (hLine _ hMem).1 rfl
      have hReturn : l.toList.getLast? ≠ some '\r' := fun hLast =>
        (hLine _ (List.mem_of_getLast? hLast)).2 rfl
      have hText : (ofLines (l :: rest)).toList = l.toList ++ '\n' :: (ofLines rest).toList := by
        simp [ofLines]
      rw [HasLines, hText]
      exact .feed hFeed hReturn (ih hRest)

/-- Lines that are written one below the other are read back. -/
theorem lines_ofLines {ls : List String} (h : ∀ l ∈ ls, IsLine l) : lines (ofLines ls) = ls :=
  lines_eq_iff.mpr (hasLines_ofLines h)

end FlowAudit.Text
