import FlowAudit.FileTree
import FlowAudit.Proofs.Traversal
/-!
What was written at a path is read back from it. Writing replaces a node that is no directory, so
all ways, which lead through directories, stay the same, and so does everything at other places.
-/
namespace FlowAudit.FileTree

theorem lookup_filter_ne {l m : Location} (h : m ≠ l) (nodes : List (Location × FileNode)) :
    (nodes.filter fun entry => entry.1 != l).lookup m = nodes.lookup m := by
  induction nodes with
  | nil => rfl
  | cons entry rest ih =>
      obtain ⟨k, node⟩ := entry
      by_cases hEntry : k = l
      · have hOther : (m == k) = false := by simp [hEntry, h]
        rw [List.filter_cons_of_neg (by simp [hEntry]), ih, List.lookup_cons, hOther]
      · rw [List.filter_cons_of_pos (by simp [hEntry]), List.lookup_cons, List.lookup_cons, ih]

/-- Only the location that is written changes. -/
theorem node?_put (t : FileTree) (l m : Location) (n : FileNode) :
    (t.put l n).node? m = if m = l then some n else t.node? m := by
  by_cases h : m = l
  · simp [node?, put, h]
  · have hOther : (m == l) = false := by simp [h]
    simp only [node?, put, List.lookup_cons, hOther, lookup_filter_ne h, if_neg h]

theorem walk_cons_eq_ok_iff {t : FileTree} {start finish : Location} {name : String}
    {rest : List String} :
    t.walk start (name :: rest) = .ok finish ↔
      t.node? start = some .directory ∧ t.walk (start.enter name) rest = .ok finish := by
  rw [walk]
  cases t.node? start with
  | none => simp
  | some node => cases node <;> simp

/-- Replacing a node that is no directory by another one opens no way and closes none. -/
theorem walk_put_eq_ok_iff {t : FileTree} {l : Location} {n : FileNode}
    (hOld : t.node? l ≠ some .directory) (hNew : n ≠ .directory) {names : List String}
    {start finish : Location} :
    (t.put l n).walk start names = .ok finish ↔ t.walk start names = .ok finish := by
  induction names generalizing start with
  | nil => exact Iff.rfl
  | cons name rest ih =>
      rw [walk_cons_eq_ok_iff, walk_cons_eq_ok_iff, ih, node?_put]
      refine and_congr_left fun _ => ?_
      by_cases hStart : start = l
      · rw [if_pos hStart, hStart]
        exact iff_of_false (fun h => hNew (Option.some.inj h)) hOld
      · rw [if_neg hStart]

/-- Paths lead where they led before, because a file is neither put in place of a directory nor
becomes one. -/
theorem locate_put_eq_ok_iff {t : FileTree} {l : Location} {n : FileNode}
    (hOld : t.node? l ≠ some .directory) (hNew : n ≠ .directory) {path : String} {m : Location} :
    (t.put l n).locate path = .ok m ↔ t.locate path = .ok m := by
  rw [locate, locate]
  split
  · exact Iff.rfl
  · exact walk_put_eq_ok_iff hOld hNew

/-- All that writing can do to a tree. -/
theorem write_eq_ok_iff {t t' : FileTree} {path content : String} :
    t.write path content = .ok t' ↔ ∃ l, t.locate path = .ok l ∧ path.endsWith "/" = false ∧
      t.node? l ≠ some .directory ∧
      t' = if t.node? l = some .sink then t else t.put l (.file content) := by
  refine bind_eq_ok_iff.trans (exists_congr fun l => and_congr_right fun _ => ?_)
  by_cases hRefused : path.endsWith "/" = true ∨ t.node? l = some .directory
  · simp only [hRefused, if_true]
    refine iff_of_false (fun h => by cases h) ?_
    rintro ⟨hSlash, hNode, _⟩
    rcases hRefused with h | h
    · exact Bool.false_ne_true (hSlash.symm.trans h)
    · exact hNode h
  · simp only [hRefused, if_false]
    obtain ⟨hSlash, hNode⟩ := not_or.mp hRefused
    rw [Bool.not_eq_true] at hSlash
    simp only [hSlash, hNode, ne_eq, not_false_eq_true, true_and]
    exact ⟨fun h => (Except.ok.inj h).symm, fun h => h ▸ rfl⟩

/-- Writing opens no way and closes none. -/
theorem locate_write {t t' : FileTree} {path content : String} (h : t.write path content = .ok t')
    {other : String} {m : Location} : t'.locate other = .ok m ↔ t.locate other = .ok m := by
  obtain ⟨l, _, _, hNode, rfl⟩ := write_eq_ok_iff.mp h
  split
  · exact Iff.rfl
  · exact locate_put_eq_ok_iff hNode (by simp)

/-- Only the node that a path leads to is changed. -/
theorem node?_write {t t' : FileTree} {path content : String} (h : t.write path content = .ok t')
    {m : Location} (hOther : t.locate path ≠ .ok m) : t'.node? m = t.node? m := by
  obtain ⟨l, hLocate, _, _, rfl⟩ := write_eq_ok_iff.mp h
  have hNe : m ≠ l := fun hEq => hOther (hEq ▸ hLocate)
  split
  · rfl
  · rw [node?_put, if_neg hNe]

theorem find_congr {t t' : FileTree} {path : String} {l : Location} (h : t.locate path = .ok l)
    (h' : t'.locate path = .ok l) (hNode : t'.node? l = t.node? l) :
    t'.find path = t.find path := by
  simp only [find, h, h', ok_bind, hNode]

/-- A file is found under each path to its location that does not end with a slash. -/
theorem find_eq_file_iff {t : FileTree} {path content : String} :
    t.find path = .ok (.file content) ↔ ∃ l, t.locate path = .ok l ∧
      t.node? l = some (.file content) ∧ path.endsWith "/" = false := by
  refine bind_eq_ok_iff.trans (exists_congr fun l => and_congr_right fun _ => ?_)
  cases t.node? l with
  | none => simp [throw_ne_ok]
  | some node => cases node <;> cases path.endsWith "/" <;> simp [pure_eq_ok_iff, throw_ne_ok]

theorem read_congr {t t' : FileTree} {path : String} (h : t'.find path = t.find path) :
    t'.read path = t.read path := by
  rw [read, read, h]

theorem hasPath_congr {t t' : FileTree} {path : String} (h : t'.find path = t.find path) :
    t'.hasPath path = t.hasPath path := by
  rw [hasPath, hasPath, h]

/-- A path that could be written leads to what was written, unless it leads to a sink. -/
theorem find_write {t t' : FileTree} {path content : String} (h : t.write path content = .ok t') :
    t'.find path = .ok (.file content) ∨ t.find path = .ok .sink ∧ t'.find path = .ok .sink := by
  obtain ⟨l, hLocate, hSlash, hNode, hTree⟩ := write_eq_ok_iff.mp h
  have hAfter := (locate_write h).mpr hLocate
  by_cases hSink : t.node? l = some .sink
  · right
    rw [if_pos hSink] at hTree
    subst hTree
    simp only [find, hLocate, ok_bind, hSink, hSlash]
    exact ⟨rfl, rfl⟩
  · left
    rw [if_neg hSink] at hTree
    subst hTree
    simp only [find, hAfter, ok_bind, node?_put, if_true, hSlash]
    rfl

/-- What has been written is read back, except from a sink. -/
theorem read_write {t t' : FileTree} {path content : String} (h : t.write path content = .ok t')
    (hSink : t'.find path ≠ .ok .sink) : t'.read path = .ok content := by
  have hFile := (find_write h).resolve_right fun hs => hSink hs.2
  rw [read, hFile]
  rfl

theorem hasPath_of_read {t : FileTree} {path text : String} (h : t.read path = .ok text) :
    t.hasPath path = true := by
  obtain ⟨node, hFind, _⟩ := bind_eq_ok_iff.mp h
  rw [hasPath, hFind]
  rfl

theorem ne_empty_of_locate {t : FileTree} {path : String} {l : Location}
    (h : t.locate path = .ok l) : path ≠ "" := by
  rintro rfl
  cases h

theorem ne_empty_of_read {t : FileTree} {path text : String} (h : t.read path = .ok text) :
    path ≠ "" := by
  obtain ⟨_, hFind, _⟩ := bind_eq_ok_iff.mp h
  obtain ⟨_, hLocate, _⟩ := bind_eq_ok_iff.mp hFind
  exact ne_empty_of_locate hLocate

/-- Whether any text can be written at a path. -/
def Writable (t : FileTree) (path : String) : Prop :=
  ∀ text, ∃ t', t.write path text = .ok t'

/-- A path can be written iff it leads to a place for a file: the directories on the way exist, and
it does not name a directory itself. -/
theorem writable_iff {t : FileTree} {path : String} :
    t.Writable path ↔
      ∃ l, t.locate path = .ok l ∧ path.endsWith "/" = false ∧ t.node? l ≠ some .directory := by
  simp only [Writable, write_eq_ok_iff]
  constructor
  · intro h
    obtain ⟨_, l, hLocate, hSlash, hNode, _⟩ := h ""
    exact ⟨l, hLocate, hSlash, hNode⟩
  · rintro ⟨l, hLocate, hSlash, hNode⟩ text
    exact ⟨_, l, hLocate, hSlash, hNode, rfl⟩

/-- Where one text can be written, every text can. -/
theorem writable_of_write {t t' : FileTree} {path text : String} (h : t.write path text = .ok t') :
    t.Writable path := by
  obtain ⟨l, hLocate, hSlash, hNode, _⟩ := write_eq_ok_iff.mp h
  exact writable_iff.mpr ⟨l, hLocate, hSlash, hNode⟩

theorem Writable.ne_empty {t : FileTree} {path : String} (h : t.Writable path) : path ≠ "" := by
  obtain ⟨_, hLocate, _⟩ := writable_iff.mp h
  exact ne_empty_of_locate hLocate

/-- The second tree is the first one after texts were stored at paths. A sink keeps none of them,
and everything else stays as it was. -/
structure Stores (t : FileTree) (texts : List (String × String)) (t' : FileTree) : Prop where
  stored : ∀ entry ∈ texts, t'.find entry.1 = .ok (.file entry.2) ∨
    t.find entry.1 = .ok .sink ∧ t'.find entry.1 = .ok .sink
  others : ∀ l, (∀ entry ∈ texts, t.locate entry.1 ≠ .ok l) → t'.node? l = t.node? l
  ways : ∀ path l, t'.locate path = .ok l ↔ t.locate path = .ok l

/-- Whether two paths lead to different places. -/
def Apart (t : FileTree) (path other : String) : Prop :=
  ∀ l, t.locate path = .ok l → t.locate other ≠ .ok l

theorem stores_nil (t : FileTree) : t.Stores [] t where
  stored := List.forall_mem_nil _
  others _ _ := rfl
  ways _ _ := Iff.rfl

/-- Writing one more text keeps those at other places. -/
theorem Stores.write {t t' t'' : FileTree} {texts : List (String × String)}
    (h : t.Stores texts t') {path content : String} (hWrite : t'.write path content = .ok t'')
    (hApart : ∀ entry ∈ texts, t.Apart entry.1 path) :
    t.Stores (texts ++ [(path, content)]) t'' := by
  have hElsewhere : ∀ l, t.locate path ≠ .ok l → t''.node? l = t'.node? l :=
    fun l hl => node?_write hWrite fun hEq => hl ((h.ways _ _).mp hEq)
  constructor
  · intro entry hEntry
    rcases List.mem_append.mp hEntry with hOld | hNew
    · have hFound : ∃ l, t'.locate entry.1 = .ok l := by
        rcases h.stored entry hOld with hFind | ⟨_, hFind⟩
        · exact (bind_eq_ok_iff.mp hFind).imp fun _ => And.left
        · exact (bind_eq_ok_iff.mp hFind).imp fun _ => And.left
      obtain ⟨l, hLocate⟩ := hFound
      have hSame := hElsewhere l (hApart entry hOld l ((h.ways _ _).mp hLocate))
      rw [find_congr hLocate ((locate_write hWrite).mpr hLocate) hSame]
      exact h.stored entry hOld
    · cases List.mem_singleton.mp hNew
      obtain ⟨l, hLocate, _⟩ := write_eq_ok_iff.mp hWrite
      have hBefore := (h.ways _ _).mp hLocate
      have hSame := h.others l fun entry hEntry hEq => hApart entry hEntry l hEq hBefore
      rw [← find_congr hBefore hLocate hSame]
      exact find_write hWrite
  · intro l hl
    rw [hElsewhere l (hl (path, content) (by simp))]
    exact h.others l fun entry hEntry => hl entry (List.mem_append_left _ hEntry)
  · intro other l
    rw [locate_write hWrite, h.ways]

/-- No path becomes a directory by storing texts. -/
theorem Stores.writable {t t' : FileTree} {texts : List (String × String)} (h : t.Stores texts t')
    {path : String} (hPath : t.Writable path) : t'.Writable path := by
  obtain ⟨l, hLocate, hSlash, hNode⟩ := writable_iff.mp hPath
  refine writable_iff.mpr ⟨l, (h.ways _ _).mpr hLocate, hSlash, fun hDirectory => ?_⟩
  by_cases hStored : ∃ entry ∈ texts, t.locate entry.1 = .ok l
  · obtain ⟨entry, hEntry, hEq⟩ := hStored
    have hFind : t'.find entry.1 = .ok .directory := by
      simp only [find, (h.ways _ _).mpr hEq, ok_bind, hDirectory]
      rfl
    rcases h.stored entry hEntry with hFile | ⟨_, hSink⟩
    · simp [hFind] at hFile
    · simp [hFind] at hSink
  · refine hNode (h.others l (fun entry hEntry hEq => ?_) ▸ hDirectory)
    exact hStored ⟨entry, hEntry, hEq⟩

end FlowAudit.FileTree
