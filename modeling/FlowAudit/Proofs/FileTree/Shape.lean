import FlowAudit.Proofs.Distinct
import FlowAudit.Proofs.FileTree
/-!
Trees that differ in the contents of their files only. The same ways lead through both, and their
directories hold the same names. Files that exist can be written one after the other, and what comes
out has the shape of the tree before.
-/
namespace FlowAudit.FileTree

/-- The locations of all nodes that a tree holds itself. -/
def locations (t : FileTree) : List Location :=
  t.nodes.map Prod.fst

/-- The names of what a tree holds right below a location. -/
def children (t : FileTree) (l : Location) : List String :=
  t.nodes.filterMap fun entry =>
    match entry.1.getLast? with
    | some name => if entry.1.dropLast = l then some name else none
    | none => none

/-- Children are the known locations right below a directory, each with its last name. -/
theorem mem_children {t : FileTree} {l : Location} {name : String} :
    name ∈ t.children l ↔ l ++ [name] ∈ t.locations := by
  simp only [children, locations, List.mem_filterMap, List.mem_map]
  refine exists_congr fun entry => and_congr_right fun _ => ?_
  rcases List.eq_nil_or_concat entry.1 with hNil | ⟨init, last, hLast⟩
  · simp [hNil]
  · simp [hLast, and_comm]

/-- A directory is listed by the ascending names of what it holds. -/
theorem names_eq_ok_iff {t : FileTree} {path : String} {names : List String} :
    t.names path = .ok names ↔ ∃ l, t.locate path = .ok l ∧ t.node? l = some .directory ∧
      ascending (t.children l) = names := by
  refine bind_eq_ok_iff.trans (exists_congr fun l => and_congr_right fun _ => ?_)
  cases t.node? l with
  | none => simp [throw_ne_ok]
  | some node =>
      cases node with
      | directory =>
          simp only [true_and]
          exact pure_eq_ok_iff
      | file => simp [throw_ne_ok]
      | sink => simp [throw_ne_ok]

/-- Whether two trees hold the same locations, and what stands there differs in the content of a
file at most. -/
structure SameShape (t t' : FileTree) : Prop where
  locations : ∀ l, l ∈ t'.locations ↔ l ∈ t.locations
  nodes : ∀ l, t'.node? l = t.node? l ∨
    ∃ old new, t.node? l = some (.file old) ∧ t'.node? l = some (.file new)

namespace SameShape

variable {t t' t'' : FileTree}

theorem refl (t : FileTree) : t.SameShape t :=
  ⟨fun _ => Iff.rfl, fun _ => .inl rfl⟩

theorem trans (h : t.SameShape t') (h' : t'.SameShape t'') : t.SameShape t'' := by
  refine ⟨fun l => (h'.locations l).trans (h.locations l), fun l => ?_⟩
  rcases h.nodes l with hSame | ⟨old, new, hOld, hNew⟩ <;>
    rcases h'.nodes l with hSame' | ⟨old', new', hOld', hNew'⟩
  · exact .inl (hSame'.trans hSame)
  · exact .inr ⟨old', new', hSame ▸ hOld', hNew'⟩
  · exact .inr ⟨old, new, hOld, hSame' ▸ hNew⟩
  · exact .inr ⟨old, new', hOld, hNew'⟩

theorem symm (h : t.SameShape t') : t'.SameShape t := by
  refine ⟨fun l => (h.locations l).symm, fun l => ?_⟩
  rcases h.nodes l with hSame | ⟨old, new, hOld, hNew⟩
  · exact .inl hSame.symm
  · exact .inr ⟨new, old, hNew, hOld⟩

variable (h : t.SameShape t')

include h

theorem exists_file {l : Location} (hFile : ∃ text, t.node? l = some (.file text)) :
    ∃ text, t'.node? l = some (.file text) := by
  rcases h.nodes l with hSame | ⟨_, new, _, hNew⟩
  · rwa [hSame]
  · exact ⟨new, hNew⟩

theorem directory_iff {l : Location} :
    t'.node? l = some .directory ↔ t.node? l = some .directory := by
  rcases h.nodes l with hSame | ⟨_, _, hOld, hNew⟩
  · rw [hSame]
  · simp [hOld, hNew]

/-- The same ways lead through both trees, and the same ones end. -/
theorem walk_eq (l : Location) (names : List String) : t'.walk l names = t.walk l names := by
  induction names generalizing l with
  | nil => rfl
  | cons name rest ih =>
      rw [walk, walk]
      rcases h.nodes l with hSame | ⟨_, _, hOld, hNew⟩
      · rw [hSame]
        cases t.node? l with
        | none => rfl
        | some node => cases node <;> first | exact ih _ | rfl
      · rw [hOld, hNew]

theorem locate_eq (path : String) : t'.locate path = t.locate path := by
  rw [locate, locate, h.walk_eq]

theorem names_eq_ok_iff {path : String} {names : List String} :
    t'.names path = .ok names ↔ t.names path = .ok names := by
  have hChildren : ∀ l, ascending (t'.children l) = ascending (t.children l) := by
    intro l
    refine ascending_congr fun name => ?_
    rw [mem_children, mem_children, h.locations]
  simp only [FileTree.names_eq_ok_iff, h.locate_eq, h.directory_iff, hChildren]

/-- Files stay files. -/
theorem exists_find_file {path : String} (hFile : ∃ text, t.find path = .ok (.file text)) :
    ∃ text, t'.find path = .ok (.file text) := by
  obtain ⟨text, hFind⟩ := hFile
  obtain ⟨l, hLocate, hNode, hEnd⟩ := find_eq_file_iff.mp hFind
  obtain ⟨new, hNew⟩ := h.exists_file ⟨text, hNode⟩
  exact ⟨new, find_eq_file_iff.mpr ⟨l, (h.locate_eq path).trans hLocate, hNew, hEnd⟩⟩

/-- Where the same node stands, the same thing is found. -/
theorem find_eq {path : String} (hNode : ∀ l, t.locate path = .ok l → t'.node? l = t.node? l) :
    t'.find path = t.find path := by
  rw [find, find, h.locate_eq]
  cases hLocate : t.locate path with
  | error e => rfl
  | ok l => rw [ok_bind, ok_bind, hNode l hLocate]

end SameShape

/-- A file is something that the tree itself holds. The standard nodes are no files. -/
theorem mem_locations_of_file {t : FileTree} {l : Location} {text : String}
    (h : t.node? l = some (.file text)) : l ∈ t.locations := by
  have hStandard : l.standardNode? ≠ some (.file text) := by
    rw [Location.standardNode?]
    split
    · simp
    · split <;> simp
  have hLookup : (t.nodes.lookup l).isSome := by
    cases hOwn : t.nodes.lookup l with
    | some node => rfl
    | none =>
        rw [node?, hOwn] at h
        exact absurd h hStandard
  obtain ⟨entry, hEntry, hEq⟩ := List.lookup_isSome_iff.mp hLookup
  exact List.mem_map.mpr ⟨entry, hEntry, (eq_of_beq hEq).symm⟩

/-- Writing a file anew changes its content only. -/
theorem sameShape_put {t : FileTree} {l : Location} {old : String}
    (h : t.node? l = some (.file old)) (new : String) : t.SameShape (t.put l (.file new)) := by
  constructor
  · intro m
    have hHeld := mem_locations_of_file h
    by_cases hEq : m = l
    · subst hEq
      exact iff_of_true (List.mem_cons_self ..) hHeld
    · simp [locations, put, hEq]
  · intro m
    rw [node?_put]
    by_cases hEq : m = l
    · rw [if_pos hEq, hEq]
      exact .inr ⟨old, new, h, rfl⟩
    · exact .inl (if_neg hEq)

/-- Puts files with contents at locations, one after the other. -/
def putFiles (t : FileTree) (files : List (Location × String)) : FileTree :=
  files.foldl (fun t file => t.put file.1 (.file file.2)) t

section PutFiles

variable {t : FileTree} {files : List (Location × String)}

/-- The nodes after several files have been put, as long as no location is put twice. -/
theorem nodes_putFiles (h : (files.map Prod.fst).Nodup) :
    (t.putFiles files).nodes =
      (files.map fun file => (file.1, FileNode.file file.2)).reverse ++
        t.nodes.filter fun entry => entry.1 ∉ files.map Prod.fst := by
  induction files generalizing t with
  | nil => simp [putFiles]
  | cons file rest ih =>
      obtain ⟨hFresh, hRest⟩ := List.nodup_cons.mp h
      change ((t.put file.1 (.file file.2)).putFiles rest).nodes = _
      rw [ih hRest, put, List.filter_cons_of_pos (by simpa using hFresh), List.filter_filter,
        List.map_cons, List.reverse_cons, List.append_assoc, List.singleton_append]
      refine congrArg (_ ++ _ :: ·) (List.filter_congr fun other _ => ?_)
      rw [Bool.eq_iff_iff]
      simp only [Bool.and_eq_true, decide_eq_true_iff, bne_iff_ne, List.map_cons, List.mem_cons,
        not_or, ne_eq, and_comm]

/-- Putting the same files once more changes nothing, not even the order of the nodes. -/
theorem putFiles_putFiles (h : (files.map Prod.fst).Nodup) :
    (t.putFiles files).putFiles files = t.putFiles files := by
  have hReplaced : ((files.map fun file => (file.1, FileNode.file file.2)).reverse.filter
      fun entry => entry.1 ∉ files.map Prod.fst) = [] := by
    rw [List.filter_eq_nil_iff]
    rintro ⟨l, node⟩ hEntry
    obtain ⟨file, hFile, hEq⟩ := List.mem_map.mp (List.mem_reverse.mp hEntry)
    simpa [← (Prod.mk.inj hEq).1] using ⟨file.2, hFile⟩
  have hNodes : ((t.putFiles files).putFiles files).nodes = (t.putFiles files).nodes := by
    rw [nodes_putFiles h, nodes_putFiles h, List.filter_append, List.filter_filter, hReplaced]
    simp
  exact congrArg FileTree.mk hNodes

/-- Locations of no new file keep their nodes. -/
theorem node?_putFiles_of_notMem {l : Location} (h : l ∉ files.map Prod.fst) :
    (t.putFiles files).node? l = t.node? l := by
  induction files generalizing t with
  | nil => rfl
  | cons file rest ih =>
      obtain ⟨hNe, hRest⟩ := not_or.mp (mt List.mem_cons.mpr h)
      change ((t.put file.1 (.file file.2)).putFiles rest).node? l = _
      rw [ih hRest, node?_put, if_neg hNe]

/-- Each new file is at its location, whatever was put afterwards. -/
theorem node?_putFiles_of_mem (h : (files.map Prod.fst).Nodup) {file : Location × String}
    (hMem : file ∈ files) : (t.putFiles files).node? file.1 = some (.file file.2) := by
  induction files generalizing t with
  | nil => cases hMem
  | cons first rest ih =>
      obtain ⟨hFresh, hRest⟩ := List.nodup_cons.mp h
      rcases List.mem_cons.mp hMem with rfl | hMem
      · change ((t.put _ _).putFiles rest).node? _ = _
        rw [node?_putFiles_of_notMem hFresh, node?_put, if_pos rfl]
      · exact ih hRest hMem

/-- Writing files anew changes their contents only. -/
theorem sameShape_putFiles (h : ∀ file ∈ files, ∃ old, t.node? file.1 = some (.file old)) :
    t.SameShape (t.putFiles files) := by
  induction files generalizing t with
  | nil => exact SameShape.refl t
  | cons file rest ih =>
      obtain ⟨⟨old, hOld⟩, hRest⟩ := List.forall_mem_cons.mp h
      have hFirst := sameShape_put hOld file.2
      exact hFirst.trans (ih fun other hOther => hFirst.exists_file (hRest other hOther))

end PutFiles

end FlowAudit.FileTree
