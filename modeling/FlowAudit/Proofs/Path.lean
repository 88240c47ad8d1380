import FlowAudit.Proofs.FileTree
import Mathlib.Data.String.Basic
/-!
Paths as texts. A path is split at its slashes. A plain name has none, so it leads right below the
directory that it is joined to, and right below the root if it stands alone.
-/
namespace FlowAudit

open String

/-- Splitting goes on behind what has been read of a component. -/
theorem splitOnAux_slash (before name rest : List Char) (done : List String) :
    splitOnAux (ofList (before ++ name ++ rest)) "/" ⟨utf8Len before⟩
        ⟨utf8Len before + utf8Len name⟩ 0 done =
      done.reverse ++ (List.splitOnPPrepend (· == '/') rest name.reverse).map ofList := by
  -- The separator is a single character, so its position is zero again before each step.
  induction rest generalizing before name done with
  | nil =>
      have hEnd : Pos.Raw.atEnd (ofList (before ++ name ++ []))
          ⟨utf8Len before + utf8Len name⟩ = true := by
        simpa using (atEnd_of_valid (before ++ name) []).mpr rfl
      rw [splitOnAux, if_pos hEnd, extract_of_valid]
      simp
  | cons c rest ih =>
      have hEnd : ¬Pos.Raw.atEnd (ofList (before ++ name ++ c :: rest))
          ⟨utf8Len before + utf8Len name⟩ = true := by
        simpa [-ofList_append] using (atEnd_of_valid (before ++ name) (c :: rest)).not
      have hGet : Pos.Raw.get (ofList (before ++ name ++ c :: rest))
          ⟨utf8Len before + utf8Len name⟩ = c := by
        simpa [-ofList_append] using get_of_valid (before ++ name) (c :: rest)
      have hNext : Pos.Raw.next (ofList (before ++ name ++ c :: rest))
          ⟨utf8Len before + utf8Len name⟩ = ⟨utf8Len before + utf8Len name + c.utf8Size⟩ := by
        simpa [-ofList_append] using next_of_valid (before ++ name) c rest
      have hSlash : Pos.Raw.get "/" 0 = '/' := by decide +kernel
      rw [splitOnAux, if_neg hEnd, hGet, hSlash, List.splitOnPPrepend_cons_eq_if]
      by_cases h : (c == '/') = true
      · have hOne : Pos.Raw.next "/" 0 = ⟨'/'.utf8Size⟩ := by decide +kernel
        have hLast : Pos.Raw.atEnd "/" (Pos.Raw.next "/" 0) = true := by decide +kernel
        have hBack : (Pos.Raw.mk (utf8Len before + utf8Len name + c.utf8Size)).unoffsetBy
            (Pos.Raw.next "/" 0) = ⟨utf8Len before + utf8Len name⟩ := by
          rw [hOne, eq_of_beq h]
          simp [Pos.Raw.unoffsetBy]
        simp only [if_pos h, hNext, if_pos hLast, hBack, extract_of_valid]
        have hRest := ih (before ++ name ++ [c]) [] (ofList name :: done)
        simpa [-ofList_append, Nat.add_assoc] using hRest
      · have hStay : (Pos.Raw.mk (utf8Len before + utf8Len name)).unoffsetBy 0 =
            ⟨utf8Len before + utf8Len name⟩ := rfl
        rw [if_neg h, hStay, hNext, if_neg h]
        simpa [-ofList_append, Nat.add_assoc] using ih before (name ++ [c]) done

/-- A text is split like its characters. -/
theorem splitOn_slash (path : String) :
    path.splitOn "/" = (path.toList.splitOnP (· == '/')).map ofList := by
  have hAll := splitOnAux_slash [] [] path.toList []
  rw [splitOn, if_neg (by decide)]
  simpa using hAll

theorem joinPath_empty (name : String) : joinPath "" name = name := by
  simp [joinPath]

theorem endsWith_slash_iff {path : String} : path.endsWith "/" ↔ ['/'] <:+ path.toList := by
  rw [endsWith_eq_endsWith_toSlice, Slice.endsWith_string_iff, copy_toSlice]
  exact Iff.rfl

theorem startsWith_slash_iff {path : String} : path.startsWith "/" ↔ ['/'] <+: path.toList :=
  startsWith_string_iff

namespace FileTree

/-- A slash between two paths ends a component. -/
theorem components_append (path more : String) :
    components (path ++ "/" ++ more) = components path ++ components more := by
  have hText : (path ++ "/" ++ more).toList = path.toList ++ '/' :: more.toList := by simp
  simp only [components, splitOn_slash, hText]
  rw [List.splitOnP_append_cons _ _ rfl, List.map_append, List.filter_append]

@[simp] theorem components_empty : components "" = [] := by
  rw [components, splitOn_slash]
  rfl

/-- The empty path leads to the root. -/
theorem walk_empty (t : FileTree) : t.walk (origin "") (components "") = .ok [] := by
  rw [components_empty]
  rfl

/-- Where a path begins depends on nothing that is appended to it. -/
theorem origin_append {path : String} (h : path ≠ "") (more : String) :
    origin (path ++ more) = origin path := by
  have hSame : (path ++ more).startsWith "/" ↔ path.startsWith "/" := by
    rw [startsWith_slash_iff, startsWith_slash_iff, toList_append]
    cases hPath : path.toList with
    | nil => exact absurd (toList_eq_nil_iff.mp hPath) h
    | cons c rest => simp [List.cons_prefix_cons]
  simp only [origin, hSame]

/-- Names can be walked along in two parts. -/
theorem walk_append (t : FileTree) (l : Location) (names more : List String) :
    t.walk l (names ++ more) = t.walk l names >>= fun m => t.walk m more := by
  induction names generalizing l with
  | nil => rfl
  | cons name rest ih =>
      rw [List.cons_append, walk, walk]
      cases t.node? l with
      | none => rfl
      | some node => cases node <;> first | exact ih _ | rfl

/-- Whether a path is nothing but a name in the root. -/
structure IsPlainName (name : String) : Prop where
  nonempty : name ≠ ""
  noSlash : '/' ∉ name.toList
  noPoint : name ≠ "."
  noPoints : name ≠ ".."

instance (name : String) : Decidable (IsPlainName name) :=
  decidable_of_iff (name ≠ "" ∧ '/' ∉ name.toList ∧ name ≠ "." ∧ name ≠ "..")
    ⟨fun h => ⟨h.1, h.2.1, h.2.2.1, h.2.2.2⟩,
      fun h => ⟨h.nonempty, h.noSlash, h.noPoint, h.noPoints⟩⟩

namespace IsPlainName

variable {name : String} (h : IsPlainName name)

include h

/-- A plain name is its only component. -/
theorem components_eq : components name = [name] := by
  have hWhole : name.toList.splitOnP (· == '/') = [name.toList] := by
    apply List.splitOnP_eq_singleton
    intro c hc
    rw [beq_eq_false_iff_ne]
    rintro rfl
    exact h.noSlash hc
  rw [components, splitOn_slash, hWhole]
  simp [h.nonempty]

theorem not_startsWith : ¬name.startsWith "/" := by
  rw [startsWith_slash_iff]
  exact fun hPrefix => h.noSlash (hPrefix.subset (by simp))

theorem origin_eq : origin name = [] := by
  rw [origin, if_neg h.not_startsWith]

theorem endsWith_eq : name.endsWith "/" = false := by
  rw [← Bool.not_eq_true, endsWith_slash_iff]
  exact fun hSuffix => h.noSlash (hSuffix.subset (by simp))

/-- A name that is appended to a path is one more component at its end, whether or not the path ends
with a slash. -/
theorem components_join (directory : String) :
    components (joinPath directory name) = components directory ++ [name] := by
  rw [joinPath, if_neg h.not_startsWith]
  by_cases hEmpty : directory.isEmpty
  · rw [if_pos (.inl hEmpty), isEmpty_iff.mp hEmpty, empty_append, h.components_eq,
      components_empty, List.nil_append]
  by_cases hSlash : directory.endsWith "/"
  · -- the directory is itself a path and a slash, behind which nothing stands
    obtain ⟨before, hBefore⟩ := endsWith_slash_iff.mp hSlash
    have hDirectory : directory = ofList before ++ "/" := by
      rw [← toList_inj]
      simp [← hBefore]
    have hAgain : directory = ofList before ++ "/" ++ "" := by simp [hDirectory]
    rw [if_pos (.inr hSlash), hAgain, components_append, append_empty, components_append,
      h.components_eq, components_empty, List.append_nil]
  · rw [if_neg (not_or.mpr ⟨hEmpty, hSlash⟩), components_append, h.components_eq]

/-- A plain name behind a path does not change where the path begins. -/
theorem origin_join (directory : String) : origin (joinPath directory name) = origin directory := by
  rw [joinPath, if_neg h.not_startsWith]
  by_cases hEmpty : directory = ""
  · rw [hEmpty, if_pos (.inl rfl), empty_append, h.origin_eq]
    rfl
  · split
    · exact origin_append hEmpty name
    · rw [append_assoc, origin_append hEmpty]

/-- A path that ends with a plain name does not end with a slash. -/
theorem endsWith_join (directory : String) : (joinPath directory name).endsWith "/" = false := by
  have hEnd : ∀ before : String, (before ++ name).endsWith "/" = false := by
    intro before
    rw [← Bool.not_eq_true, endsWith_slash_iff, toList_append]
    rintro ⟨init, hInit⟩
    have hName : name.toList ≠ [] := fun hNil => h.nonempty (toList_eq_nil_iff.mp hNil)
    have hLast : (before.toList ++ name.toList).getLast? = some '/' := by
      rw [← hInit, List.getLast?_concat]
    rw [List.getLast?_append_of_ne_nil _ hName] at hLast
    exact h.noSlash (List.mem_of_getLast? hLast)
  rw [joinPath, if_neg h.not_startsWith]
  split <;> exact hEnd _

theorem join_ne_empty (directory : String) : joinPath directory name ≠ "" := by
  rw [joinPath, if_neg h.not_startsWith]
  split <;> simp [h.nonempty]

/-- A name in a directory is the last component of its path. -/
theorem locate_join (t : FileTree) (directory : String) :
    t.locate (joinPath directory name) =
      t.walk (origin directory) (components directory ++ [name]) := by
  rw [locate, if_neg (by simpa using h.join_ne_empty directory), h.origin_join, h.components_join]

/-- A path to a name in a directory leads right below the directory. -/
theorem locate_join_eq_ok_iff {t : FileTree} {directory : String} {l : Location} :
    t.locate (joinPath directory name) = .ok l ↔
      ∃ d, t.walk (origin directory) (components directory) = .ok d ∧
        t.node? d = some .directory ∧ l = d ++ [name] := by
  rw [h.locate_join, walk_append, bind_eq_ok_iff]
  refine exists_congr fun d => and_congr_right fun _ => ?_
  rw [walk_cons_eq_ok_iff, Location.enter, if_neg h.noPoint, if_neg h.noPoints]
  exact and_congr_right fun _ => ⟨fun hEnd => (Except.ok.inj hEnd).symm, fun hEnd => hEnd ▸ rfl⟩

theorem walk_join (t : FileTree) (directory : String) :
    t.walk (origin (joinPath directory name)) (components (joinPath directory name)) =
      t.locate (joinPath directory name) := by
  rw [h.locate_join, h.origin_join, h.components_join]

section Directory

variable {t : FileTree} {directory : String} {d : Location}
  (hWay : t.walk (origin directory) (components directory) = .ok d)
  (hDirectory : t.node? d = some .directory)

include hWay hDirectory

theorem locate_join_of_directory : t.locate (joinPath directory name) = .ok (d ++ [name]) :=
  h.locate_join_eq_ok_iff.mpr ⟨d, hWay, hDirectory, rfl⟩

/-- A name in a directory leads to whatever stands right below the directory. -/
theorem find_join :
    t.find (joinPath directory name) = (t.node? (d ++ [name])).elim (.error .notFound) .ok := by
  simp only [find, h.locate_join_of_directory hWay hDirectory, ok_bind, h.endsWith_join]
  cases t.node? (d ++ [name]) with
  | none => rfl
  | some node => cases node <;> rfl

/-- A name in a directory leads to something iff there is a node at its place. -/
theorem hasPath_join :
    t.hasPath (joinPath directory name) = (t.node? (d ++ [name])).isSome := by
  rw [hasPath, h.find_join hWay hDirectory]
  cases t.node? (d ++ [name]) <;> rfl

/-- A file in a directory is read under its name there. -/
theorem read_join {text : String} (hFile : t.node? (d ++ [name]) = some (.file text)) :
    t.read (joinPath directory name) = .ok text := by
  rw [read, h.find_join hWay hDirectory, hFile]
  rfl

/-- A file in a directory can be written anew. -/
theorem write_join {old : String} (hFile : t.node? (d ++ [name]) = some (.file old))
    (content : String) :
    t.write (joinPath directory name) content = .ok (t.put (d ++ [name]) (.file content)) := by
  refine write_eq_ok_iff.mpr
    ⟨_, h.locate_join_of_directory hWay hDirectory, h.endsWith_join directory, ?_, ?_⟩
  · simp [hFile]
  · simp [hFile]

end Directory

variable {t : FileTree} (hRoot : t.node? [] = some .directory)

include hRoot

theorem locate_eq : t.locate name = .ok [name] := by
  have hLocate := h.locate_join_of_directory (walk_empty t) hRoot
  rwa [joinPath_empty] at hLocate

/-- A plain name leads to whatever stands under it in the root. -/
theorem find_eq : t.find name = (t.node? [name]).elim (.error .notFound) .ok := by
  have hFind := h.find_join (walk_empty t) hRoot
  rwa [joinPath_empty] at hFind

theorem read_eq {text : String} (hFile : t.node? [name] = some (.file text)) :
    t.read name = .ok text := by
  have hRead := h.read_join (walk_empty t) hRoot hFile
  rwa [joinPath_empty] at hRead

theorem read_eq_notFound (hNone : t.node? [name] = none) : t.read name = .error .notFound := by
  rw [read, h.find_eq hRoot, hNone]
  rfl

theorem hasPath_join_empty : t.hasPath (joinPath "" name) = (t.node? [name]).isSome :=
  h.hasPath_join (walk_empty t) hRoot

theorem writable (hNode : t.node? [name] ≠ some .directory) : t.Writable name :=
  writable_iff.mpr ⟨[name], h.locate_eq hRoot, h.endsWith_eq, hNode⟩

/-- Two different names in the root are different files. -/
theorem apart {other : String} (hOther : IsPlainName other) (hNe : name ≠ other) :
    t.Apart name other := by
  intro l hLocate hEq
  rw [h.locate_eq hRoot] at hLocate
  rw [hOther.locate_eq hRoot] at hEq
  cases hLocate
  exact hNe (List.cons.inj (Except.ok.inj hEq)).1.symm

end IsPlainName

end FileTree

end FlowAudit
