import FlowAudit.Fixture.Difference
import FlowAudit.Proofs.Text.Line
/-!
What the difference of two texts names: the first line at which they are not equal. Texts of the
same lines differ in the ends of their lines only, and then the place behind all lines is named.
-/
namespace FlowAudit.Difference

/-- Equal texts have no difference. -/
theorem between_eq_none_iff {file expected actual : String} :
    between file expected actual = none ↔ expected = actual := by
  rw [between]
  split <;> simp [*]

/-- Whether a difference names the first place at which some lines are not those that were expected.
Places are counted from one. A list that ends earlier than the other one has no line at the place
behind its last line, and that place is named too if all lines agree. -/
structure NamesFirst (d : Difference) (expected actual : List String) : Prop where
  pos : 0 < d.line
  expected_length : d.line - 1 ≤ expected.length
  actual_length : d.line - 1 ≤ actual.length
  agree : expected.take (d.line - 1) = actual.take (d.line - 1)
  expected_eq : d.expected = expected[d.line - 1]?
  actual_eq : d.actual = actual[d.line - 1]?
  eq_iff : d.expected = d.actual ↔ expected = actual
  behind : expected = actual →
    d.line = expected.length + 1 ∧ d.expected = none ∧ d.actual = none

/-- What is found stands right behind what both lists begin with. -/
theorem exists_firstDifferent (line : Nat) (es as : List String) :
    ∃ agreed expected actual, es = agreed ++ expected ∧ as = agreed ++ actual ∧
      firstDifferent line es as = (line + agreed.length, expected.head?, actual.head?) ∧
      (expected.head? = actual.head? → expected = [] ∧ actual = []) := by
  fun_induction firstDifferent line es as with
  | case1 line es a as ih =>
      obtain ⟨agreed, expected, actual, rfl, rfl, hFound, hEnd⟩ := ih
      refine ⟨a :: agreed, expected, actual, rfl, rfl, ?_, hEnd⟩
      rw [hFound, List.length_cons, Nat.add_assoc, Nat.add_comm 1]
  | case2 line e es a as hNe =>
      exact ⟨[], e :: es, a :: as, rfl, rfl, rfl, fun hEq => absurd (Option.some.inj hEq) hNe⟩
  | case3 line es as hEmpty =>
      refine ⟨[], es, as, rfl, rfl, rfl, fun hEq => ?_⟩
      cases es with
      | nil => exact ⟨rfl, List.head?_eq_none_iff.mp hEq.symm⟩
      | cons e es =>
          cases as with
          | nil => cases hEq
          | cons a as => exact (hEmpty e es a as rfl rfl).elim

/-- What stands right behind a common beginning is the first difference, unless both lists end
there. -/
theorem NamesFirst.of_agreed {d : Difference} {agreed expected actual : List String}
    (hLine : d.line = 1 + agreed.length) (hExpected : d.expected = expected.head?)
    (hActual : d.actual = actual.head?)
    (hEnd : expected.head? = actual.head? → expected = [] ∧ actual = []) :
    d.NamesFirst (agreed ++ expected) (agreed ++ actual) := by
  have hBefore : d.line - 1 = agreed.length := by omega
  have hAt (rest : List String) : (agreed ++ rest)[agreed.length]? = rest.head? := by
    rw [List.getElem?_append_right (Nat.le_refl _), Nat.sub_self, List.head?_eq_getElem?]
  constructor
  case pos => omega
  case expected_length =>
    rw [hBefore, List.length_append]
    exact Nat.le_add_right ..
  case actual_length =>
    rw [hBefore, List.length_append]
    exact Nat.le_add_right ..
  case agree => rw [hBefore, List.take_left, List.take_left]
  case expected_eq => rw [hBefore, hAt, hExpected]
  case actual_eq => rw [hBefore, hAt, hActual]
  case eq_iff =>
    rw [hExpected, hActual, List.append_cancel_left_eq]
    refine ⟨fun hHead => ?_, congrArg List.head?⟩
    obtain ⟨rfl, rfl⟩ := hEnd hHead
    rfl
  case behind =>
    intro hSame
    obtain rfl := List.append_cancel_left hSame
    obtain ⟨rfl, -⟩ := hEnd rfl
    refine ⟨?_, hExpected, hActual⟩
    rw [hLine, List.append_nil, Nat.add_comm]

/-- All lines before the first place agree, so no place among them differs or is the last one. -/
theorem NamesFirst.line_le {d d' : Difference} {expected actual : List String}
    (h : d.NamesFirst expected actual) (h' : d'.NamesFirst expected actual) :
    d.line ≤ d'.line := by
  refine Nat.le_of_not_lt fun hBefore => ?_
  have hPos := h'.pos
  have hIndex : d'.line - 1 < d.line - 1 := by omega
  have hAgree : expected[d'.line - 1]? = actual[d'.line - 1]? := by
    rw [← List.getElem?_take_of_lt hIndex, h.agree, List.getElem?_take_of_lt hIndex]
  have hSame : expected = actual := by
    rw [← h'.eq_iff, h'.expected_eq, h'.actual_eq, hAgree]
  have hBehind := (h'.behind hSame).1
  have hLength := h.expected_length
  omega

/-- There is only one first place. -/
theorem NamesFirst.unique {d d' : Difference} {expected actual : List String}
    (h : d.NamesFirst expected actual) (h' : d'.NamesFirst expected actual) :
    d.line = d'.line ∧ d.expected = d'.expected ∧ d.actual = d'.actual := by
  have hLine := Nat.le_antisymm (h.line_le h') (h'.line_le h)
  rw [h.expected_eq, h'.expected_eq, h.actual_eq, h'.actual_eq, hLine]
  exact ⟨rfl, rfl, rfl⟩

/-- A difference that is found names its file, both lengths and the first place. -/
theorem namesFirst_of_between {file expected actual : String} {d : Difference}
    (h : between file expected actual = some d) :
    (d.file = file ∧ d.expectedLength = expected.utf8ByteSize ∧
      d.actualLength = actual.utf8ByteSize) ∧
      d.NamesFirst (Text.lines expected) (Text.lines actual) := by
  obtain ⟨agreed, es, as, hExpected, hActual, hFound, hEnd⟩ :=
    exists_firstDifferent 1 (Text.lines expected) (Text.lines actual)
  rw [between, hFound] at h
  split at h
  · cases h
  · cases h
    rw [hExpected, hActual]
    exact ⟨⟨rfl, rfl, rfl⟩, .of_agreed rfl rfl rfl hEnd⟩

/-- Equal texts have no difference. All others have exactly the one that names the first place at
which their lines differ. Texts of the same lines differ in the ends of these lines only, and then the
place behind all of them is named. -/
theorem between_finds_line (file expected actual : String) :
    (between file expected actual = none ↔ expected = actual) ∧
    ∃ es as, Text.HasLines expected es ∧ Text.HasLines actual as ∧
      ∀ d, between file expected actual = some d ↔ expected ≠ actual ∧
        (d.file = file ∧ d.expectedLength = expected.utf8ByteSize ∧
          d.actualLength = actual.utf8ByteSize) ∧ d.NamesFirst es as := by
  refine ⟨between_eq_none_iff, Text.lines expected, Text.lines actual,
    Text.lines_eq_iff.mp rfl, Text.lines_eq_iff.mp rfl, fun d => ⟨fun hBetween => ?_, ?_⟩⟩
  · have hNe : expected ≠ actual := fun hSame => by
      rw [between_eq_none_iff.mpr hSame] at hBetween
      cases hBetween
    exact ⟨hNe, namesFirst_of_between hBetween⟩
  · rintro ⟨hNe, ⟨hFile, hExpected, hActual⟩, hFirst⟩
    obtain ⟨found, hFound⟩ := Option.ne_none_iff_exists'.mp (mt between_eq_none_iff.mp hNe)
    obtain ⟨⟨hFile', hExpected', hActual'⟩, hFirst'⟩ := namesFirst_of_between hFound
    obtain ⟨hLine, hLeft, hRight⟩ := hFirst'.unique hFirst
    rw [hFound, Option.some.injEq]
    cases d
    cases found
    simp only [mk.injEq]
    exact ⟨hFile'.trans hFile.symm, hExpected'.trans hExpected.symm,
      hActual'.trans hActual.symm, hLine, hLeft, hRight⟩

example : between "a.csv" "1,2\n3\n" "1,2\r\n3" = some ⟨"a.csv", 6, 6, 3, none, none⟩ := by cbv

end FlowAudit.Difference
