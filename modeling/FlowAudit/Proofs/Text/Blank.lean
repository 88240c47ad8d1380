import FlowAudit.Text.Blank
import Mathlib
/-!
What trimming leaves of a text: everything between the blanks at both ends, all of the text if there
is no blank, and all digits in any case.
-/
namespace FlowAudit.Text

theorem dropWhile_of_forall {p : Char → Bool} {cs : List Char} (h : ∀ c ∈ cs, p c = false) :
    cs.dropWhile p = cs := by
  cases cs with
  | nil => rfl
  | cons c cs => rw [List.dropWhile_cons, h c (List.mem_cons_self ..), if_neg Bool.false_ne_true]

theorem trim_of_forall {cs : List Char} (h : ∀ c ∈ cs, isBlank c = false) : trim cs = cs := by
  have hReverse : ∀ c ∈ cs.reverse, isBlank c = false := fun c hc => h c (List.mem_reverse.mp hc)
  rw [trim, dropWhile_of_forall h, dropWhile_of_forall hReverse, List.reverse_reverse]

/-- Only blanks at both ends are dropped. -/
theorem exists_blanks_around_trim (cs : List Char) :
    ∃ before after, cs = before ++ (trim cs ++ after) ∧ (∀ c ∈ before, isBlank c) ∧
      ∀ c ∈ after, isBlank c := by
  have hReverse : (cs.dropWhile isBlank).reverse =
      (cs.dropWhile isBlank).reverse.takeWhile isBlank ++
        (cs.dropWhile isBlank).reverse.dropWhile isBlank := List.takeWhile_append_dropWhile.symm
  refine ⟨cs.takeWhile isBlank, ((cs.dropWhile isBlank).reverse.takeWhile isBlank).reverse, ?_,
    fun _ => List.mem_takeWhile_imp, fun c hc => List.mem_takeWhile_imp (List.mem_reverse.mp hc)⟩
  rw [trim, ← List.reverse_append, ← hReverse, List.reverse_reverse,
    List.takeWhile_append_dropWhile]

/-- What is dropped ends at the first character that stays. -/
theorem dropWhile_append_of_head {p : Char → Bool} {before core : List Char}
    (hBefore : ∀ c ∈ before, p c) (hCore : ∀ c ∈ core.head?, p c = false) :
    (before ++ core).dropWhile p = core := by
  rw [List.dropWhile_append_of_pos hBefore]
  cases core with
  | nil => rfl
  | cons c core => rw [List.dropWhile_cons, hCore c rfl, if_neg Bool.false_ne_true]

/-- Trimming ends at the first and at the last character that is no blank. -/
theorem trim_append {before core after : List Char} (hBefore : ∀ c ∈ before, isBlank c)
    (hAfter : ∀ c ∈ after, isBlank c) (hSome : core ≠ [])
    (hFirst : ∀ c ∈ core.head?, isBlank c = false)
    (hLast : ∀ c ∈ core.getLast?, isBlank c = false) : trim (before ++ (core ++ after)) = core := by
  have hFront : ∀ c ∈ (core ++ after).head?, isBlank c = false := by
    rw [List.head?_append_of_ne_nil _ hSome]
    exact hFirst
  have hBack : ∀ c ∈ core.reverse.head?, isBlank c = false := by
    rw [List.head?_reverse]
    exact hLast
  rw [trim, dropWhile_append_of_head hBefore hFront, List.reverse_append,
    dropWhile_append_of_head (fun c hc => hAfter c (List.mem_reverse.mp hc)) hBack,
    List.reverse_reverse]

/-- Dropping what a filter removes anyway changes nothing behind the filter. -/
theorem filter_dropWhile {p q : Char → Bool} (h : ∀ c, q c → p c = false) (cs : List Char) :
    (cs.dropWhile p).filter q = cs.filter q := by
  induction cs with
  | nil => rfl
  | cons c cs ih =>
      rw [List.dropWhile_cons]
      by_cases hc : p c
      · have hNot : ¬q c := fun hq => by simp [h c hq] at hc
        rw [if_pos hc, ih, List.filter_cons_of_neg hNot]
      · rw [if_neg hc]

theorem isBlank_of_isDigit {c : Char} (h : c.isDigit) : isBlank c = false := by
  have hRange : 48 ≤ c.toNat ∧ c.toNat ≤ 57 := Char.isDigit_iff_toNat.mp h
  rw [← Bool.not_eq_true]
  simp only [isBlank, Bool.or_eq_true, Bool.and_eq_true, decide_eq_true_eq, beq_iff_eq]
  omega

/-- Blanks are no digits, so trimming keeps all digits. -/
theorem filter_isDigit_trim (cs : List Char) :
    (trim cs).filter Char.isDigit = cs.filter Char.isDigit := by
  have hBlank : ∀ c : Char, c.isDigit → isBlank c = false := fun _ => isBlank_of_isDigit
  rw [trim, List.filter_reverse, filter_dropWhile hBlank, List.filter_reverse,
    List.reverse_reverse, filter_dropWhile hBlank]

end FlowAudit.Text
