import Mathlib.Data.List.Induction
import Mathlib.Data.List.Sort
import Mathlib.Data.String.Basic
/-!
The distinct members of a list, in the order in which they first occur or in ascending order. In
ascending order they depend on nothing but which members there are.
-/
namespace FlowAudit

section FirstOccurrence

variable {α β : Type} [BEq α] [LawfulBEq α] [BEq β] [LawfulBEq β]

/-- What stands last is kept iff it is new. -/
theorem eraseDups_concat (l : List α) (a : α) :
    (l ++ [a]).eraseDups = if a ∈ l then l.eraseDups else l.eraseDups ++ [a] := by
  rw [List.eraseDups_append]
  by_cases h : a ∈ l <;> simp [List.removeAll, h, List.eraseDups_cons]

theorem nodup_eraseDups (l : List α) : l.eraseDups.Nodup := by
  induction l using List.reverseRecOn with
  | nil => exact List.nodup_nil
  | append_singleton l a ih =>
      rw [eraseDups_concat]
      by_cases h : a ∈ l
      · rw [if_pos h]
        exact ih
      · rw [if_neg h, ← List.concat_eq_append]
        exact ih.concat fun hMem => h (List.mem_eraseDups.mp hMem)

/-- Names that stay different stay where they are. -/
theorem eraseDups_map {f : α → β} (hf : Function.Injective f) (l : List α) :
    (l.map f).eraseDups = l.eraseDups.map f := by
  induction l using List.reverseRecOn with
  | nil => rfl
  | append_singleton l a ih =>
      rw [List.map_append, List.map_singleton, eraseDups_concat, eraseDups_concat, ih]
      by_cases h : a ∈ l <;> simp [hf.eq_iff, h]

end FirstOccurrence

section Ascending

/-- The distinct texts of a list in ascending order. -/
def ascending (texts : List String) : List String :=
  texts.eraseDups.mergeSort fun a b => decide (a ≤ b)

theorem mem_ascending {texts : List String} {text : String} :
    text ∈ ascending texts ↔ text ∈ texts := by
  rw [ascending, List.mem_mergeSort, List.mem_eraseDups]

theorem pairwise_ascending (texts : List String) : (ascending texts).Pairwise (· < ·) := by
  have hSorted : (ascending texts).Pairwise (· ≤ ·) := List.pairwise_mergeSort' (· ≤ ·) _
  have hDistinct : (ascending texts).Nodup :=
    (List.mergeSort_perm _ _).nodup_iff.mpr (nodup_eraseDups texts)
  exact (hSorted.and hDistinct).imp fun h => lt_of_le_of_ne h.1 h.2

theorem ascending_singleton (text : String) : ascending [text] = [text] := by
  simp [ascending, List.eraseDups_cons]

/-- The ascending names depend on the set of names only. -/
theorem ascending_congr {texts others : List String} (h : ∀ text, text ∈ texts ↔ text ∈ others) :
    ascending texts = ascending others := by
  have hSame : (ascending texts).Perm (ascending others) := by
    rw [List.perm_ext_iff_of_nodup (pairwise_ascending texts).nodup
      (pairwise_ascending others).nodup]
    simpa only [mem_ascending] using h
  exact hSame.eq_of_pairwise (fun _ _ _ _ hLt hGt => absurd hGt hLt.asymm)
    (pairwise_ascending texts) (pairwise_ascending others)

end Ascending

end FlowAudit
