import FlowAudit.Grouping
import Mathlib.Data.List.Perm.Basic
/-!
Groupings by key. The groups of a list are its members for each key that occurs, in the order of
the list, and the keys are strictly ascending; so each member is in exactly one group.
-/
namespace FlowAudit

variable {κ α : Type} [Ord κ]

/-- Grouping loses nothing and adds nothing. -/
theorem flatMap_insertGrouped_perm (k : κ) (a : α) (groups : List (κ × List α)) :
    ((insertGrouped k a groups).flatMap Prod.snd).Perm (a :: groups.flatMap Prod.snd) := by
  induction groups with
  | nil => exact List.Perm.refl _
  | cons group rest ih =>
      obtain ⟨first, members⟩ := group
      unfold insertGrouped
      split
      · exact List.Perm.refl _
      · exact List.Perm.refl _
      · rw [List.flatMap_cons, List.flatMap_cons]
        exact (ih.append_left members).trans List.perm_middle

/-- Every member of the list is in exactly one group. -/
theorem flatMap_groupBy_perm (key : α → κ) (xs : List α) :
    ((groupBy key xs).flatMap Prod.snd).Perm xs := by
  induction xs with
  | nil => exact List.Perm.refl _
  | cons a rest ih => exact (flatMap_insertGrouped_perm _ _ _).trans (ih.cons a)

/-- Inserts a key at its place in an ascending list that holds it at most once. -/
def insertKey (k : κ) : List κ → List κ
  | [] => [k]
  | j :: rest =>
    match compare k j with
    | .lt => k :: j :: rest
    | .eq => j :: rest
    | .gt => j :: insertKey k rest

/-- The keys of the members of a list in ascending order, each once. -/
def distinctKeys (key : α → κ) (xs : List α) : List κ :=
  xs.foldr (fun a => insertKey (key a)) []

variable [Std.LawfulEqOrd κ]

theorem ne_of_compare_eq_lt {j k : κ} (h : compare j k = .lt) : j ≠ k := by
  rintro rfl
  rw [Std.ReflOrd.compare_self] at h
  cases h

/-- Inserting adds a key and keeps the others. -/
theorem mem_insertKey {k j : κ} {keys : List κ} : j ∈ insertKey k keys ↔ j = k ∨ j ∈ keys := by
  induction keys with
  | nil => simp [insertKey]
  | cons i rest ih =>
      unfold insertKey
      split
      · simp
      · next h =>
          have hEq : k = i := Std.LawfulEqOrd.eq_of_compare h
          simp [hEq]
      · simp [ih, or_left_comm]

theorem mem_distinctKeys {key : α → κ} {xs : List α} {k : κ} :
    k ∈ distinctKeys key xs ↔ ∃ a ∈ xs, key a = k := by
  induction xs with
  | nil => simp [distinctKeys]
  | cons a rest ih =>
      change k ∈ insertKey (key a) (distinctKeys key rest) ↔ _
      rw [mem_insertKey, ih, List.exists_mem_cons_iff, eq_comm]

/-- Only the keys of the list have members. -/
theorem filter_key_eq_nil [DecidableEq κ] {key : α → κ} {xs : List α} {k : κ}
    (h : k ∉ distinctKeys key xs) : (xs.filter fun a => key a = k) = [] := by
  refine List.filter_eq_nil_iff.mpr fun a ha hEq => h ?_
  exact mem_distinctKeys.mpr ⟨a, ha, of_decide_eq_true hEq⟩

variable [Std.TransOrd κ]

/-- Keys stay in strictly ascending order, so none occurs twice. -/
theorem pairwise_insertKey {k : κ} {keys : List κ} (h : keys.Pairwise (compare · · = .lt)) :
    (insertKey k keys).Pairwise (compare · · = .lt) := by
  induction keys with
  | nil => exact List.pairwise_singleton _ _
  | cons i rest ih =>
      obtain ⟨hHead, hRest⟩ := List.pairwise_cons.mp h
      unfold insertKey
      split
      · next hLt =>
          refine List.pairwise_cons.mpr ⟨fun j hj => ?_, h⟩
          rcases List.mem_cons.mp hj with rfl | hj
          · exact hLt
          · exact Std.TransCmp.lt_trans hLt (hHead j hj)
      · exact h
      · next hGt =>
          refine List.pairwise_cons.mpr ⟨fun j hj => ?_, ih hRest⟩
          rcases mem_insertKey.mp hj with rfl | hj
          · exact Std.OrientedCmp.lt_of_gt hGt
          · exact hHead j hj

theorem pairwise_distinctKeys (key : α → κ) (xs : List α) :
    (distinctKeys key xs).Pairwise (compare · · = .lt) := by
  induction xs with
  | nil => exact List.Pairwise.nil
  | cons a rest ih => exact pairwise_insertKey ih

theorem nodup_distinctKeys (key : α → κ) (xs : List α) : (distinctKeys key xs).Nodup :=
  (pairwise_distinctKeys key xs).imp ne_of_compare_eq_lt

/-- A strictly ascending list is known from its members. -/
theorem eq_of_pairwise_compare {xs ys : List κ} (hx : xs.Pairwise (compare · · = .lt))
    (hy : ys.Pairwise (compare · · = .lt)) (h : ∀ k, k ∈ xs ↔ k ∈ ys) : xs = ys := by
  have hSame : xs.Perm ys :=
    (List.perm_ext_iff_of_nodup (hx.imp ne_of_compare_eq_lt) (hy.imp ne_of_compare_eq_lt)).mpr h
  refine hSame.eq_of_pairwise (fun j k _ _ hjk hkj => ?_) hx hy
  rw [Std.OrientedCmp.gt_of_lt hkj] at hjk
  cases hjk

/-- The keys do not depend on the order of the members. -/
theorem distinctKeys_perm {key : α → κ} {xs ys : List α} (h : xs.Perm ys) :
    distinctKeys key xs = distinctKeys key ys := by
  refine eq_of_pairwise_compare (pairwise_distinctKeys key xs) (pairwise_distinctKeys key ys) ?_
  intro k
  simp only [mem_distinctKeys, h.mem_iff]

/-- Of a list in the order of its keys, the first member that satisfies a condition has the smallest
key of all that do. -/
theorem map_find?_eq_some_iff {key : α → κ} {p : α → Bool} {xs : List α} {k : κ}
    (h : xs.Pairwise fun a b => (compare (key a) (key b)).isLE) :
    (xs.find? p).map key = some k ↔
      (∃ a ∈ xs, p a ∧ key a = k) ∧ ∀ a ∈ xs, p a → (compare k (key a)).isLE := by
  have hFirst : ∀ a, xs.find? p = some a → ∀ b ∈ xs, p b → (compare (key a) (key b)).isLE := by
    intro a ha b hb hp
    obtain ⟨-, before, after, rfl, hBefore⟩ := List.find?_eq_some_iff_append.mp ha
    rcases List.mem_append.mp hb with hb | hb
    · have hNot := hBefore b hb
      rw [hp] at hNot
      cases hNot
    · rcases List.mem_cons.mp hb with rfl | hb
      · exact Std.ReflCmp.isLE_rfl
      · exact (List.pairwise_cons.mp (List.pairwise_append.mp h).2.1).1 b hb
  rw [Option.map_eq_some_iff]
  constructor
  · rintro ⟨a, ha, rfl⟩
    exact ⟨⟨a, List.mem_of_find?_eq_some ha, List.find?_some ha, rfl⟩, hFirst a ha⟩
  · rintro ⟨⟨b, hb, hp, rfl⟩, hLeast⟩
    obtain ⟨a, ha⟩ := Option.isSome_iff_exists.mp (List.find?_isSome.mpr ⟨b, hb, hp⟩)
    have hLe := hFirst a ha b hb hp
    have hGe := hLeast a (List.mem_of_find?_eq_some ha) (List.find?_some ha)
    exact ⟨a, ha, Std.LawfulEqOrd.eq_of_compare (Std.OrientedCmp.isLE_antisymm hLe hGe)⟩

variable [DecidableEq κ]

/-- Inserting a member changes the group of its key only. -/
theorem insertGrouped_map (k : κ) (a : α) (members : κ → List α) {keys : List κ}
    (hKeys : keys.Pairwise (compare · · = .lt)) (hNew : k ∉ keys → members k = []) :
    insertGrouped k a (keys.map fun j => (j, members j)) =
      (insertKey k keys).map fun j => (j, if j = k then a :: members j else members j) := by
  have hOther : ∀ rest : List κ, k ∉ rest → (rest.map fun j => (j, members j)) =
      rest.map fun j => (j, if j = k then a :: members j else members j) := by
    intro rest hNot
    refine List.map_congr_left fun j hj => ?_
    have hNe : j ≠ k := fun hEq => hNot (hEq ▸ hj)
    rw [if_neg hNe]
  induction keys with
  | nil => simp [insertGrouped, insertKey, hNew]
  | cons i rest ih =>
      have hInserted := pairwise_insertKey (k := k) hKeys
      obtain ⟨hHead, hRest⟩ := List.pairwise_cons.mp hKeys
      rw [List.map_cons, insertGrouped]
      rw [insertKey] at hInserted ⊢
      cases hCompare : compare k i with
      | lt =>
          simp only [hCompare] at hInserted
          have hNot : k ∉ i :: rest := fun hMem =>
            ne_of_compare_eq_lt ((List.pairwise_cons.mp hInserted).1 k hMem) rfl
          have hTail := hOther (i :: rest) hNot
          simp only [List.map_cons, ↓reduceIte, hNew hNot] at hTail ⊢
          rw [hTail]
      | eq =>
          have hEq : k = i := Std.LawfulEqOrd.eq_of_compare hCompare
          subst hEq
          have hNot : k ∉ rest := fun hMem => ne_of_compare_eq_lt (hHead k hMem) rfl
          simp only [List.map_cons, ↓reduceIte, hOther rest hNot]
      | gt =>
          have hNe : i ≠ k := ne_of_compare_eq_lt (Std.OrientedCmp.lt_of_gt hCompare)
          have hNewRest : k ∉ rest → members k = [] := fun hNot =>
            hNew (List.not_mem_cons_of_ne_of_not_mem hNe.symm hNot)
          simp only [List.map_cons, if_neg hNe, ih hRest hNewRest]

/-- Groups are filters: each key that occurs, in ascending order, with the members that have it. -/
theorem groupBy_eq (key : α → κ) (xs : List α) :
    groupBy key xs = (distinctKeys key xs).map fun k => (k, xs.filter fun a => key a = k) := by
  induction xs with
  | nil => rfl
  | cons a rest ih =>
      change insertGrouped (key a) a (groupBy key rest) = _
      rw [ih, insertGrouped_map _ _ _ (pairwise_distinctKeys key rest) filter_key_eq_nil]
      refine List.map_congr_left fun k _ => ?_
      by_cases h : k = key a
      · simp [h]
      · simp [h, Ne.symm h]

/-- A group is never empty, and all its members have its key. -/
theorem mem_groupBy {key : α → κ} {xs : List α} {group : κ × List α}
    (h : group ∈ groupBy key xs) : group.2 ≠ [] ∧ ∀ a ∈ group.2, key a = group.1 := by
  rw [groupBy_eq] at h
  obtain ⟨k, hk, rfl⟩ := List.mem_map.mp h
  obtain ⟨a, ha, hKey⟩ := mem_distinctKeys.mp hk
  refine ⟨List.ne_nil_of_mem (List.mem_filter.mpr ⟨ha, by simpa using hKey⟩), fun b hb => ?_⟩
  simpa using (List.mem_filter.mp hb).2

/-- Of lists that belong to different keys, put one after the other, a key selects its own. -/
theorem filter_key_flatMap {ι β : Type} [DecidableEq ι] {key : β → ι} {members : ι → List β}
    (hKey : ∀ j, ∀ b ∈ members j, key b = j) {keys : List ι} (hNodup : keys.Nodup) (k : ι) :
    ((keys.flatMap members).filter fun b => key b = k) = if k ∈ keys then members k else [] := by
  induction keys with
  | nil => rfl
  | cons j rest ih =>
      obtain ⟨hFresh, hRest⟩ := List.nodup_cons.mp hNodup
      rw [List.flatMap_cons, List.filter_append, ih hRest]
      by_cases h : j = k
      · subst h
        have hAll : ((members j).filter fun b => key b = j) = members j :=
          List.filter_eq_self.mpr fun b hb => decide_eq_true (hKey j b hb)
        rw [hAll, if_neg hFresh, if_pos (List.mem_cons_self ..), List.append_nil]
      · have hNone : ((members j).filter fun b => key b = k) = [] := by
          refine List.filter_eq_nil_iff.mpr fun b hb hEq => h ?_
          exact (hKey j b hb).symm.trans (of_decide_eq_true hEq)
        simp [hNone, Ne.symm h]

end FlowAudit
