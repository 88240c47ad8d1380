import FlowAudit.Log
import Mathlib.Data.List.Forall2
/-!
Computations that may fail, run over the members of a list. A traversal succeeds iff it does on
every member, and nested traversals are one traversal of all members in order.
-/
namespace FlowAudit

variable {ε δ α β γ : Type}

/-- A sequence of two computations succeeds iff both do. -/
theorem bind_eq_ok_iff {x : Except ε α} {f : α → Except ε β} {b : β} :
    x >>= f = .ok b ↔ ∃ a, x = .ok a ∧ f a = .ok b := by
  cases x <;> simp [bind, Except.bind]

/-- A sequence of two computations fails with the error of the one that fails first. -/
theorem bind_eq_error_iff {x : Except ε α} {f : α → Except ε β} {e : ε} :
    x >>= f = .error e ↔ x = .error e ∨ ∃ a, x = .ok a ∧ f a = .error e := by
  cases x <;> simp [bind, Except.bind]

theorem map_eq_ok_iff {x : Except ε α} {f : α → β} {b : β} :
    f <$> x = .ok b ↔ ∃ a, x = .ok a ∧ f a = b := by
  cases x <;> simp [Functor.map, Except.map]

theorem bind_ok_eq_error_iff {x : Except ε α} {f : α → β} {e : ε} :
    (x >>= fun a => .ok (f a)) = .error e ↔ x = .error e := by
  cases x <;> simp [bind, Except.bind]

@[simp] theorem ok_bind (a : α) (f : α → Except ε β) : Except.ok a >>= f = f a := rfl

@[simp] theorem bind_ok (x : Except ε α) : (x >>= fun a => .ok a) = x := by
  cases x <;> rfl

@[simp] theorem mapError_ok (f : ε → δ) (a : α) : (Except.ok a).mapError f = .ok a := rfl

@[simp] theorem mapError_error (f : ε → δ) (e : ε) :
    (Except.error e : Except ε α).mapError f = .error (f e) := rfl

theorem mapError_eq_ok_iff {x : Except ε α} {f : ε → δ} {a : α} :
    x.mapError f = .ok a ↔ x = .ok a := by
  cases x <;> simp

theorem mapError_eq_error_iff {x : Except ε α} {f : ε → δ} {d : δ} :
    x.mapError f = .error d ↔ ∃ e, x = .error e ∧ f e = d := by
  cases x <;> simp

theorem pure_eq_ok_iff {a b : α} : (pure a : Except ε α) = .ok b ↔ a = b := by
  simp [pure, Except.pure]

theorem throw_ne_ok {e : ε} {a : α} : (throw e : Except ε α) ≠ .ok a := by
  simp [throw, throwThe, MonadExceptOf.throw]

theorem exists_eq_ok_of_isOk {x : Except ε α} (h : x.isOk) : ∃ a, x = .ok a := by
  cases x with
  | error e => cases h
  | ok a => exact ⟨a, rfl⟩

/-- Results stand in the order of the members that they belong to. -/
theorem mapM_eq_ok_iff {f : α → Except ε β} {xs : List α} {ys : List β} :
    xs.mapM f = .ok ys ↔ List.Forall₂ (fun a b => f a = .ok b) xs ys := by
  induction xs generalizing ys with
  | nil =>
      rw [List.mapM_nil, List.forall₂_nil_left_iff]
      exact ⟨fun h => (Except.ok.inj h).symm, fun h => h ▸ rfl⟩
  | cons a rest ih =>
      rw [List.mapM_cons, bind_eq_ok_iff, List.forall₂_cons_left_iff]
      constructor
      · rintro ⟨b, hHead, h⟩
        obtain ⟨bs, hTail, hEq⟩ := bind_eq_ok_iff.mp h
        exact ⟨b, bs, hHead, ih.mp hTail, (Except.ok.inj hEq).symm⟩
      · rintro ⟨b, bs, hHead, hTail, rfl⟩
        exact ⟨b, hHead, bind_eq_ok_iff.mpr ⟨bs, ih.mpr hTail, rfl⟩⟩

/-- A traversal succeeds iff it does on every member. -/
theorem exists_mapM_eq_ok_iff {f : α → Except ε β} {xs : List α} :
    (∃ ys, xs.mapM f = .ok ys) ↔ ∀ a ∈ xs, ∃ b, f a = .ok b := by
  simp only [mapM_eq_ok_iff]
  induction xs with
  | nil => simp
  | cons a rest ih =>
      rw [List.forall_mem_cons, ← ih]
      simp only [List.forall₂_cons_left_iff]
      constructor
      · rintro ⟨_, b, bs, hHead, hTail, _⟩
        exact ⟨⟨b, hHead⟩, bs, hTail⟩
      · rintro ⟨⟨b, hHead⟩, bs, hTail⟩
        exact ⟨b :: bs, b, bs, hHead, hTail, rfl⟩

/-- A traversal that may leave members out, in which every step succeeds iff a check does. -/
theorem filterMapM_eq_ok_iff {f : α → Except ε (Option β)} {g : α → Option β} {P : α → Prop}
    (h : ∀ a o, f a = .ok o ↔ P a ∧ g a = o) {xs : List α} {ys : List β} :
    xs.filterMapM f = .ok ys ↔ (∀ a ∈ xs, P a) ∧ xs.filterMap g = ys := by
  induction xs generalizing ys with
  | nil => simp [pure_eq_ok_iff]
  | cons a rest ih =>
      rw [List.filterMapM_cons, bind_eq_ok_iff, List.forall_mem_cons, List.filterMap_cons]
      simp only [h]
      cases g a with
      | none => simp [ih, and_assoc]
      | some b => simp [map_eq_ok_iff, ih, and_assoc]

/-- An optional computation that is absent succeeds with nothing. -/
theorem optionMapM_eq_ok_iff {f : α → Except ε β} {x : Option α} {y : Option β} :
    x.mapM f = .ok y ↔ Option.Rel (fun a b => f a = .ok b) x y := by
  cases x with
  | none =>
      rw [Option.mapM_none, pure_eq_ok_iff]
      exact ⟨fun h => h ▸ .none, fun h => by cases h; rfl⟩
  | some a =>
      rw [Option.mapM_some, map_eq_ok_iff]
      constructor
      · rintro ⟨b, hb, rfl⟩
        exact .some hb
      · rintro ⟨hb⟩
        exact ⟨_, hb, rfl⟩

/-- An absent value cannot fail. -/
theorem optionMapM_eq_error_iff {f : α → Except ε β} {x : Option α} {e : ε} :
    x.mapM f = .error e ↔ ∃ a ∈ x, f a = .error e := by
  cases x with
  | none => simp [pure, Except.pure]
  | some a =>
      rw [Option.mapM_some]
      cases hf : f a <;> simp [hf, Functor.map, Except.map]

theorem isSome_of_rel {R : α → β → Prop} {x : Option α} {y : Option β} (h : Option.Rel R x y)
    (hx : x.isSome) : y.isSome := by
  cases h with
  | some => rfl
  | none => exact hx

/-- There is always something related to an absent value. -/
theorem exists_optionRel_iff {R : α → β → Prop} {x : Option α} :
    (∃ y, Option.Rel R x y) ↔ ∀ a ∈ x, ∃ b, R a b := by
  cases x with
  | none => exact iff_of_true ⟨none, .none⟩ nofun
  | some a =>
      constructor
      · rintro ⟨_, hb⟩ _ ⟨⟩
        cases hb with
        | some h => exact ⟨_, h⟩
      · intro h
        obtain ⟨b, hb⟩ := h a rfl
        exact ⟨some b, .some hb⟩

/-- In related lists, each member of the first one has a partner. -/
theorem exists_rel_of_mem {R : α → β → Prop} {xs : List α} {ys : List β}
    (h : List.Forall₂ R xs ys) {a : α} (ha : a ∈ xs) : ∃ b ∈ ys, R a b := by
  induction h with
  | nil => cases ha
  | cons hHead _ ih =>
      rcases List.mem_cons.mp ha with rfl | ha
      · exact ⟨_, List.mem_cons_self .., hHead⟩
      · obtain ⟨b, hb, hRel⟩ := ih ha
        exact ⟨b, List.mem_cons_of_mem _ hb, hRel⟩

theorem forall₂_map_map_iff {R : β → γ → Prop} {f : α → β} {g : α → γ} {xs : List α} :
    List.Forall₂ R (xs.map f) (xs.map g) ↔ ∀ a ∈ xs, R (f a) (g a) := by
  rw [List.forall₂_map_left_iff, List.forall₂_map_right_iff, List.forall₂_same]

/-- Related lists have the same values where related members do. -/
theorem map_eq_map_of_forall₂ {R : α → β → Prop} {xs : List α} {ys : List β} {v : β → γ}
    {w : α → γ} (h : List.Forall₂ R xs ys) (hStep : ∀ a b, R a b → v b = w a) :
    ys.map v = xs.map w := by
  induction h with
  | nil => rfl
  | cons hHead _ ih => rw [List.map_cons, List.map_cons, hStep _ _ hHead, ih]

/-- Only the members of the first list matter for a relation between lists. -/
theorem forall₂_congr_left {R S : α → β → Prop} {xs : List α} {ys : List β}
    (h : ∀ a ∈ xs, ∀ b, R a b ↔ S a b) : List.Forall₂ R xs ys ↔ List.Forall₂ S xs ys := by
  induction xs generalizing ys with
  | nil => simp only [List.forall₂_nil_left_iff]
  | cons a rest ih =>
      obtain ⟨hHead, hRest⟩ := List.forall_mem_cons.mp h
      simp only [List.forall₂_cons_left_iff, hHead, ih hRest]

/-- What every step turns into the same thing on both sides, the whole traversal does. -/
theorem map_eq_map_of_mapM {f : α → Except ε β} {xs : List α} {ys : List β} {v : β → γ} {w : α → γ}
    (h : xs.mapM f = .ok ys) (hStep : ∀ a b, f a = .ok b → v b = w a) : ys.map v = xs.map w :=
  map_eq_map_of_forall₂ (mapM_eq_ok_iff.mp h) hStep

/-- A traversal that succeeds has the results of its members and no others. -/
theorem mem_iff_of_mapM {f : α → Except ε β} {xs : List α} {ys : List β} (h : xs.mapM f = .ok ys)
    {b : β} : b ∈ ys ↔ ∃ a ∈ xs, f a = .ok b := by
  induction mapM_eq_ok_iff.mp h with
  | nil => simp
  | cons hHead _ ih => simp [ih (mapM_eq_ok_iff.mpr ‹_›), hHead, eq_comm (a := b)]

/-- A traversal that fails ends at the first member that does, with its error. -/
theorem mapM_eq_error_iff {f : α → Except ε β} {xs : List α} {e : ε} :
    xs.mapM f = .error e ↔ ∃ before a after, xs = before ++ a :: after ∧
      (∀ b ∈ before, ∃ c, f b = .ok c) ∧ f a = .error e := by
  induction xs with
  | nil =>
      rw [List.mapM_nil]
      constructor
      · intro h
        cases h
      · rintro ⟨before, _, _, h, _⟩
        simp at h
  | cons x rest ih =>
      rw [List.mapM_cons]
      cases hx : f x with
      | error e' =>
          constructor
          · intro h
            cases h
            exact ⟨[], x, rest, rfl, List.forall_mem_nil _, hx⟩
          · rintro ⟨before, a, after, hxs, hBefore, ha⟩
            rcases List.cons_eq_append_iff.mp hxs with ⟨rfl, hCons⟩ | ⟨tail, rfl, _⟩
            · cases hCons
              cases hx.symm.trans ha
              rfl
            · obtain ⟨y, hy⟩ := hBefore x (List.mem_cons_self ..)
              cases hx.symm.trans hy
      | ok y =>
          rw [ok_bind]
          refine bind_ok_eq_error_iff.trans (ih.trans ?_)
          constructor
          · rintro ⟨before, a, after, rfl, hBefore, ha⟩
            exact ⟨x :: before, a, after, rfl, List.forall_mem_cons.mpr ⟨⟨y, hx⟩, hBefore⟩, ha⟩
          · rintro ⟨before, a, after, hxs, hBefore, ha⟩
            rcases List.cons_eq_append_iff.mp hxs with ⟨rfl, hCons⟩ | ⟨tail, rfl, hRest⟩
            · cases hCons
              cases hx.symm.trans ha
            · exact ⟨tail, a, after, hRest, (List.forall_mem_cons.mp hBefore).2, ha⟩

/-- A run over a list fails at the first member that does not lead on from what the members before
it have led to. -/
theorem foldlM_eq_error_iff {σ : Type} {f : σ → α → Except ε σ} {s : σ} {xs : List α} {e : ε} :
    xs.foldlM f s = .error e ↔
      ∃ before a after t, xs = before ++ a :: after ∧ before.foldlM f s = .ok t ∧
        f t a = .error e := by
  induction xs generalizing s with
  | nil =>
      rw [List.foldlM_nil]
      constructor
      · intro h
        cases h
      · rintro ⟨before, _, _, _, h, _⟩
        simp at h
  | cons x rest ih =>
      rw [List.foldlM_cons, bind_eq_error_iff]
      constructor
      · rintro (hx | ⟨t, hx, hRest⟩)
        · exact ⟨[], x, rest, s, rfl, rfl, hx⟩
        · obtain ⟨before, a, after, u, rfl, hBefore, ha⟩ := ih.mp hRest
          refine ⟨x :: before, a, after, u, rfl, ?_, ha⟩
          rw [List.foldlM_cons, hx, ok_bind, hBefore]
      · rintro ⟨before, a, after, u, hxs, hBefore, ha⟩
        rcases List.cons_eq_append_iff.mp hxs with ⟨rfl, hCons⟩ | ⟨tail, rfl, rfl⟩
        · cases hCons
          cases hBefore
          exact Or.inl ha
        · rw [List.foldlM_cons, bind_eq_ok_iff] at hBefore
          obtain ⟨t, hx, hTail⟩ := hBefore
          exact Or.inr ⟨t, hx, ih.mpr ⟨tail, a, after, u, rfl, hTail, ha⟩⟩

/-- Only the members of the list matter for a traversal. -/
theorem mapM_congr {f g : α → Except ε β} {xs : List α} (h : ∀ a ∈ xs, f a = g a) :
    xs.mapM f = xs.mapM g := by
  induction xs with
  | nil => rfl
  | cons a rest ih =>
      obtain ⟨hHead, hRest⟩ := List.forall_mem_cons.mp h
      rw [List.mapM_cons, List.mapM_cons, hHead, ih hRest]

/-- Traversing each member of a list and joining the results is one traversal. -/
theorem flatten_mapM_mapM (f : β → Except ε γ) (g : α → List β) (xs : List α) :
    (do let ys ← xs.mapM fun a => (g a).mapM f
        return ys.flatten) = (xs.flatMap g).mapM f := by
  induction xs with
  | nil => rfl
  | cons a rest ih =>
      rw [List.flatMap_cons, List.mapM_append, ← ih]
      simp only [List.mapM_cons, bind_assoc, pure_bind, List.flatten_cons]

/-- A fold that appends what each member gives is a traversal whose results are joined. -/
theorem foldlM_append_toArray (f : α → Except ε (List β)) (before : Array β) (xs : List α) :
    xs.foldlM (fun before a => f a >>= fun ys => .ok (before ++ ys.toArray)) before =
      xs.mapM f >>= fun yss => .ok (before ++ yss.flatten.toArray) := by
  induction xs generalizing before with
  | nil => exact congrArg Except.ok (Array.append_empty).symm
  | cons a rest ih =>
      rw [List.foldlM_cons, List.mapM_cons]
      simp only [bind_assoc, ok_bind, pure_bind, ih]
      refine bind_congr fun ys => bind_congr fun yss => ?_
      simp

/-- A traversal that only checks its members ends at the first one that is refused. -/
theorem mapM_check (p : α → Bool) (g : α → β) (e : α → ε) (xs : List α) :
    (xs.mapM fun a => if p a then .ok (g a) else .error (e a) : Except ε (List β)) =
      (xs.find? fun a => !p a).elim (.ok (xs.map g)) fun a => .error (e a) := by
  induction xs with
  | nil => rfl
  | cons a rest ih =>
      rw [List.mapM_cons, ih]
      by_cases h : p a
      · simp only [h, List.find?_cons, Bool.not_true]
        cases rest.find? fun a => !p a <;> rfl
      · simp only [h, List.find?_cons, Bool.not_false]
        rfl

/-- Whether all errors with which a computation can end satisfy a predicate. -/
def FailsOnly (P : ε → Prop) (x : Except ε α) : Prop :=
  ∀ e, x = .error e → P e

namespace FailsOnly

variable {P : ε → Prop}

theorem ok (a : α) : FailsOnly P (.ok a) := by
  intro e h
  cases h

theorem error {e : ε} (h : P e) : FailsOnly P (.error e : Except ε α) := by
  rintro _ ⟨⟩
  exact h

/-- Errors of two steps are those of the first one or of the second one. -/
theorem bind {x : Except ε α} {f : α → Except ε β} (h : FailsOnly P x)
    (hNext : ∀ a, FailsOnly P (f a)) : FailsOnly P (x >>= f) := by
  cases x with
  | error e => exact error (h e rfl)
  | ok a => exact hNext a

theorem mapError {Q : δ → Prop} {f : ε → δ} {x : Except ε α} (h : FailsOnly P x)
    (hError : ∀ e, P e → Q (f e)) : FailsOnly Q (x.mapError f) := by
  cases x with
  | error e => exact error (hError e (h e rfl))
  | ok a => exact ok a

/-- Where each error is turned into a good one, it does not matter where it comes from. -/
theorem of_mapError {Q : δ → Prop} {f : ε → δ} (x : Except ε α) (hError : ∀ e, Q (f e)) :
    FailsOnly Q (x.mapError f) := by
  cases x with
  | error e => exact error (hError e)
  | ok a => exact ok a

/-- A traversal has no errors of its own. -/
theorem mapM {f : α → Except ε β} {xs : List α} (h : ∀ a ∈ xs, FailsOnly P (f a)) :
    FailsOnly P (xs.mapM f) := by
  intro e hError
  obtain ⟨_, a, _, rfl, _, ha⟩ := mapM_eq_error_iff.mp hError
  exact h a (by simp) e ha

end FailsOnly

section TwoRuns

variable {β' γ' ε' δ' : Type} {R : β → β' → Prop} {S : γ → γ' → Prop} {E : ε → ε' → Prop}
  {F : δ → δ' → Prop}

/-- Two computations correspond if both succeed with related results or both fail with related
errors. -/
def Corresponds (E : ε → ε' → Prop) (R : β → β' → Prop) : Except ε β → Except ε' β' → Prop
  | .ok b, .ok b' => R b b'
  | .error e, .error e' => E e e'
  | _, _ => False

namespace Corresponds

variable {x : Except ε β} {y : Except ε' β'}

theorem refl {E : ε → ε → Prop} {R : β → β → Prop} (hError : ∀ e, E e e) (hResult : ∀ b, R b b)
    (x : Except ε β) : Corresponds E R x x := by
  cases x
  · exact hError _
  · exact hResult _

/-- What is known of the results can be weakened. -/
theorem imp {R' : β → β' → Prop} (h : Corresponds E R x y) (hResult : ∀ b b', R b b' → R' b b') :
    Corresponds E R' x y := by
  cases x <;> cases y
  · exact h
  · exact h
  · exact h
  · exact hResult _ _ h

/-- Computations that correspond step by step correspond as a whole. -/
theorem bind (h : Corresponds E R x y) {f : β → Except ε γ} {g : β' → Except ε' γ'}
    (hNext : ∀ b b', R b b' → Corresponds E S (f b) (g b')) :
    Corresponds E S (x >>= f) (y >>= g) := by
  cases x <;> cases y
  · exact h
  · exact h.elim
  · exact h.elim
  · exact hNext _ _ h

/-- Errors may be wrapped on each side in its own way. -/
theorem mapError (h : Corresponds E R x y) {f : ε → δ} {g : ε' → δ'}
    (hError : ∀ e e', E e e' → F (f e) (g e')) :
    Corresponds F R (x.mapError f) (y.mapError g) := by
  cases x <;> cases y
  · exact hError _ _ h
  · exact h.elim
  · exact h.elim
  · exact h

theorem ok_right_iff {b' : β'} :
    Corresponds E R x (.ok b') ↔ ∃ b, x = .ok b ∧ R b b' := by
  cases x <;> simp [Corresponds]

theorem error_right_iff {e' : ε'} :
    Corresponds E R x (.error e') ↔ ∃ e, x = .error e ∧ E e e' := by
  cases x <;> simp [Corresponds]

/-- Traversals of one list correspond if they do on every member. -/
theorem mapM {f : α → Except ε β} {g : α → Except ε' β'} {xs : List α}
    (h : ∀ a ∈ xs, Corresponds E R (f a) (g a)) :
    Corresponds E (List.Forall₂ R) (xs.mapM f) (xs.mapM g) := by
  induction xs with
  | nil => exact List.Forall₂.nil
  | cons a rest ih =>
      obtain ⟨hHead, hRest⟩ := List.forall_mem_cons.mp h
      rw [List.mapM_cons, List.mapM_cons]
      refine hHead.bind fun b b' hb => (ih hRest).bind fun bs bs' hbs => ?_
      exact List.Forall₂.cons hb hbs

end Corresponds

end TwoRuns

end FlowAudit
