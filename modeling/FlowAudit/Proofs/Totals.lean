import FlowAudit.Dataset
import Mathlib
/-!
Totals and time bounds of tables. Packets and bytes are kept together as the volume of a table, so
that a law of both counters is stated and proved once.
-/
namespace FlowAudit

/-- The packets and bytes of a flow as exact numbers. -/
def Flow.volume (f : Flow) : Nat × Nat :=
  (f.packets.toNat, f.bytes.toNat)

/-- When a flow starts and when it ends. -/
def Flow.span (f : Flow) : Nat × Nat :=
  (f.startTime.toNat, f.endTime.toNat)

/-- The shortest span that holds two others. -/
def joinSpans (s t : Nat × Nat) : Nat × Nat :=
  (min s.1 t.1, max s.2 t.2)

instance : Std.Associative joinSpans where
  assoc _ _ _ := Prod.ext (Nat.min_assoc ..) (Nat.max_assoc ..)

/-- Absent spans, those of empty tables, change nothing. -/
theorem merge_joinSpans_assoc (s t u : Option (Nat × Nat)) :
    Option.merge joinSpans (Option.merge joinSpans s t) u =
      Option.merge joinSpans s (Option.merge joinSpans t u) :=
  Std.Associative.assoc s t u

namespace Dataset

/-- The packets and bytes of all flows. -/
def volume (d : Dataset) : Nat × Nat :=
  (d.map Flow.volume).sum

@[simp] theorem volume_nil : volume [] = 0 := rfl

@[simp] theorem volume_cons (f : Flow) (d : Dataset) : volume (f :: d) = f.volume + volume d :=
  List.sum_cons

@[simp] theorem volume_append (d e : Dataset) : volume (d ++ e) = volume d + volume e := by
  rw [volume, List.map_append, List.sum_append]
  rfl

/-- The volume of joined tables is the sum of their volumes. -/
theorem volume_flatten (ds : List Dataset) : volume ds.flatten = (ds.map volume).sum := by
  induction ds with
  | nil => rfl
  | cons d ds ih => rw [List.flatten_cons, volume_append, ih, List.map_cons, List.sum_cons]

/-- The volume of a table has its two totals. -/
theorem volume_eq (d : Dataset) : d.volume = (d.totalPackets, d.totalBytes) := by
  induction d with
  | nil => rfl
  | cons f d ih =>
      rw [volume_cons, ih]
      rfl

theorem volume_perm {d e : Dataset} (h : d.Perm e) : volume d = volume e :=
  (h.map Flow.volume).sum_eq

/-- Some of the flows have no larger totals than all of them. -/
theorem totals_le_of_sublist {d e : Dataset} (h : d.Sublist e) :
    d.totalPackets ≤ e.totalPackets ∧ d.totalBytes ≤ e.totalBytes := by
  obtain ⟨rest, hPerm⟩ := h.exists_perm_append
  have hVolume : d.volume ≤ e.volume := by
    rw [volume_perm hPerm, volume_append]
    exact le_self_add
  rwa [volume_eq, volume_eq, Prod.mk_le_mk] at hVolume

/-- Each flow is counted on exactly one side of a condition. -/
theorem volume_filter_add_volume_filter_not (d : Dataset) (p : Flow → Bool) :
    volume (d.filter p) + volume (d.filter fun f => !p f) = d.volume := by
  induction d with
  | nil => rfl
  | cons f d ih =>
      rw [volume_cons, ← ih]
      by_cases h : p f
      · simp [h, add_assoc]
      · simp [h, add_left_comm]

/-- A table has no volume iff none of its flows has a packet or a byte. -/
theorem volume_eq_zero_iff {d : Dataset} :
    d.volume = 0 ↔ ∀ f ∈ d, f.packets = 0 ∧ f.bytes = 0 := by
  induction d with
  | nil => simp
  | cons f d ih =>
      have hFlow : f.volume = 0 ↔ f.packets = 0 ∧ f.bytes = 0 := by
        rw [Flow.volume, Prod.mk_eq_zero, ← UInt64.toNat_inj, ← UInt64.toNat_inj]
        rfl
      rw [volume_cons, List.forall_mem_cons, ← ih, ← hFlow]
      simp only [Prod.ext_iff, Prod.fst_add, Prod.snd_add, Prod.fst_zero, Prod.snd_zero]
      omega

/-- The bounds are the earliest start and the latest end that occur. -/
theorem timeBounds?_eq_some_iff {d : Dataset} {start stop : Nat} :
    d.timeBounds? = some (start, stop) ↔
      ((∃ f ∈ d, f.startTime.toNat = start) ∧ ∀ f ∈ d, start ≤ f.startTime.toNat) ∧
        (∃ f ∈ d, f.endTime.toNat = stop) ∧ ∀ f ∈ d, f.endTime.toNat ≤ stop := by
  have hMin := @List.min?_eq_some_iff _ start _ _ (d.map fun f => f.startTime.toNat) _ _
  have hMax := @List.max?_eq_some_iff _ stop _ _ (d.map fun f => f.endTime.toNat) _ _
  simp only [List.mem_map, forall_exists_index, and_imp, forall_apply_eq_imp_iff₂] at hMin hMax
  rw [← hMin, ← hMax, timeBounds?]
  cases (d.map fun f => f.startTime.toNat).min? <;>
    cases (d.map fun f => f.endTime.toNat).max? <;> simp

theorem timeBounds?_eq_none_iff {d : Dataset} : d.timeBounds? = none ↔ d = [] := by
  cases d with
  | nil => simp [timeBounds?]
  | cons f d => simp [timeBounds?]

/-- One more flow joins its span to the bounds. -/
theorem timeBounds?_cons (f : Flow) (d : Dataset) :
    timeBounds? (f :: d) = Option.merge joinSpans (some f.span) (timeBounds? d) := by
  simp only [timeBounds?, List.map_cons, List.min?_cons, List.max?_cons]
  cases d with
  | nil => rfl
  | cons g d =>
      simp only [List.map_cons, List.min?_cons, List.max?_cons]
      rfl

/-- The bounds of two tables together are their bounds, joined. -/
theorem timeBounds?_append (d e : Dataset) :
    timeBounds? (d ++ e) = Option.merge joinSpans (timeBounds? d) (timeBounds? e) := by
  induction d with
  | nil => simp [timeBounds?]
  | cons f d ih =>
      rw [List.cons_append, timeBounds?_cons, ih, timeBounds?_cons, merge_joinSpans_assoc]

theorem timeBounds?_perm {d e : Dataset} (h : d.Perm e) : timeBounds? d = timeBounds? e := by
  ext ⟨start, stop⟩
  simp only [timeBounds?_eq_some_iff, h.mem_iff]

/-- For each flow of the second table, some flow of the first one starts no later and some flow
ends no earlier. -/
def Spans (d e : Dataset) : Prop :=
  ∀ f ∈ e, (∃ g ∈ d, g.startTime.toNat ≤ f.startTime.toNat) ∧
    ∃ g ∈ d, f.endTime.toNat ≤ g.endTime.toNat

/-- Tables that span each other have the same bounds. -/
theorem Spans.timeBounds {d e : Dataset} (hd : d.Spans e) (he : e.Spans d) {start stop : Nat}
    (h : timeBounds? d = some (start, stop)) : timeBounds? e = some (start, stop) := by
  rw [timeBounds?_eq_some_iff] at h ⊢
  obtain ⟨⟨⟨f, hf, hStart⟩, hLeast⟩, ⟨g, hg, hStop⟩, hMost⟩ := h
  have hFirst : ∀ x ∈ e, start ≤ x.startTime.toNat := by
    intro x hx
    obtain ⟨⟨y, hy, hLe⟩, _⟩ := hd x hx
    exact Nat.le_trans (hLeast y hy) hLe
  have hLast : ∀ x ∈ e, x.endTime.toNat ≤ stop := by
    intro x hx
    obtain ⟨_, y, hy, hLe⟩ := hd x hx
    exact Nat.le_trans hLe (hMost y hy)
  obtain ⟨⟨x, hx, hxf⟩, _⟩ := he f hf
  obtain ⟨_, y, hy, hyg⟩ := he g hg
  exact ⟨⟨⟨x, hx, Nat.le_antisymm (hStart ▸ hxf) (hFirst x hx)⟩, hFirst⟩,
    ⟨y, hy, Nat.le_antisymm (hLast y hy) (hStop ▸ hyg)⟩, hLast⟩

theorem timeBounds?_eq_of_spans {d e : Dataset} (hd : d.Spans e) (he : e.Spans d) :
    timeBounds? d = timeBounds? e := by
  ext ⟨start, stop⟩
  exact ⟨hd.timeBounds he, he.timeBounds hd⟩

/-- Two tables agree in all that totals, rates and durations are computed from. -/
structure SameTraffic (d e : Dataset) : Prop where
  volume : volume d = volume e
  timeBounds : timeBounds? d = timeBounds? e

namespace SameTraffic

theorem refl (d : Dataset) : SameTraffic d d := ⟨rfl, rfl⟩

theorem of_perm {d e : Dataset} (h : d.Perm e) : SameTraffic d e :=
  ⟨volume_perm h, timeBounds?_perm h⟩

theorem symm {d e : Dataset} (h : SameTraffic d e) : SameTraffic e d :=
  ⟨h.volume.symm, h.timeBounds.symm⟩

theorem trans {d e g : Dataset} (h : SameTraffic d e) (h' : SameTraffic e g) : SameTraffic d g :=
  ⟨h.volume.trans h'.volume, h.timeBounds.trans h'.timeBounds⟩

/-- Tables of the same traffic can take each other's place inside a larger table. -/
theorem append {d d' e e' : Dataset} (h : SameTraffic d d') (h' : SameTraffic e e') :
    SameTraffic (d ++ e) (d' ++ e') := by
  constructor
  · rw [volume_append, volume_append, h.volume, h'.volume]
  · rw [timeBounds?_append, timeBounds?_append, h.timeBounds, h'.timeBounds]

end SameTraffic

theorem sameTraffic_uncounted (f : Flow) : SameTraffic [f.uncounted] [f] := ⟨rfl, rfl⟩

end Dataset

end FlowAudit
