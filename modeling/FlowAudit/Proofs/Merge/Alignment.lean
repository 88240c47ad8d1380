import FlowAudit.Proofs.Merge.Directions
import FlowAudit.Proofs.Merge.Summary
/-!
What time alignment gives to each flow: the earliest start and the latest end of its conversation,
and nothing else. Afterwards the flows of a conversation have one span, and tables of this kind are
exactly those that a further alignment leaves as they are.
-/
namespace FlowAudit

/-- The flow `w` is `f` with the span of its conversation in a table. Both ends of the span occur
there, perhaps in different flows. -/
structure Flow.TakesSpan (d : Dataset) (w f : Flow) : Prop where
  key : w.key = f.key
  packets : w.packets = f.packets
  bytes : w.bytes = f.bytes
  flowCount : w.flowCount = f.flowCount
  start : (∃ g ∈ d.related f, g.startTime = w.startTime) ∧
    ∀ g ∈ d.related f, w.startTime ≤ g.startTime
  stop : (∃ g ∈ d.related f, g.endTime = w.endTime) ∧ ∀ g ∈ d.related f, g.endTime ≤ w.endTime

namespace Dataset

theorem mem_related {d : Dataset} {f g : Flow} :
    g ∈ d.related f ↔ g ∈ d ∧ g.key.conversation = f.key.conversation := by
  rw [related, List.mem_filter, decide_eq_true_iff]

theorem self_mem_related {d : Dataset} {f : Flow} (h : f ∈ d) : f ∈ d.related f :=
  mem_related.mpr ⟨h, rfl⟩

theorem related_congr {f g : Flow} (h : f.key.conversation = g.key.conversation) (d : Dataset) :
    d.related f = d.related g := by
  rw [related, related, h]

/-- The span of its conversation is all that a flow can take. -/
theorem widen_eq_iff {d : Dataset} {f w : Flow} (hf : f ∈ d) :
    d.widen f = w ↔ w.TakesSpan d f := by
  constructor
  · rintro rfl
    obtain ⟨hStart, hStop⟩ := Flow.timeBounds?_eq_span_iff.mp (span_widen_of_mem hf).symm
    exact ⟨rfl, rfl, rfl, rfl, hStart, hStop⟩
  · intro h
    have hBounds := Flow.timeBounds?_eq_span_iff.mpr ⟨h.start, h.stop⟩
    have hSpan : (d.widen f).span = w.span := Option.some.inj ((span_widen_of_mem hf).trans hBounds)
    obtain ⟨hStart, hStop⟩ := Prod.mk.inj hSpan
    rw [UInt64.toNat_inj] at hStart hStop
    obtain ⟨key, start, stop, packets, bytes, count⟩ := w
    obtain ⟨rfl, rfl, rfl, rfl, -, -⟩ := h
    obtain ⟨rfl, rfl⟩ := And.intro hStart hStop
    rfl

/-- Whether the flows of each conversation have one time span. -/
def SpansAgree (d : Dataset) : Prop :=
  ∀ f ∈ d, ∀ g ∈ d, f.key.conversation = g.key.conversation →
    f.startTime = g.startTime ∧ f.endTime = g.endTime

/-- A flow with the span of its conversation keeps it. -/
theorem widen_eq_self {d : Dataset} {f : Flow} (hf : f ∈ d)
    (h : ∀ g ∈ d.related f, f.startTime ≤ g.startTime ∧ g.endTime ≤ f.endTime) :
    d.widen f = f := by
  have hSelf := self_mem_related hf
  exact (widen_eq_iff hf).mpr ⟨rfl, rfl, rfl, rfl,
    ⟨⟨f, hSelf, rfl⟩, fun g hg => (h g hg).1⟩, ⟨f, hSelf, rfl⟩, fun g hg => (h g hg).2⟩

/-- After alignment the flows of a conversation have one span, because all of them took the same
one. -/
theorem spansAgree_alignConversations (d : Dataset) : d.alignConversations.SpansAgree := by
  intro w hw w' hw' hSame
  rw [alignConversations_eq] at hw hw'
  obtain ⟨f, hf, rfl⟩ := List.mem_map.mp hw
  obtain ⟨f', hf', rfl⟩ := List.mem_map.mp hw'
  have hSpan : some (d.widen f).span = some (d.widen f').span := by
    rw [span_widen_of_mem hf, span_widen_of_mem hf', related_congr (f := f) (g := f') hSame]
  obtain ⟨hStart, hStop⟩ := Prod.mk.inj (Option.some.inj hSpan)
  exact ⟨UInt64.toNat_inj.mp hStart, UInt64.toNat_inj.mp hStop⟩

/-- The fixed points of alignment. -/
theorem alignConversations_eq_self_iff {d : Dataset} :
    d.alignConversations = d ↔ d.SpansAgree := by
  constructor
  · intro h
    exact h ▸ spansAgree_alignConversations d
  · intro h
    have hKeep : ∀ f ∈ d, d.widen f = f := by
      intro f hf
      refine widen_eq_self hf fun g hg => ?_
      obtain ⟨hMem, hSame⟩ := mem_related.mp hg
      obtain ⟨hStart, hStop⟩ := h g hMem f hf hSame
      exact ⟨hStart ▸ UInt64.le_refl _, hStop ▸ UInt64.le_refl _⟩
    rw [alignConversations_eq, List.map_congr_left hKeep, List.map_id']

/-- A table with the flows of another one, in which each flow has taken the span of its
conversation. The new span contains the old one, and a flow that is alone in its conversation is
the same as before. -/
structure Aligns (aligned d : Dataset) : Prop where
  takes : List.Forall₂ (Flow.TakesSpan d) aligned d
  contains : List.Forall₂ (fun w f => w.startTime ≤ f.startTime ∧ f.endTime ≤ w.endTime) aligned d
  alone : List.Forall₂
    (fun w f => (∀ g ∈ d, g.key.conversation = f.key.conversation → g = f) → w = f) aligned d
  agree : aligned.SpansAgree
  settled : aligned.alignConversations = aligned

/-- What alignment does to a table, flow by flow. -/
theorem aligns_alignConversations (d : Dataset) : d.alignConversations.Aligns d := by
  have hTakes : ∀ f ∈ d, (d.widen f).TakesSpan d f := fun f hf => (widen_eq_iff hf).mp rfl
  have hAgree := spansAgree_alignConversations d
  refine ⟨?_, ?_, ?_, hAgree, alignConversations_eq_self_iff.mpr hAgree⟩
  all_goals rw [alignConversations_eq, List.forall₂_map_left_iff, List.forall₂_same]
  · exact hTakes
  · intro f hf
    have hSelf := self_mem_related hf
    exact ⟨(hTakes f hf).start.2 f hSelf, (hTakes f hf).stop.2 f hSelf⟩
  · intro f hf hAlone
    refine widen_eq_self hf fun g hg => ?_
    obtain ⟨hMem, hSame⟩ := mem_related.mp hg
    rw [hAlone g hMem hSame]
    exact ⟨UInt64.le_refl _, UInt64.le_refl _⟩

/-- Merging with time alignment ends like merging without it. Where it succeeds, there are the same
flows in the same order, and each has the earliest start and the latest end among the merged flows
of its conversation: an interval around its own, one for both directions, its own if it is alone.
Aligning once more changes nothing. -/
theorem merge_takes_spans (flows reference : Dataset) :
    Corresponds Eq Aligns (flows.merge reference true).outcome
      (flows.merge reference false).outcome := by
  rw [outcome_merge, outcome_merge]
  refine Corresponds.bind (.refl (R := Eq) (fun _ => rfl) (fun _ => rfl) _) fun _ _ _ => ?_
  cases flows.mergeByKey with
  | error e => rfl
  | ok merged => exact aligns_alignConversations merged

/-- Both directions of a conversation take the start of one and the end of the other; a flow between
other hosts keeps its times. -/
example :
    let host (n : Nat) : Address := .ofNat .v4 n
    let outward : Flow := ⟨⟨6, host 1, host 2, 1000, 80⟩, 3, 7, 1, 40, none⟩
    let back : Flow := ⟨⟨6, host 2, host 1, 80, 1000⟩, 5, 9, 1, 40, none⟩
    let other : Flow := ⟨⟨6, host 1, host 3, 1000, 80⟩, 1, 8, 1, 40, none⟩
    alignConversations [outward, other, back] =
      [{ outward with endTime := 9 }, other, { back with startTime := 3 }] := by
  decide

end Dataset

end FlowAudit
