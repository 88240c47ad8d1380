import FlowAudit.Proofs.Merge.ByKey
/-!
Time alignment of conversations. A conversation has at most two keys, one for each direction. The
span that is collected for it is the hull of its flows, and every flow takes that hull. So a part of
the table that holds conversations as a whole keeps its totals and its time bounds.
-/
namespace FlowAudit

/-- A conversation has at most two keys, one for each direction. -/
theorem FlowKey.eq_or_eq_reverse_of_conversation_eq {k j : FlowKey}
    (h : k.conversation = j.conversation) : k = j ∨ k = j.reverse := by
  cases k
  cases j
  unfold conversation at h
  split at h
  · split at h
    · simp_all
    · simp_all [reverse]
  · split at h
    · simp_all [reverse]
    · simp_all

namespace Dataset

/-- The flows of the conversation of a flow. -/
def related (d : Dataset) (f : Flow) : Dataset :=
  d.filter fun g => g.key.conversation = f.key.conversation

/-- The flow with the earliest start and the latest end among all flows of its conversation. -/
def widen (d : Dataset) (f : Flow) : Flow :=
  { f with
    startTime := ((d.related f).map Flow.startTime).foldl min f.startTime
    endTime := ((d.related f).map Flow.endTime).foldl max f.endTime }

theorem volume_map_widen (d e : Dataset) : volume (e.map d.widen) = e.volume := by
  rw [volume, List.map_map]
  rfl

theorem span_widen (d : Dataset) (f : Flow) :
    some (d.widen f).span = timeBounds? (f :: d.related f) :=
  (Flow.timeBounds?_eq_span_hull f (d.related f)).symm

theorem timeBounds?_cons_of_mem {d : Dataset} {f : Flow} (h : f ∈ d) :
    timeBounds? (f :: d) = timeBounds? d := by
  ext ⟨start, stop⟩
  have hMem : ∀ g, g ∈ f :: d ↔ g ∈ d := by simp_all
  simp only [timeBounds?_eq_some_iff, hMem]

/-- Within a table, the new span of a flow is that of its conversation. -/
theorem span_widen_of_mem {d : Dataset} {f : Flow} (h : f ∈ d) :
    some (d.widen f).span = timeBounds? (d.related f) := by
  have hRelated : f ∈ d.related f := List.mem_filter.mpr ⟨h, decide_eq_true rfl⟩
  rw [span_widen, timeBounds?_cons_of_mem hRelated]

/-- The span that a table of spans has for a conversation, in exact numbers. -/
def spanOf? (spans : List (Conversation × UInt64 × UInt64)) (c : Conversation) :
    Option (Nat × Nat) :=
  (spans.lookup c).map fun span => (span.1.toNat, span.2.toNat)

/-- The first entry of a conversation is the one that counts. -/
theorem spanOf?_cons (c c' : Conversation) (start stop : UInt64)
    (rest : List (Conversation × UInt64 × UInt64)) :
    spanOf? ((c', start, stop) :: rest) c =
      if c = c' then some (start.toNat, stop.toNat) else spanOf? rest c := by
  rw [spanOf?, List.lookup_cons]
  by_cases h : c = c'
  · rw [if_pos h, beq_iff_eq.mpr h]
    rfl
  · rw [if_neg h, beq_eq_false_iff_ne.mpr h]
    rfl

/-- A flow extends the span of its own conversation and no other one. -/
theorem spanOf?_extendSpans (f : Flow) (spans : List (Conversation × UInt64 × UInt64))
    (c : Conversation) :
    spanOf? (extendSpans f spans) c =
      if f.key.conversation = c then Option.merge joinSpans (spanOf? spans c) (some f.span)
      else spanOf? spans c := by
  induction spans with
  | nil =>
      rw [extendSpans, spanOf?_cons]
      simp [spanOf?, eq_comm, Flow.span]
  | cons entry rest ih =>
      obtain ⟨c', start, stop⟩ := entry
      rw [extendSpans]
      by_cases hKnown : c' = f.key.conversation
      · rw [if_pos hKnown, spanOf?_cons, spanOf?_cons]
        by_cases hSame : c = c'
        · simp [hSame, hKnown, joinSpans, Flow.span, Word.toNat_min, Word.toNat_max]
        · have hOther : f.key.conversation ≠ c := fun h => hSame (h ▸ hKnown).symm
          rw [if_neg hSame, if_neg hSame, if_neg hOther]
      · rw [if_neg hKnown, spanOf?_cons, spanOf?_cons, ih]
        by_cases hSame : c = c'
        · have hOther : f.key.conversation ≠ c := fun h => hKnown (hSame ▸ h.symm)
          rw [if_pos hSame, if_pos hSame, if_neg hOther]
        · rw [if_neg hSame, if_neg hSame]

/-- The flows of a conversation extend its span one after the other, so all of them are in it. -/
theorem spanOf?_foldl_extendSpans (d : Dataset) (spans : List (Conversation × UInt64 × UInt64))
    (c : Conversation) :
    spanOf? (d.foldl (fun spans f => extendSpans f spans) spans) c =
      Option.merge joinSpans (spanOf? spans c)
        (timeBounds? (d.filter fun g => g.key.conversation = c)) := by
  induction d generalizing spans with
  | nil => simp [timeBounds?]
  | cons f d ih =>
      rw [List.foldl_cons, ih, spanOf?_extendSpans]
      by_cases hSame : f.key.conversation = c
      · rw [if_pos hSame, List.filter_cons_of_pos (by simpa using hSame), timeBounds?_cons,
          merge_joinSpans_assoc]
      · rw [if_neg hSame, List.filter_cons_of_neg (by simpa using hSame)]

/-- What is looked up for a flow is the hull of its conversation. -/
theorem alignConversations_eq (d : Dataset) : d.alignConversations = d.map d.widen := by
  refine List.map_congr_left fun f hf => ?_
  have hSpan : spanOf? d.conversationSpans f.key.conversation = some (d.widen f).span := by
    rw [span_widen_of_mem hf, conversationSpans, spanOf?_foldl_extendSpans]
    exact Option.merge_none_left ..
  obtain ⟨⟨start, stop⟩, hLookup, hEq⟩ := Option.map_eq_some_iff.mp hSpan
  have hStart : start = (d.widen f).startTime := UInt64.toNat_inj.mp (congrArg Prod.fst hEq)
  have hStop : stop = (d.widen f).endTime := UInt64.toNat_inj.mp (congrArg Prod.snd hEq)
  rw [hLookup, hStart, hStop]
  rfl

/-- The new span of a flow reaches around its conversation, and both of its ends occur there. -/
theorem widen_spans (d : Dataset) (f : Flow) :
    Spans [d.widen f] (f :: d.related f) ∧ Spans (f :: d.related f) [d.widen f] := by
  obtain ⟨⟨⟨g, hg, hStart⟩, hLeast⟩, ⟨g', hg', hStop⟩, hMost⟩ :=
    timeBounds?_eq_some_iff.mp (span_widen d f).symm
  constructor
  · intro x hx
    exact ⟨⟨_, List.mem_singleton_self _, hLeast x hx⟩, _, List.mem_singleton_self _, hMost x hx⟩
  · intro x hx
    rw [List.mem_singleton.mp hx]
    exact ⟨⟨g, hg, hStart.le⟩, g', hg', hStop.ge⟩

/-- A part of the table that holds conversations as a whole is not affected by alignment. -/
theorem sameTraffic_alignConversations (d : Dataset) {p : Flow → Bool}
    (hp : p.FactorsThrough fun f => f.key.conversation) :
    SameTraffic (d.alignConversations.filter p) (d.filter p) := by
  have hWiden : p ∘ d.widen = p := funext fun f => hp rfl
  rw [alignConversations_eq, List.filter_map, hWiden]
  refine ⟨volume_map_widen d _, timeBounds?_eq_of_spans ?_ ?_⟩
  · intro f hf
    obtain ⟨⟨g, hg, hStart⟩, g', hg', hStop⟩ := (widen_spans d f).1 f (List.mem_cons_self ..)
    rw [List.mem_singleton.mp hg] at hStart
    rw [List.mem_singleton.mp hg'] at hStop
    have hMem := List.mem_map_of_mem (f := d.widen) hf
    exact ⟨⟨_, hMem, hStart⟩, _, hMem, hStop⟩
  · rintro _ hx
    obtain ⟨f, hf, rfl⟩ := List.mem_map.mp hx
    have hMem : ∀ g ∈ f :: d.related f, g ∈ d.filter p := by
      intro g hg
      rcases List.mem_cons.mp hg with rfl | hg
      · exact hf
      · obtain ⟨hd, hSame⟩ := List.mem_filter.mp hg
        rw [List.mem_filter, hp (of_decide_eq_true hSame)]
        exact ⟨hd, (List.mem_filter.mp hf).2⟩
    obtain ⟨⟨g, hg, hStart⟩, g', hg', hStop⟩ :=
      (widen_spans d f).2 _ (List.mem_singleton_self _)
    exact ⟨⟨g, hMem g hg, hStart⟩, g', hMem g' hg', hStop⟩

end Dataset

end FlowAudit
