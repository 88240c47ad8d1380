import FlowAudit.Proofs.Comparison.Outcomes
import FlowAudit.Proofs.Merge.Conversations
/-!
Which flows get one time span. Exchanging the endpoints of a key leaves its conversation as it is
as long as the addresses differ. Two ports at one address have no smaller address to put first, so
there each direction is a conversation of its own. Beyond the two directions nothing is joined.
-/
namespace FlowAudit

namespace FlowKey

/-- The same key, or the other direction between two different addresses. -/
def JoinedWith (j k : FlowKey) : Prop :=
  j = k ∨ j = k.reverse ∧ k.source ≠ k.destination

instance (j k : FlowKey) : Decidable (j.JoinedWith k) :=
  inferInstanceAs (Decidable (_ ∨ _))

/-- Between two addresses, the smaller one comes first whichever way the flow goes. -/
theorem conversation_reverse {k : FlowKey} (h : k.source ≠ k.destination) :
    k.reverse.conversation = k.conversation := by
  have hSwap : compare k.destination k.source = (compare k.source k.destination).swap :=
    Std.OrientedCmp.eq_swap
  have hDiffer : compare k.source k.destination ≠ .eq :=
    fun hSame => h (Std.LawfulEqOrd.eq_of_compare hSame)
  simp only [conversation, reverse, hSwap]
  cases hOrder : compare k.source k.destination with
  | lt => rfl
  | eq => exact absurd hOrder hDiffer
  | gt => rfl

/-- At one address the ports stay in their order. -/
theorem conversation_of_source_eq_destination {k : FlowKey} (h : k.source = k.destination) :
    k.conversation = ⟨k.source, k.source, k.sourcePort, k.destinationPort, k.protocol⟩ := by
  have hSame : compare k.source k.destination = .eq := by rw [h, Std.ReflOrd.compare_self]
  rw [conversation, hSame, if_neg (by decide), ← h]

/-- At one address both directions are one conversation only if they are the same key. -/
theorem conversation_reverse_eq_iff {k : FlowKey} :
    k.reverse.conversation = k.conversation ↔
      (k.source = k.destination → k.sourcePort = k.destinationPort) := by
  by_cases hAddress : k.source = k.destination
  · rw [conversation_of_source_eq_destination (k := k.reverse) hAddress.symm,
      conversation_of_source_eq_destination hAddress]
    simp [reverse, hAddress, eq_comm]
  · simp [conversation_reverse hAddress, hAddress]

theorem reverse_eq_self {k : FlowKey} (hAddress : k.source = k.destination)
    (hPort : k.sourcePort = k.destinationPort) : k.reverse = k := by
  cases k
  simp_all [reverse]

/-- What a conversation joins, said of keys. -/
theorem conversation_eq_iff {j k : FlowKey} :
    j.conversation = k.conversation ↔ j.JoinedWith k := by
  constructor
  · intro h
    rcases eq_or_eq_reverse_of_conversation_eq h with rfl | rfl
    · exact .inl rfl
    · rw [conversation_reverse_eq_iff] at h
      by_cases hAddress : k.source = k.destination
      · exact .inl (reverse_eq_self hAddress (h hAddress))
      · exact .inr ⟨rfl, hAddress⟩
  · rintro (rfl | ⟨rfl, hAddress⟩)
    · rfl
    · exact conversation_reverse hAddress

end FlowKey

namespace Dataset

/-- Merging by key first does not change the span of a conversation. -/
theorem timeBounds?_related_mergeByKey {d m : Dataset} (h : d.mergeByKey = .ok m) (f : Flow) :
    timeBounds? (m.related f) = timeBounds? (d.filter fun g => g.key.JoinedWith f.key) := by
  have hKey : (fun g : Flow => decide (g.key.conversation = f.key.conversation)).FactorsThrough
      Flow.key := by
    intro g g' hSame
    simp only [hSame]
  have hTraffic := sameTraffic_mergeByKey h hKey
  simp only [FlowKey.conversation_eq_iff] at hTraffic
  rw [related, ← hTraffic.timeBounds]
  simp only [FlowKey.conversation_eq_iff]

/-- With time alignment, merging gives the same flows or the same error as without, except that
each flow takes the earliest start and the latest end among the probe flows of its key and of the
opposite key. The opposite key is left out exactly for two ports at one address, and no third key
is ever taken in. -/
theorem merge_joins_directions (flows reference : Dataset) :
    (∀ k : FlowKey, k.reverse.conversation = k.conversation ↔
      (k.source = k.destination → k.sourcePort = k.destinationPort)) ∧
    (∀ j k : FlowKey, j.conversation = k.conversation ↔ j.JoinedWith k) ∧
    Corresponds Eq
      (List.Forall₂ fun w f =>
        w = { f with startTime := w.startTime, endTime := w.endTime } ∧
          some w.span = timeBounds? (flows.filter fun g => g.key.JoinedWith f.key))
      (flows.merge reference true).outcome (flows.merge reference false).outcome := by
  refine ⟨fun k => FlowKey.conversation_reverse_eq_iff, fun j k => FlowKey.conversation_eq_iff, ?_⟩
  rw [outcome_merge, outcome_merge]
  refine Corresponds.bind (.refl (R := Eq) (fun _ => rfl) (fun _ => rfl) _) fun _ _ _ => ?_
  cases hMerged : flows.mergeByKey with
  | error e => rfl
  | ok merged =>
      change List.Forall₂ _ merged.alignConversations merged
      rw [alignConversations_eq, List.forall₂_map_left_iff, List.forall₂_same]
      intro f hf
      exact ⟨rfl, by rw [span_widen_of_mem hf, timeBounds?_related_mergeByKey hMerged]⟩

/-- Flows between two ports of one address keep their own times in each direction. -/
theorem merge_one_address :
    let key : FlowKey := ⟨6, .ofNat .v4 0x0a000001, .ofNat .v4 0x0a000001, 1000, 80⟩
    key.reverse.conversation ≠ key.conversation ∧
      (merge [⟨key, 0, 10, 2, 200, none⟩, ⟨key.reverse, 5, 20, 3, 300, none⟩] [] true).outcome =
        .ok [⟨key.reverse, 5, 20, 3, 300, some 1⟩, ⟨key, 0, 10, 2, 200, some 1⟩] := by
  decide

end Dataset

end FlowAudit
