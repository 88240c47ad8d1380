import FlowAudit.Proofs.Replication.Blocks
/-!
How far apart the flows of one key are after merging across loops. A cut looks only at the flow
right before it, so a long flow that encloses the next one can outlast the cut. The flows that come
out are separated by the timeout iff no cut has such a flow before it.
-/
namespace FlowAudit

/-- One of two flows starts at least the timeout after the other has ended. -/
def Flow.SeparatedBy (t : UInt64) (f g : Flow) : Prop :=
  f.endTime.toNat + t.toNat ≤ g.startTime.toNat ∨ g.endTime.toNat + t.toNat ≤ f.startTime.toNat

instance (t : UInt64) (f g : Flow) : Decidable (f.SeparatedBy t g) :=
  inferInstanceAs (Decidable (_ ∨ _))

/-- What starts after a cut is separated from every earlier flow, not only from the last one. -/
def CutsAreClean (t : UInt64) (flows : List Flow) : Prop :=
  ∀ before x y after, flows = before ++ x :: y :: after → hasExpired (some t) x y →
    ∀ f ∈ before, f.SeparatedBy t y

theorem cutsAreClean_nil (t : UInt64) : CutsAreClean t [] := by
  intro before x y after hEq
  simp at hEq

/-- A flow has expired iff the timeout ends before the next flow starts, or just then. -/
theorem hasExpired_some_iff {t : UInt64} {f g : Flow} :
    hasExpired (some t) f g ↔ f.endTime.toNat + t.toNat ≤ g.startTime.toNat := by
  simp only [hasExpired, gapExpires, Option.any_some, decide_eq_true_eq]
  omega

theorem startTime_blockFlow {b : Flow × List Flow} (h : StartSorted (blockMembers b)) :
    (blockFlow b).startTime = b.1.startTime :=
  Flow.startTime_hull_of_le h.head_le

theorem endTime_blockFlow_cons (a b : Flow) (more : List Flow) :
    (blockFlow (a, b :: more)).endTime.toNat =
      max a.endTime.toNat (blockFlow (b, more)).endTime.toNat :=
  (congrArg UInt64.toNat (Flow.endTime_hull_cons a b more)).trans (Word.toNat_max _ _)

section Timeout

variable {t : UInt64}

/-- A block that begins with a flow which the cache gives up at once has no other member. -/
theorem endTime_blockFlow_of_expired {flows : List Flow} {b : Flow × List Flow}
    (hSorted : StartSorted flows) (hb : b ∈ cutWhere (hasExpired (some t)) flows)
    (hExpired : b.1.endTime.toNat + t.toNat ≤ b.1.startTime.toNat) :
    (blockFlow b).endTime = b.1.endTime := by
  have hBlock := hSorted.of_mem_cutWhere hb
  have hChain := isChain_of_mem_cutWhere _ hb
  obtain ⟨f, more⟩ := b
  cases more with
  | nil => rfl
  | cons g more =>
      have hLe : f.startTime.toNat ≤ g.startTime.toNat := hBlock.head_le g (List.mem_cons_self ..)
      have hKept : hasExpired (some t) f g = false := (List.isChain_cons_cons.mp hChain).1
      have hCut : hasExpired (some t) f g = true :=
        hasExpired_some_iff.mpr (Nat.le_trans hExpired hLe)
      rw [hKept] at hCut
      cases hCut

/-- A flow that is cut off in front of a list is separated from all that follows. -/
theorem separatedBy_of_cut {a b c : Flow} (hCut : hasExpired (some t) a b)
    (hLater : b.startTime.toNat ≤ c.startTime.toNat) : a.SeparatedBy t c :=
  Or.inl (Nat.le_trans (hasExpired_some_iff.mp hCut) hLater)

/-- A block that grows at its front by a flow that is not cut off is separated from a later block
iff both the block and the new flow are. For the flow, the first member of the later block
decides. -/
theorem separatedBy_grow_iff {a b : Flow} {more : List Flow} {c : Flow × List Flow}
    (hKept : hasExpired (some t) a b = false)
    (hBlock : StartSorted (blockMembers (a, b :: more))) (hLater : StartSorted (blockMembers c))
    (hInstant : c.1.endTime.toNat + t.toNat ≤ c.1.startTime.toNat →
      (blockFlow c).endTime = c.1.endTime)
    (hOrder : b.startTime.toNat ≤ c.1.startTime.toNat)
    (hOrdered : c.1.startTime.toNat ≤ c.1.endTime.toNat) :
    (blockFlow (a, b :: more)).SeparatedBy t (blockFlow c) ↔
      a.SeparatedBy t c.1 ∧ (blockFlow (b, more)).SeparatedBy t (blockFlow c) := by
  have hCut : ¬a.endTime.toNat + t.toNat ≤ b.startTime.toNat := by
    rw [← hasExpired_some_iff, hKept]
    exact Bool.false_ne_true
  have hFirst : a.startTime.toNat ≤ b.startTime.toNat := hBlock.head_le b (List.mem_cons_self ..)
  have hTail : StartSorted (blockMembers (b, more)) := hBlock.tail
  have hEnd : c.1.endTime.toNat ≤ (blockFlow c).endTime.toNat := Flow.endTime_le_hull c.1 c.2
  simp only [Flow.SeparatedBy, startTime_blockFlow hBlock, startTime_blockFlow hTail,
    startTime_blockFlow hLater, endTime_blockFlow_cons]
  constructor
  · omega
  · rintro ⟨hFlow | hFlow, hRest⟩
    · omega
    · -- Only an instant at the very start of the block can end before the new flow starts.
      have hSpan := congrArg UInt64.toNat (hInstant (by omega))
      omega

/-- A flow in front of a list adds one condition for each cut in the list. -/
theorem cutsAreClean_cons {a : Flow} {flows : List Flow} :
    CutsAreClean t (a :: flows) ↔
      (∀ c ∈ (cutWhere (hasExpired (some t)) flows).tail, a.SeparatedBy t c.1) ∧
        CutsAreClean t flows := by
  constructor
  · intro hClean
    constructor
    · intro c hc
      obtain ⟨before, x, after, hEq, hCut⟩ :=
        (mem_tail_cutWhere_iff _).mp (List.mem_map_of_mem (f := Prod.fst) hc)
      refine hClean (a :: before) x c.1 after ?_ hCut a (List.mem_cons_self ..)
      rw [hEq, List.cons_append]
    · intro before x y after hEq hCut f hf
      refine hClean (a :: before) x y after ?_ hCut f (List.mem_cons_of_mem _ hf)
      rw [hEq, List.cons_append]
  · rintro ⟨hHead, hClean⟩ before x y after hEq hCut f hf
    cases before with
    | nil => cases hf
    | cons first before =>
        rw [List.cons_append, List.cons.injEq] at hEq
        obtain ⟨rfl, hEq⟩ := hEq
        rcases List.mem_cons.mp hf with rfl | hf
        · obtain ⟨c, hc, rfl⟩ :=
            List.mem_map.mp ((mem_tail_cutWhere_iff _).mpr ⟨before, x, after, hEq, hCut⟩)
          exact hHead c hc
        · exact hClean before x y after hEq hCut f hf

/-- The blocks of flows in the order of their start. -/
theorem pairwise_separatedBy_cutWhere_iff {flows : List Flow} (hSorted : StartSorted flows)
    (hOrdered : ∀ f ∈ flows, f.startTime ≤ f.endTime) :
    ((cutWhere (hasExpired (some t)) flows).map blockFlow).Pairwise (Flow.SeparatedBy t) ↔
      CutsAreClean t flows := by
  induction flows with
  | nil => exact iff_of_true List.Pairwise.nil (cutsAreClean_nil t)
  | cons a rest ih =>
      cases rest with
      | nil =>
          rw [cutsAreClean_cons]
          exact iff_of_true (List.pairwise_singleton _ _) ⟨by simp [cutWhere], cutsAreClean_nil t⟩
      | cons b rest =>
          obtain ⟨more, blocks, hEq, hCons⟩ := cutWhere_cons_cons (hasExpired (some t)) a b rest
          have hRest := hSorted.tail
          have hOrderedRest := (List.forall_mem_cons.mp hOrdered).2
          have hBlocks : ∀ c ∈ (b, more) :: blocks,
              c ∈ cutWhere (hasExpired (some t)) (b :: rest) := fun c hc => hEq ▸ hc
          have hAfter : ∀ c ∈ (b, more) :: blocks, b.startTime.toNat ≤ c.1.startTime.toNat :=
            fun c hc => hRest.head_le_of_mem_cutWhere (hBlocks c hc)
          rw [cutsAreClean_cons, ← ih hRest hOrderedRest, hCons, hEq, List.tail_cons]
          split
          · -- A cut separates `a` from all that follows, so it adds no condition.
            next hCut =>
              have hBlock : ∀ c ∈ (b, more) :: blocks, a.SeparatedBy t (blockFlow c) := by
                intro c hc
                refine separatedBy_of_cut hCut ?_
                rw [startTime_blockFlow (hRest.of_mem_cutWhere (hBlocks c hc))]
                exact hAfter c hc
              have hFirst : ∀ c ∈ blocks, a.SeparatedBy t c.1 := fun c hc =>
                separatedBy_of_cut hCut (hAfter c (List.mem_cons_of_mem _ hc))
              rw [List.map_cons, List.pairwise_cons, List.forall_mem_map]
              exact and_congr_left' (iff_of_true hBlock hFirst)
          · -- Without a cut the first block grows by `a`, which has to be separated as well.
            next hCut =>
              have hKept : hasExpired (some t) a b = false := by simpa using hCut
              have hWhole : (a, b :: more) ∈ cutWhere (hasExpired (some t)) (a :: b :: rest) := by
                rw [hCons, if_neg hCut]
                exact List.mem_cons_self ..
              have hGrow : ∀ c ∈ blocks, (blockFlow (a, b :: more)).SeparatedBy t (blockFlow c) ↔
                  a.SeparatedBy t c.1 ∧ (blockFlow (b, more)).SeparatedBy t (blockFlow c) := by
                intro c hc
                have hMem := hBlocks c (List.mem_cons_of_mem _ hc)
                have hFlow := hOrderedRest c.1 (fst_mem_of_mem_cutWhere _ hMem)
                exact separatedBy_grow_iff hKept (hSorted.of_mem_cutWhere hWhole)
                  (hRest.of_mem_cutWhere hMem) (endTime_blockFlow_of_expired hRest hMem)
                  (hAfter c (List.mem_cons_of_mem _ hc)) (UInt64.le_iff_toNat_le.mp hFlow)
              rw [List.map_cons, List.map_cons, List.pairwise_cons, List.pairwise_cons,
                List.forall_mem_map, List.forall_mem_map, forall₂_congr hGrow, forall₂_and,
                and_assoc]

/-- With a timeout, the flows of one key that merging across loops leaves are separated by it iff
every cut in the start order of a key is clean. -/
theorem separated_mergeAcrossLoops_iff {flows out : List Flow}
    (hOrdered : ∀ f ∈ flows, f.startTime ≤ f.endTime)
    (h : mergeAcrossLoops flows (some t) = .ok out) :
    (out.Pairwise fun f g => f.key = g.key → f.SeparatedBy t g) ↔
      ∀ k, CutsAreClean t (byStart (flows.filter fun f => f.key = k)) := by
  obtain ⟨_, rfl⟩ := mergeAcrossLoops_eq_ok_iff.mp h
  have hMember : ∀ k, ∀ f ∈ byStart (flows.filter fun f => f.key = k), f ∈ flows ∧ f.key = k := by
    intro k f hf
    simpa using (byStart_perm _).mem_iff.mp hf
  have hKey : ∀ k, ∀ f ∈ (cutWhere (hasExpired (some t))
      (byStart (flows.filter fun f => f.key = k))).map blockFlow, f.key = k := by
    intro k f hf
    obtain ⟨b, hb, rfl⟩ := List.mem_map.mp hf
    exact (hMember k b.1 (fst_mem_of_mem_cutWhere _ hb)).2
  have hGroup : ∀ k, (((cutWhere (hasExpired (some t))
      (byStart (flows.filter fun f => f.key = k))).map blockFlow).Pairwise fun f g =>
        f.key = g.key → f.SeparatedBy t g) ↔
      CutsAreClean t (byStart (flows.filter fun f => f.key = k)) := by
    intro k
    rw [← pairwise_separatedBy_cutWhere_iff (startSorted_byStart _) fun f hf =>
      hOrdered f (hMember k f hf).1]
    refine List.Pairwise.iff_of_mem fun {f g} hf hg => ?_
    exact forall_prop_of_true ((hKey k f hf).trans (hKey k g hg).symm)
  rw [cacheBlocks, groupBy_eq, List.flatMap_map, List.map_flatMap, List.pairwise_flatMap]
  constructor
  · rintro ⟨hSame, _⟩ k
    by_cases hk : k ∈ distinctKeys Flow.key flows
    · exact (hGroup k).mp (hSame k hk)
    · have hNone : (flows.filter fun f => f.key = k) = [] := by
        refine List.filter_eq_nil_iff.mpr fun f hf hEq => hk ?_
        exact mem_distinctKeys.mpr ⟨f, hf, of_decide_eq_true hEq⟩
      rw [hNone, (byStart_perm []).eq_nil]
      exact cutsAreClean_nil t
  · intro hClean
    refine ⟨fun k _ => (hGroup k).mpr (hClean k), ?_⟩
    refine (nodup_distinctKeys Flow.key flows).imp fun hNe f hf g hg hEq => ?_
    exact absurd ((hKey _ f hf).symm.trans (hEq.trans (hKey _ g hg))) hNe

end Timeout

/-- The first flow encloses the second one and ends long before the third one starts. -/
theorem mergeAcrossLoops_enclosed_separated :
    let key : FlowKey := ⟨17, .ofNat .v4 0x0a000001, .ofNat .v4 0x0a000002, 5000, 53⟩
    let flows : List Flow :=
      [⟨key, 0, 1000, 2, 200, none⟩, ⟨key, 500, 700, 2, 200, none⟩, ⟨key, 2000, 2100, 2, 200, none⟩]
    let out : List Flow := [⟨key, 0, 1000, 4, 400, none⟩, ⟨key, 2000, 2100, 2, 200, none⟩]
    (∀ f ∈ flows, f.startTime ≤ f.endTime) ∧ mergeAcrossLoops flows (some 50) = .ok out ∧
      (out.Pairwise fun f g => f.key = g.key → f.SeparatedBy 50 g) ∧
      ∀ k, CutsAreClean 50 (byStart (flows.filter fun f => f.key = k)) := by
  intro key flows out
  have hOrdered : ∀ f ∈ flows, f.startTime ≤ f.endTime := by decide
  have hMerged : mergeAcrossLoops flows (some 50) = .ok out := by
    simp only [flows, key, out]
    cbv
  have hSeparated : out.Pairwise fun f g => f.key = g.key → f.SeparatedBy 50 g := by decide
  exact ⟨hOrdered, hMerged, hSeparated,
    (separated_mergeAcrossLoops_iff hOrdered hMerged).mp hSeparated⟩

/-- The flow before the cut has ended, but the flow that encloses it has not, and the two flows
that come out overlap. -/
theorem mergeAcrossLoops_enclosed_overlap :
    let key : FlowKey := ⟨17, .ofNat .v4 0x0a000001, .ofNat .v4 0x0a000002, 5000, 53⟩
    let flows : List Flow :=
      [⟨key, 0, 1000, 2, 200, none⟩, ⟨key, 500, 700, 2, 200, none⟩, ⟨key, 800, 900, 2, 200, none⟩]
    let out : List Flow := [⟨key, 0, 1000, 4, 400, none⟩, ⟨key, 800, 900, 2, 200, none⟩]
    (∀ f ∈ flows, f.startTime ≤ f.endTime) ∧ mergeAcrossLoops flows (some 0) = .ok out ∧
      ¬out.Pairwise fun f g => f.key = g.key → f.SeparatedBy 0 g := by
  intro key flows out
  refine ⟨by decide, ?_, by decide⟩
  simp only [flows, key, out]
  cbv

end FlowAudit
