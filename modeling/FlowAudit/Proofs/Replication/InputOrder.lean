import FlowAudit.Proofs.Replication.TiedFlows
/-!
Merging across loops and the order of its input. Of flows of a key that start together, the last one
decides where the next cut is. Two orders of flows that the cache tells apart lead to different
results, so the order is without influence iff it tells none of them apart.
-/
namespace FlowAudit

section Cut

variable {α : Type} {cut : α → α → Bool} {a b : α}

/-- Each cut gives one block more. -/
theorem length_cutWhere_cons (a b : α) (rest : List α) :
    (cutWhere cut (a :: b :: rest)).length =
      (cutWhere cut (b :: rest)).length + if cut a b then 1 else 0 := by
  obtain ⟨more, blocks, hEq, hCons⟩ := cutWhere_cons_cons cut a b rest
  rw [hCons, hEq]
  split <;> rfl

/-- A place where the condition holds divides the blocks into those before and those after it. -/
theorem cutWhere_append_of_cut (before after : List α) (hCut : cut a b = true) :
    cutWhere cut (before ++ a :: b :: after) =
      cutWhere cut (before ++ [a]) ++ cutWhere cut (b :: after) := by
  induction before with
  | nil =>
      obtain ⟨more, blocks, hEq, hCons⟩ := cutWhere_cons_cons cut a b after
      rw [List.nil_append, hCons, if_pos hCut, hEq]
      rfl
  | cons p before ih =>
      obtain ⟨q, tail, hTail⟩ : ∃ q tail, before ++ [a] = q :: tail :=
        List.exists_cons_of_ne_nil (by simp)
      obtain ⟨more, blocks, hEq, hCons⟩ := cutWhere_cons_cons cut p q tail
      rw [hTail, hEq] at ih
      rw [List.cons_append, List.cons_append, cutWhere_cons_of_eq ih, hTail, hCons]
      split <;> rfl

/-- Two continuations whose first members are cut off in the same places differ in their number of
blocks by what they differ on their own. -/
theorem length_cutWhere_append (cut : α → α → Bool) (before as bs : List α)
    (hSame : ∀ p ∈ before, cut p a = cut p b) :
    (cutWhere cut (before ++ a :: as)).length + (cutWhere cut (b :: bs)).length =
      (cutWhere cut (before ++ b :: bs)).length + (cutWhere cut (a :: as)).length := by
  induction before with
  | nil => exact Nat.add_comm _ _
  | cons p before ih =>
      obtain ⟨hHead, hRest⟩ := List.forall_mem_cons.mp hSame
      have hTail := ih hRest
      cases before with
      | nil =>
          simp only [List.cons_append, List.nil_append, length_cutWhere_cons, hHead]
          omega
      | cons q before =>
          simp only [List.cons_append, length_cutWhere_cons] at hTail ⊢
          omega

end Cut

/-- What has expired at one time has expired at every later one. -/
theorem hasExpired_of_le {timeout : Option UInt64} {f g g' : Flow} (h : hasExpired timeout f g)
    (hLe : g.startTime.toNat ≤ g'.startTime.toNat) : hasExpired timeout f g' := by
  cases timeout with
  | none => exact h
  | some t => exact hasExpired_some_iff.mpr (Nat.le_trans (hasExpired_some_iff.mp h) hLe)

/-- The first flow of an order starts when the earliest flow does. -/
theorem StartSorted.exists_head_of_first {flows : List Flow} {c : Flow} (h : StartSorted flows)
    (hc : c ∈ flows) (hFirst : ∀ g ∈ flows, c.startTime ≤ g.startTime) :
    ∃ f ∈ flows.head?, f.startTime = c.startTime := by
  cases flows with
  | nil => cases hc
  | cons f rest =>
      refine ⟨f, rfl, UInt64.le_antisymm ?_ (hFirst f (List.mem_cons_self ..))⟩
      rcases List.mem_cons.mp hc with rfl | hc
      · exact UInt64.le_refl _
      · exact UInt64.le_iff_toNat_le.mpr (h.head_le c hc)

theorem byStart_of_startSorted {flows : List Flow} (h : StartSorted flows) :
    byStart flows = flows := by
  refine List.mergeSort_of_pairwise (h.imp fun hLe => ?_)
  exact decide_eq_true (UInt64.le_iff_toNat_le.mpr hLe)

/-- What the cache makes of flows of one key in the order of their start, if no total is too
large. -/
def cacheFlows (timeout : Option UInt64) (flows : List Flow) : List Flow :=
  (cutWhere (hasExpired timeout) flows).map blockFlow

theorem cacheFlows_singleton (timeout : Option UInt64) (f : Flow) :
    cacheFlows timeout [f] = [f.uncounted] := by
  have hFlow : blockFlow (f, []) = f.uncounted := by
    rw [blockFlow, Flow.hull_nil]
    rfl
  rw [← hFlow]
  rfl

section Exchange

variable {timeout : Option UInt64} {a b : Flow} {before after : List Flow}

/-- Where the cache gives up a flow, the flows before and after are independent of each other. -/
theorem cacheFlows_append_of_expired (before after : List Flow) (h : hasExpired timeout a b) :
    cacheFlows timeout (before ++ a :: b :: after) =
      cacheFlows timeout (before ++ [a]) ++ cacheFlows timeout (b :: after) := by
  rw [cacheFlows, cutWhere_append_of_cut before after h, List.map_append]
  rfl

/-- The cache begins a new flow right after a flow that it gives up before all later ones start. -/
theorem cacheFlows_append_of_forall (before : List Flow)
    (h : ∀ f ∈ after, hasExpired timeout a f) :
    cacheFlows timeout (before ++ a :: after) =
      cacheFlows timeout (before ++ [a]) ++ cacheFlows timeout after := by
  cases after with
  | nil => exact (List.append_nil _).symm
  | cons f after => exact cacheFlows_append_of_expired before after (h f (List.mem_cons_self ..))

/-- Exchanging the last flow for one that starts at the same time does not change the number of
blocks. -/
theorem length_cacheFlows_concat (timeout : Option UInt64) (before : List Flow)
    (hTie : a.startTime = b.startTime) :
    (cacheFlows timeout (before ++ [a])).length = (cacheFlows timeout (before ++ [b])).length := by
  have hLength := length_cutWhere_append (hasExpired timeout) before [] [] fun p _ =>
    hasExpired_congr p hTie
  simp only [cutWhere, List.length_singleton] at hLength
  simp only [cacheFlows, List.length_map]
  omega

/-- A new flow does not start before the flows that it is made of. -/
theorem lt_startTime_of_mem_cacheFlows {flows : List Flow} {s : UInt64} {f : Flow}
    (hSorted : StartSorted flows) (hLater : ∀ g ∈ flows, s < g.startTime)
    (hf : f ∈ cacheFlows timeout flows) : s < f.startTime := by
  obtain ⟨block, hBlock, rfl⟩ := List.mem_map.mp hf
  rw [startTime_blockFlow (hSorted.of_mem_cutWhere hBlock)]
  exact hLater _ (fst_mem_of_mem_cutWhere _ hBlock)

/-- Some flow of the cache starts when the first flow does. -/
theorem exists_mem_cacheFlows_cons (timeout : Option UInt64) {flows : List Flow}
    (hSorted : StartSorted (a :: flows)) :
    ∃ f ∈ cacheFlows timeout (a :: flows), f.startTime = a.startTime := by
  obtain ⟨more, blocks, hBlocks, -⟩ :=
    exists_cutWhere_cons (hasExpired timeout) a a fun c (_ : c ∈ flows.head?) => rfl
  have hFirst : (a, more) ∈ cutWhere (hasExpired timeout) (a :: flows) :=
    hBlocks ▸ List.mem_cons_self ..
  exact ⟨_, List.mem_map_of_mem hFirst, startTime_blockFlow (hSorted.of_mem_cutWhere hFirst)⟩

/-- A flow that is given up at its start ends the new flow that it belongs to. So what starts
together with it is in the same new flow or in a later one, depending on the order. -/
theorem cacheFlows_exchange_ne_of_expired (hSorted : StartSorted (before ++ a :: b :: after))
    (hTie : a.startTime = b.startTime) (hAfter : ∀ f ∈ after, a.startTime < f.startTime)
    (hNe : a.uncounted ≠ b.uncounted) (hExpired : hasExpired timeout a b) :
    cacheFlows timeout (before ++ a :: b :: after) ≠
      cacheFlows timeout (before ++ b :: a :: after) := by
  intro hEq
  have hTail : StartSorted (b :: after) :=
    ((List.pairwise_append.mp hSorted).2.1 : StartSorted (a :: b :: after)).tail
  have hGone : ∀ f ∈ after, hasExpired timeout a f := fun f hf =>
    hasExpired_of_le hExpired (hTail.head_le f hf)
  have hSecond : before ++ b :: a :: after = (before ++ [b]) ++ a :: after := by simp
  rw [cacheFlows_append_of_expired before after hExpired, hSecond,
    cacheFlows_append_of_forall _ hGone] at hEq
  have hLength := length_cacheFlows_concat timeout before hTie
  cases hOther : hasExpired timeout b a with
  | true =>
      -- Both orders are cut between the two flows, and the one behind the cut stands alone.
      have hLater : ∀ f ∈ after, hasExpired timeout b f := fun f hf =>
        hasExpired_of_le hOther (UInt64.lt_iff_toNat_lt.mp (hAfter f hf)).le
      have hAlone : cacheFlows timeout (b :: after) =
          cacheFlows timeout [b] ++ cacheFlows timeout after :=
        cacheFlows_append_of_forall [] hLater
      have hPair : cacheFlows timeout (before ++ [b] ++ [a]) =
          cacheFlows timeout (before ++ [b]) ++ cacheFlows timeout [a] := by
        rw [List.append_assoc]
        exact cacheFlows_append_of_expired before [] hOther
      rw [hAlone, hPair, List.append_assoc] at hEq
      have hLast := List.append_cancel_right (List.append_inj_right hEq hLength)
      rw [cacheFlows_singleton, cacheFlows_singleton, List.singleton_inj] at hLast
      exact hNe hLast.symm
  | false =>
      -- In the other order both are in one block, so no block behind it starts at their time.
      have hJoined := length_cutWhere_append (hasExpired timeout) before [a] [] fun p _ =>
        (rfl : hasExpired timeout p b = hasExpired timeout p b)
      rw [length_cutWhere_cons, hOther] at hJoined
      have hSame : (cacheFlows timeout (before ++ [a])).length =
          (cacheFlows timeout (before ++ [b] ++ [a])).length := by
        rw [hLength, List.append_assoc]
        simp only [cacheFlows, List.length_map, List.singleton_append]
        simp only [cutWhere, List.length_singleton, Bool.false_eq_true, if_false] at hJoined
        omega
      have hLast := List.append_inj_right hEq hSame
      obtain ⟨f, hf, hFirst⟩ := exists_mem_cacheFlows_cons timeout hTail
      have hLate := lt_startTime_of_mem_cacheFlows hTail.tail hAfter (hLast ▸ hf)
      rw [hFirst, hTie] at hLate
      exact UInt64.lt_irrefl _ hLate

/-- If the cache does not give up the flows of a tie at their start but tells them apart when the
next flow starts, the last one of the tie decides whether a new flow begins there. -/
theorem cacheFlows_exchange_ne_of_next {c : Flow} (hTie : a.startTime = b.startTime)
    (hOpen : hasExpired timeout a b = false) (hOpen' : hasExpired timeout b a = false)
    (hNext : hasExpired timeout a c ≠ hasExpired timeout b c) :
    cacheFlows timeout (before ++ a :: b :: c :: after) ≠
      cacheFlows timeout (before ++ b :: a :: c :: after) := by
  intro hEq
  have hFlows := congrArg List.length hEq
  have hLength := length_cutWhere_append (hasExpired timeout) before (b :: c :: after)
    (a :: c :: after) fun p _ => hasExpired_congr p hTie
  simp only [cacheFlows, List.length_map] at hFlows
  simp only [length_cutWhere_cons, hOpen, hOpen', hFlows] at hLength
  have hCuts : (if hasExpired timeout a c then 1 else 0) =
      if hasExpired timeout b c then 1 else 0 := by
    omega
  cases hFirst : hasExpired timeout a c <;> simp_all

/-- Two flows of a tie that the cache tells apart lead to different results in the two orders. -/
theorem cacheFlows_exchange_ne (hSorted : StartSorted (before ++ a :: b :: after))
    (hTie : a.startTime = b.startTime) (hAfter : ∀ f ∈ after, a.startTime < f.startTime)
    (hNe : a.uncounted ≠ b.uncounted)
    (hApart : hasExpired timeout a b = true ∨
      ∃ c ∈ after.head?, hasExpired timeout a c ≠ hasExpired timeout b c) :
    cacheFlows timeout (before ++ a :: b :: after) ≠
      cacheFlows timeout (before ++ b :: a :: after) := by
  by_cases hExpired : hasExpired timeout a b
  · exact cacheFlows_exchange_ne_of_expired hSorted hTie hAfter hNe hExpired
  by_cases hExpired' : hasExpired timeout b a
  · have hOther : StartSorted (before ++ b :: a :: after) := hSorted.of_map_eq (by simp [hTie])
    exact (cacheFlows_exchange_ne_of_expired hOther hTie.symm (hTie ▸ hAfter) hNe.symm
      hExpired').symm
  obtain ⟨c, hc, hNext⟩ := hApart.resolve_left hExpired
  obtain ⟨later, rfl⟩ := List.head?_eq_some_iff.mp hc
  exact cacheFlows_exchange_ne_of_next hTie (by simpa using hExpired) (by simpa using hExpired')
    hNext

end Exchange

/-- The flows of one key in the result come from the flows of that key alone. -/
theorem filter_key_mergeAcrossLoops {timeout : Option UInt64} {flows out : List Flow}
    (h : mergeAcrossLoops flows timeout = .ok out) (k : FlowKey) :
    (out.filter fun f => f.key = k) =
      cacheFlows timeout (byStart (flows.filter fun f => f.key = k)) := by
  obtain ⟨-, rfl⟩ := mergeAcrossLoops_eq_ok_iff.mp h
  have hKey : ∀ j, ∀ f ∈ cacheFlows timeout (byStart (flows.filter fun f => f.key = j)),
      f.key = j := by
    intro j f hf
    obtain ⟨b, hb, rfl⟩ := List.mem_map.mp hf
    have hMem := (byStart_perm _).subset (fst_mem_of_mem_cutWhere _ hb)
    exact of_decide_eq_true (List.mem_filter.mp hMem).2
  rw [cacheBlocks, groupBy_eq, List.flatMap_map, List.map_flatMap]
  refine (filter_key_flatMap hKey (nodup_distinctKeys Flow.key flows) k).trans ?_
  by_cases hk : k ∈ distinctKeys Flow.key flows
  · rw [if_pos hk]
  · rw [if_neg hk, filter_key_eq_nil hk, (byStart_perm []).eq_nil]
    rfl

/-- The flows can be ordered so that those of one key come first, in the order of their start and
with a given tie at the end of the flows that start together with it. -/
theorem exists_tied_order {flows : List Flow} {a b : Flow} (ha : a ∈ flows) (hb : b ∈ flows)
    (hKey : a.key = b.key) (hTie : a.startTime = b.startTime) (hNe : a ≠ b) :
    ∃ before after others, (before ++ a :: b :: after ++ others).Perm flows ∧
      StartSorted (before ++ a :: b :: after) ∧
      (∀ f ∈ before ++ a :: b :: after, f.key = a.key) ∧ (∀ f ∈ others, f.key ≠ a.key) ∧
      ∀ f ∈ after, a.startTime < f.startTime := by
  let group := flows.filter fun f => f.key = a.key
  let rest := (group.erase a).erase b
  let early := (byStart rest).filter fun f => f.startTime ≤ a.startTime
  let late := (byStart rest).filter fun f => !decide (f.startTime ≤ a.startTime)
  have haGroup : a ∈ group := List.mem_filter.mpr ⟨ha, by simp⟩
  have hbGroup : b ∈ group.erase a :=
    (List.mem_erase_of_ne hNe.symm).mpr (List.mem_filter.mpr ⟨hb, by simp [hKey]⟩)
  have hGroup : group.Perm (a :: b :: rest) :=
    (List.perm_cons_erase haGroup).trans ((List.perm_cons_erase hbGroup).cons a)
  have hRest : (early ++ late).Perm rest :=
    (List.filter_append_perm _ _).trans (byStart_perm rest)
  have hOrder : (early ++ a :: b :: late).Perm group := by
    refine List.Perm.trans ?_ ((hRest.cons b).cons a |>.trans hGroup.symm)
    exact List.perm_middle.trans (List.perm_middle.cons a)
  have hLate : ∀ f ∈ late, a.startTime < f.startTime := by
    intro f hf
    simpa using (List.mem_filter.mp hf).2
  refine ⟨early, late, flows.filter fun f => !decide (f.key = a.key), ?_, ?_, ?_, ?_, hLate⟩
  · exact (hOrder.append_right _).trans (List.filter_append_perm _ _)
  · have hTied : StartSorted (a :: b :: late) := by
      refine List.pairwise_cons.mpr ⟨?_, List.pairwise_cons.mpr ⟨?_, ?_⟩⟩
      · intro f hf
        rcases List.mem_cons.mp hf with rfl | hf
        · exact (congrArg UInt64.toNat hTie).le
        · exact (UInt64.lt_iff_toNat_lt.mp (hLate f hf)).le
      · intro f hf
        exact hTie ▸ (UInt64.lt_iff_toNat_lt.mp (hLate f hf)).le
      · exact (startSorted_byStart rest).filter _
    refine List.pairwise_append.mpr ⟨(startSorted_byStart rest).filter _, hTied, ?_⟩
    intro f hf g hg
    have hEarly : f.startTime ≤ a.startTime := of_decide_eq_true (List.mem_filter.mp hf).2
    refine Nat.le_trans (UInt64.le_iff_toNat_le.mp hEarly) ?_
    rcases List.mem_cons.mp hg with rfl | hg
    · exact Nat.le_refl _
    · exact hTied.head_le g hg
  · intro f hf
    exact of_decide_eq_true (List.mem_filter.mp (hOrder.subset hf)).2
  · intro f hf
    simpa using (List.mem_filter.mp hf).2

/-- Where the cache tells the flows of a tie apart, two orders of the flows cannot both succeed with
the same result. -/
theorem exists_perm_ne_of_not_tiesAgree {timeout : Option UInt64} {flows : List Flow}
    (h : ¬TiesAgree timeout flows) :
    ∃ xs ys : List Flow, xs.Perm flows ∧ ys.Perm flows ∧
      ∀ out, mergeAcrossLoops xs timeout = .ok out → mergeAcrossLoops ys timeout ≠ .ok out := by
  unfold TiesAgree at h
  push Not at h
  obtain ⟨a, ha, b, hb, hKey, hTie, hNe, hApart⟩ := h
  obtain ⟨before, after, others, hPerm, hSorted, hMembers, hOthers, hAfter⟩ :=
    exists_tied_order ha hb hKey hTie fun hEq => hNe (congrArg Flow.uncounted hEq)
  have hSwap : (before ++ b :: a :: after).Perm (before ++ a :: b :: after) :=
    (List.Perm.swap a b after).append_left before
  refine ⟨before ++ a :: b :: after ++ others, before ++ b :: a :: after ++ others, hPerm,
    (hSwap.append_right others).trans hPerm, fun out hOut hOut' => ?_⟩
  have hGroup : ∀ xs : List Flow, xs.Perm (before ++ a :: b :: after) → StartSorted xs →
      mergeAcrossLoops (xs ++ others) timeout = .ok out →
        (out.filter fun f => f.key = a.key) = cacheFlows timeout xs := by
    intro xs hxs hOrder hMerged
    have hAll : (xs.filter fun f => f.key = a.key) = xs :=
      List.filter_eq_self.mpr fun f hf => decide_eq_true (hMembers f (hxs.subset hf))
    have hNone : (others.filter fun f => f.key = a.key) = [] :=
      List.filter_eq_nil_iff.mpr fun f hf => by simpa using hOthers f hf
    rw [filter_key_mergeAcrossLoops hMerged, List.filter_append, hAll, hNone, List.append_nil,
      byStart_of_startSorted hOrder]
  have hFirst := hGroup _ (.refl _) hSorted hOut
  have hSecond := hGroup _ hSwap (hSorted.of_map_eq (by simp [hTie])) hOut'
  refine cacheFlows_exchange_ne hSorted hTie hAfter hNe ?_ (hFirst.symm.trans hSecond)
  -- The cache gives up one of the two before the other starts, or the next flow tells them apart.
  by_cases hExpired : hasExpired timeout a b
  · exact Or.inl hExpired
  · obtain ⟨c, hc, ⟨hcKey, hcLater, hcFirst⟩, hDiffer⟩ := hApart (by simpa using hExpired)
    have hEarly := (List.pairwise_append.mp hSorted).2.2
    have hcAfter : c ∈ after := by
      have hMem := hPerm.mem_iff.mpr hc
      simp only [List.mem_append, List.mem_cons] at hMem
      rw [UInt64.lt_iff_toNat_lt] at hcLater
      rcases hMem with (hMem | rfl | rfl | hMem) | hMem
      · have hLe := hEarly c hMem a (List.mem_cons_self ..)
        omega
      · omega
      · rw [hTie] at hcLater
        omega
      · exact hMem
      · exact absurd hcKey (hOthers c hMem)
    have hTail : StartSorted after := (List.pairwise_append.mp hSorted).2.1.tail.tail
    obtain ⟨v, hv, hStart⟩ := hTail.exists_head_of_first hcAfter fun g hg =>
      hcFirst g (hPerm.subset (by simp [hg])) (hMembers g (by simp [hg])) (hAfter g hg)
    refine Or.inr ⟨v, hv, ?_⟩
    rwa [hasExpired_congr a hStart, hasExpired_congr b hStart]

/-- Merging across loops gives the same flows for all orders of its input, or fails for all of them,
iff the cache treats alike what starts together, unless it fails for all orders anyway. Without a
timeout it always does. -/
theorem mergeAcrossLoops_reordered_iff (timeout : Option UInt64) (flows : List Flow) :
    ((∀ other : List Flow, other.Perm flows →
        Corresponds (fun _ _ => True) (· = ·) (mergeAcrossLoops other timeout)
          (mergeAcrossLoops flows timeout)) ↔
      TiesAgree timeout flows ∨
        ∀ other : List Flow, other.Perm flows →
          ∃ cause, mergeAcrossLoops other timeout = .error cause) ∧
    TiesAgree none flows := by
  refine ⟨⟨fun hSame => ?_, ?_⟩, TiesAgree.none flows⟩
  · by_contra hNot
    obtain ⟨hTies, hFails⟩ := not_or.mp hNot
    obtain ⟨xs, ys, hxs, hys, hDiffer⟩ := exists_perm_ne_of_not_tiesAgree hTies
    cases hFlows : mergeAcrossLoops flows timeout with
    | error cause =>
        rw [hFlows] at hSame
        refine hFails fun other hOther => ?_
        obtain ⟨cause', hCause, -⟩ := Corresponds.error_right_iff.mp (hSame other hOther)
        exact ⟨cause', hCause⟩
    | ok out =>
        rw [hFlows] at hSame
        obtain ⟨_, hx, rfl⟩ := Corresponds.ok_right_iff.mp (hSame xs hxs)
        obtain ⟨_, hy, rfl⟩ := Corresponds.ok_right_iff.mp (hSame ys hys)
        exact hDiffer _ hx hy
  · rintro (hTies | hFails) other hPerm
    · rw [mergeAcrossLoops_perm hTies hPerm]
      exact Corresponds.refl (fun _ => trivial) (fun _ => rfl) _
    · obtain ⟨cause, hOther⟩ := hFails other hPerm
      obtain ⟨cause', hFlows⟩ := hFails flows (.refl _)
      rw [hOther, hFlows]
      trivial

/-- Two flows start together, but both have ended long before the third one starts. -/
theorem mergeAcrossLoops_reordered_distant :
    let key : FlowKey := ⟨17, .ofNat .v4 0x0a000001, .ofNat .v4 0x0a000002, 5000, 53⟩
    let short : Flow := ⟨key, 0, 10, 2, 200, none⟩
    let long : Flow := ⟨key, 0, 1000, 3, 300, none⟩
    let last : Flow := ⟨key, 2005, 2100, 4, 400, none⟩
    let out : List Flow := [⟨key, 0, 1000, 5, 500, none⟩, last]
    mergeAcrossLoops [short, long, last] (some 100) = .ok out ∧
      ∀ other : List Flow, other.Perm [short, long, last] →
        mergeAcrossLoops other (some 100) = .ok out := by
  intro key short long last out
  have hTies : TiesAgree (some 100) [short, long, last] := by decide
  have hMerged : mergeAcrossLoops [short, long, last] (some 100) = .ok out := by
    simp only [short, long, last, key, out]
    cbv
  refine ⟨hMerged, fun other hPerm => ?_⟩
  have hSame := ((mergeAcrossLoops_reordered_iff (some 100) _).1.mpr (Or.inl hTies)) other hPerm
  rw [hMerged] at hSame
  obtain ⟨_, hOther, rfl⟩ := Corresponds.ok_right_iff.mp hSame
  exact hOther

/-- The third flow starts shortly after the longer one of two flows that start together. If that one
comes first, the cache has forgotten it by then, and the third flow is kept apart. -/
theorem mergeAcrossLoops_reordered_tie :
    let key : FlowKey := ⟨17, .ofNat .v4 0x0a000001, .ofNat .v4 0x0a000002, 5000, 53⟩
    let short : Flow := ⟨key, 0, 10, 2, 200, none⟩
    let long : Flow := ⟨key, 0, 1000, 3, 300, none⟩
    let last : Flow := ⟨key, 1005, 1100, 4, 400, none⟩
    (∀ f ∈ [short, long, last], f.startTime ≤ f.endTime) ∧
      [long, short, last].Perm [short, long, last] ∧
      mergeAcrossLoops [short, long, last] (some 100) = .ok [⟨key, 0, 1100, 9, 900, none⟩] ∧
      mergeAcrossLoops [long, short, last] (some 100) =
        .ok [⟨key, 0, 1000, 5, 500, none⟩, last] ∧
      ¬Corresponds (fun _ _ => True) (· = ·) (mergeAcrossLoops [long, short, last] (some 100))
        (mergeAcrossLoops [short, long, last] (some 100)) := by
  intro key short long last
  have hJoined : mergeAcrossLoops [short, long, last] (some 100) =
      .ok [⟨key, 0, 1100, 9, 900, none⟩] := by
    simp only [short, long, last, key]
    cbv
  have hApart : mergeAcrossLoops [long, short, last] (some 100) =
      .ok [⟨key, 0, 1000, 5, 500, none⟩, last] := by
    simp only [short, long, last, key]
    cbv
  refine ⟨by decide, by decide, hJoined, hApart, fun hSame => ?_⟩
  rw [hJoined, hApart] at hSame
  exact absurd (congrArg List.length hSame) (by decide)

end FlowAudit
