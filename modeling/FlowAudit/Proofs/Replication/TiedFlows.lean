import FlowAudit.Proofs.Merge.ByKey
import FlowAudit.Proofs.Replication.Separation
/-!
Flows that start together. The cache reads the flows of a key in the order of their start, and what
starts together in the order in which it came. If the cache does not tell such flows apart, all
orders of the input are divided into blocks that make the same flows.
-/
namespace FlowAudit

section Cut

variable {α : Type} {cut : α → α → Bool} {a b : α}

/-- What comes in front of a cut list joins its first block or makes a block of its own. -/
theorem cutWhere_cons_of_eq {rest more : List α} {blocks : Blocks α}
    (h : cutWhere cut rest = (b, more) :: blocks) :
    cutWhere cut (a :: rest) =
      if cut a b then (a, []) :: (b, more) :: blocks else (a, b :: more) :: blocks := by
  rw [cutWhere, h]

/-- Two members that are cut off before the same members can stand for each other at the front. -/
theorem exists_cutWhere_cons (cut : α → α → Bool) (a b : α) {rest : List α}
    (h : ∀ c ∈ rest.head?, cut a c = cut b c) :
    ∃ more blocks, cutWhere cut (a :: rest) = (a, more) :: blocks ∧
      cutWhere cut (b :: rest) = (b, more) :: blocks := by
  cases rest with
  | nil => exact ⟨[], [], rfl, rfl⟩
  | cons c rest =>
      obtain ⟨more, blocks, hEq, -⟩ := cutWhere_cons_cons cut a c rest
      rw [cutWhere_cons_of_eq hEq, cutWhere_cons_of_eq hEq, h c rfl]
      by_cases hCut : cut b c = true
      · simp [hCut]
      · simp [hCut]

end Cut

/-- Two blocks from which the cache makes one and the same flow. -/
structure SameBlock (b b' : Flow × List Flow) : Prop where
  key : b.1.key = b'.1.key
  traffic : Dataset.SameTraffic (blockMembers b) (blockMembers b')

/-- The flow of a block is the merged flow of its members, without a count. -/
theorem blockFlow_eq_merged (b : Flow × List Flow) :
    blockFlow b = (Flow.merged (b.1.key, blockMembers b)).uncounted := by
  have hBounds := Flow.timeBounds?_eq_span_hull b.1 b.2
  simp only [Flow.merged, blockMembers, hBounds, Option.getD_some, Flow.span, UInt64.ofNat_toNat]
  rfl

namespace SameBlock

theorem refl (b : Flow × List Flow) : SameBlock b b := ⟨rfl, .refl _⟩

theorem trans {b b' b'' : Flow × List Flow} (h : SameBlock b b') (h' : SameBlock b' b'') :
    SameBlock b b'' :=
  ⟨h.key.trans h'.key, h.traffic.trans h'.traffic⟩

/-- Blocks of the same traffic become the same flow, or both overflow. -/
theorem mergeBlock_eq {b b' : Flow × List Flow} (h : SameBlock b b') :
    mergeBlock b = mergeBlock b' := by
  have hVolume := h.traffic.volume
  have hFlow : blockFlow b = blockFlow b' := by
    rw [Dataset.volume_eq, Dataset.volume_eq, Prod.mk.injEq] at hVolume
    rw [blockFlow_eq_merged, blockFlow_eq_merged]
    simp only [Flow.merged, Flow.uncounted, h.key, h.traffic.timeBounds, hVolume.1, hVolume.2]
  rw [FlowAudit.mergeBlock_eq, FlowAudit.mergeBlock_eq, hFlow, h.key]
  simp only [Dataset.fits_congr hVolume]

end SameBlock

/-- Two orders of flows that the cache divides into the same blocks. -/
def SameBlocks (timeout : Option UInt64) (xs ys : List Flow) : Prop :=
  List.Forall₂ SameBlock (cutWhere (hasExpired timeout) xs) (cutWhere (hasExpired timeout) ys)

theorem hasExpired_congr {timeout : Option UInt64} (f : Flow) {g g' : Flow}
    (h : g.startTime = g'.startTime) : hasExpired timeout f g = hasExpired timeout f g' := by
  rw [hasExpired, hasExpired, h]

namespace SameBlocks

variable {timeout : Option UInt64} {x y : Flow} {xs ys zs : List Flow}

theorem refl (timeout : Option UInt64) (xs : List Flow) : SameBlocks timeout xs xs :=
  List.forall₂_same.mpr fun b _ => .refl b

theorem trans (h : SameBlocks timeout xs ys) (h' : SameBlocks timeout ys zs) :
    SameBlocks timeout xs zs := by
  unfold SameBlocks at h h' ⊢
  generalize cutWhere (hasExpired timeout) xs = bs at h
  generalize cutWhere (hasExpired timeout) ys = bs' at h h'
  generalize cutWhere (hasExpired timeout) zs = bs'' at h'
  induction h generalizing bs'' with
  | nil => exact h'
  | cons hHead _ ih =>
      obtain ⟨b'', rest, hHead', hRest, rfl⟩ := List.forall₂_cons_left_iff.mp h'
      exact .cons (hHead.trans hHead') (ih _ hRest)

/-- A flow in front is cut off from both lists or from none, if they begin at the same time. -/
theorem cons (p : Flow) (hHead : xs.head?.map Flow.startTime = ys.head?.map Flow.startTime)
    (h : SameBlocks timeout xs ys) : SameBlocks timeout (p :: xs) (p :: ys) := by
  cases xs with
  | nil =>
      cases ys with
      | nil => exact refl timeout [p]
      | cons y ys => cases hHead
  | cons x xs =>
      cases ys with
      | nil => cases hHead
      | cons y ys =>
          obtain ⟨more, blocks, hEq, hCons⟩ := cutWhere_cons_cons (hasExpired timeout) p x xs
          obtain ⟨more', blocks', hEq', hCons'⟩ := cutWhere_cons_cons (hasExpired timeout) p y ys
          rw [SameBlocks, hEq, hEq'] at h
          obtain ⟨hFirst, hRest⟩ := List.forall₂_cons.mp h
          rw [SameBlocks, hCons, hCons', hasExpired_congr p (Option.some.inj hHead)]
          split
          · exact .cons (.refl _) h
          · exact .cons ⟨rfl, Dataset.SameTraffic.append (.refl [p]) hFirst.traffic⟩ hRest

/-- The first error is also the same, because blocks correspond in order. -/
theorem mapM_mergeBlock_eq (h : SameBlocks timeout xs ys) :
    (cutWhere (hasExpired timeout) xs).mapM mergeBlock =
      (cutWhere (hasExpired timeout) ys).mapM mergeBlock := by
  unfold SameBlocks at h
  generalize cutWhere (hasExpired timeout) xs = bs at h
  generalize cutWhere (hasExpired timeout) ys = bs' at h
  induction h with
  | nil => rfl
  | cons hHead _ ih => rw [List.mapM_cons, List.mapM_cons, hHead.mergeBlock_eq, ih]

end SameBlocks

theorem startSorted_iff {flows : List Flow} :
    StartSorted flows ↔ (flows.map Flow.startTime).Pairwise fun s t => s.toNat ≤ t.toNat := by
  rw [StartSorted, List.pairwise_map]

namespace StartSorted

/-- The order by start depends on the starts only. -/
theorem of_map_eq {xs ys : List Flow} (h : StartSorted xs)
    (hStarts : xs.map Flow.startTime = ys.map Flow.startTime) : StartSorted ys := by
  rw [startSorted_iff] at h ⊢
  exact hStarts ▸ h

/-- Two orders of the same flows by start differ only among flows that start together. -/
theorem map_eq_of_perm {xs ys : List Flow} (hx : StartSorted xs) (hy : StartSorted ys)
    (hPerm : xs.Perm ys) : xs.map Flow.startTime = ys.map Flow.startTime := by
  rw [startSorted_iff] at hx hy
  refine (hPerm.map Flow.startTime).eq_of_pairwise (fun s t _ _ hst hts => ?_) hx hy
  exact UInt64.toNat_inj.mp (Nat.le_antisymm hst hts)

end StartSorted

/-- Whether a flow is among the next ones of its key to start once `f` has started. -/
def StartsNext (flows : List Flow) (f c : Flow) : Prop :=
  c.key = f.key ∧ f.startTime < c.startTime ∧
    ∀ g ∈ flows, g.key = f.key → f.startTime < g.startTime → c.startTime ≤ g.startTime

instance (flows : List Flow) (f c : Flow) : Decidable (StartsNext flows f c) :=
  inferInstanceAs (Decidable (_ ∧ _ ∧ _))

/-- Flows of one key that start together are the same to the cache, or it gives up neither of them
at their start and does not tell them apart when the next flow starts. -/
def TiesAgree (timeout : Option UInt64) (flows : List Flow) : Prop :=
  ∀ f ∈ flows, ∀ g ∈ flows, f.key = g.key → f.startTime = g.startTime →
    f.uncounted ≠ g.uncounted →
      hasExpired timeout f g = false ∧
        ∀ c ∈ flows, StartsNext flows f c → hasExpired timeout f c = hasExpired timeout g c

instance (timeout : Option UInt64) (flows : List Flow) : Decidable (TiesAgree timeout flows) :=
  inferInstanceAs (Decidable (∀ f ∈ flows, ∀ g ∈ flows, _ → _ → _ → _ ∧ _))

namespace TiesAgree

variable {timeout : Option UInt64} {flows : List Flow}

/-- Without a timeout nothing is ever given up. -/
theorem none (flows : List Flow) : TiesAgree none flows :=
  fun _ _ _ _ _ _ _ => ⟨rfl, fun _ _ _ => rfl⟩

/-- Whatever is left out, the flows that start next have to stay the same. -/
theorem of_subset {some : List Flow} (h : TiesAgree timeout flows) (hSubset : some ⊆ flows)
    (hNext : ∀ f ∈ some, ∀ g ∈ flows, g.key = f.key → f.startTime < g.startTime → g ∈ some) :
    TiesAgree timeout some := by
  intro f hf g hg hKey hStart hNe
  obtain ⟨hKept, hAgree⟩ := h f (hSubset hf) g (hSubset hg) hKey hStart hNe
  refine ⟨hKept, fun c hc hStarts => hAgree c (hSubset hc) ⟨hStarts.1, hStarts.2.1, ?_⟩⟩
  intro g' hg' hKey' hLater
  exact hStarts.2.2 g' (hNext f hf g' hg' hKey' hLater) hKey' hLater

theorem of_perm {other : List Flow} (h : TiesAgree timeout flows) (hPerm : other.Perm flows) :
    TiesAgree timeout other :=
  h.of_subset hPerm.subset fun _ _ _ hg _ _ => hPerm.mem_iff.mpr hg

/-- Ties are a matter of one key. -/
theorem filter_key (h : TiesAgree timeout flows) (k : FlowKey) :
    TiesAgree timeout (flows.filter fun f => f.key = k) := by
  refine h.of_subset (List.filter_subset_self _) fun f hf g hg hKey _ => ?_
  have hf : f.key = k := by simpa using (List.mem_filter.mp hf).2
  exact List.mem_filter.mpr ⟨hg, by simp [hKey, hf]⟩

/-- A flow that starts first is not among those that start after another one. -/
theorem tail {x : Flow} {xs : List Flow} (h : TiesAgree timeout (x :: xs))
    (hSorted : StartSorted (x :: xs)) : TiesAgree timeout xs := by
  refine h.of_subset (List.subset_cons_self x xs) fun f hf g hg _ hLater => ?_
  rcases List.mem_cons.mp hg with rfl | hg
  · have hFirst := hSorted.head_le f hf
    rw [UInt64.lt_iff_toNat_lt] at hLater
    omega
  · exact hg

end TiesAgree

namespace SameBlocks

variable {timeout : Option UInt64} {k : FlowKey}

/-- A flow of the same times and counters can stand in front instead. -/
theorem replace_front {x w : Flow} (rest : List Flow) (hKey : x.key = w.key)
    (hSame : x.uncounted = w.uncounted) : SameBlocks timeout (x :: rest) (w :: rest) := by
  have hEnd : x.endTime = w.endTime := by
    have hTimes := congrArg Flow.endTime hSame
    exact hTimes
  have hTraffic : Dataset.SameTraffic [x] [w] :=
    (Dataset.sameTraffic_uncounted x).symm.trans (hSame ▸ Dataset.sameTraffic_uncounted w)
  obtain ⟨more, blocks, hFirst, hSecond⟩ :=
    exists_cutWhere_cons (hasExpired timeout) x w fun c (_ : c ∈ rest.head?) => by
      rw [hasExpired, hasExpired, hEnd]
  rw [SameBlocks, hFirst, hSecond]
  exact .cons ⟨hKey, hTraffic.append (.refl more)⟩ (List.forall₂_same.mpr fun b _ => .refl b)

/-- Two flows at the front that start together can be exchanged. -/
theorem swap {x w : Flow} {rest : List Flow} (hKey : ∀ f ∈ x :: w :: rest, f.key = k)
    (hSorted : StartSorted (x :: w :: rest)) (hTie : x.startTime = w.startTime)
    (hTies : TiesAgree timeout (x :: w :: rest)) :
    SameBlocks timeout (x :: w :: rest) (w :: x :: rest) := by
  obtain ⟨hx, hw, hRest⟩ : x.key = k ∧ w.key = k ∧ ∀ f ∈ rest, f.key = k := by simpa using hKey
  have hSameKey : x.key = w.key := hx.trans hw.symm
  by_cases hSame : x.uncounted = w.uncounted
  · have hSecond : SameBlocks timeout (x :: w :: rest) (x :: x :: rest) :=
      cons x (congrArg some hTie.symm) (replace_front rest hSameKey.symm hSame.symm)
    exact hSecond.trans (replace_front (x :: rest) hSameKey hSame)
  · -- Different flows are in one block in both orders, so only the next flow could tell them apart.
    have hxMem : x ∈ x :: w :: rest := List.mem_cons_self ..
    have hwMem : w ∈ x :: w :: rest := List.mem_cons_of_mem _ (List.mem_cons_self ..)
    obtain ⟨hKept, hAgree⟩ := hTies x hxMem w hwMem hSameKey hTie hSame
    obtain ⟨hKept', -⟩ := hTies w hwMem x hxMem hSameKey.symm hTie.symm (Ne.symm hSame)
    have hNext : ∀ c ∈ rest.head?, hasExpired timeout w c = hasExpired timeout x c := by
      intro c hc
      obtain ⟨later, rfl⟩ := List.head?_eq_some_iff.mp hc
      have hLe : x.startTime.toNat ≤ c.startTime.toNat := hSorted.head_le c (by simp)
      by_cases hLater : x.startTime < c.startTime
      · have hFirst : ∀ g ∈ x :: w :: c :: later, g.key = x.key → x.startTime < g.startTime →
            c.startTime ≤ g.startTime := by
          intro g hg _ hAfter
          rw [UInt64.lt_iff_toNat_lt] at hAfter
          rw [UInt64.le_iff_toNat_le]
          have hOrder := hSorted.tail.tail.head_le g
          simp only [List.mem_cons] at hg
          rcases hg with rfl | rfl | rfl | hg
          · omega
          · rw [hTie] at hAfter
            omega
          · exact Nat.le_refl _
          · exact hOrder hg
        have hc : c ∈ x :: w :: c :: later := by simp
        exact (hAgree c hc ⟨(hRest c (List.mem_cons_self ..)).trans hx.symm, hLater, hFirst⟩).symm
      · -- A third flow of the tie is cut off from neither.
        have hSameStart : x.startTime = c.startTime := by
          rw [UInt64.lt_iff_toNat_lt] at hLater
          exact UInt64.toNat_inj.mp (by omega)
        rw [hasExpired_congr w hSameStart.symm, hKept',
          hasExpired_congr x (hSameStart.symm.trans hTie), hKept]
    obtain ⟨more, blocks, hFirst, hSecond⟩ :=
      exists_cutWhere_cons (hasExpired timeout) w x hNext
    have hPair : Dataset.SameTraffic (x :: w :: more) (w :: x :: more) :=
      .of_perm (.swap w x more)
    rw [SameBlocks, cutWhere_cons_of_eq hFirst, cutWhere_cons_of_eq hSecond, hKept, hKept']
    exact .cons ⟨hSameKey, hPair⟩ (List.forall₂_same.mpr fun b _ => .refl b)

/-- A flow at the front can be moved behind all that start together with it. -/
theorem move_back {x : Flow} (before : List Flow) {after : List Flow}
    (hKey : ∀ f ∈ x :: (before ++ after), f.key = k)
    (hSorted : StartSorted (x :: (before ++ after)))
    (hTie : ∀ w ∈ before, x.startTime = w.startTime)
    (hTies : TiesAgree timeout (x :: (before ++ after))) :
    SameBlocks timeout (x :: (before ++ after)) (before ++ x :: after) := by
  induction before with
  | nil => exact refl timeout _
  | cons w before ih =>
      obtain ⟨hHead, hRest⟩ := List.forall_mem_cons.mp hTie
      have hSwap := swap hKey hSorted hHead hTies
      have hPerm : (w :: x :: (before ++ after)).Perm (x :: w :: (before ++ after)) := .swap x w _
      have hSorted' : StartSorted (w :: x :: (before ++ after)) :=
        hSorted.of_map_eq (by simp [hHead])
      have hMove := ih (fun f hf => hKey f (hPerm.subset (List.mem_cons_of_mem _ hf))) hSorted'.tail
        hRest ((hTies.of_perm hPerm).tail hSorted')
      refine hSwap.trans (hMove.cons w ?_)
      cases before with
      | nil => rfl
      | cons v before => exact congrArg some (List.forall_mem_cons.mp hRest).1

/-- All orders of the flows of a key by their start give the same blocks. -/
theorem of_perm {xs ys : List Flow} (hPerm : xs.Perm ys) (hKey : ∀ f ∈ xs, f.key = k)
    (hx : StartSorted xs) (hy : StartSorted ys) (hTies : TiesAgree timeout xs) :
    SameBlocks timeout xs ys := by
  induction xs generalizing ys with
  | nil =>
      rw [List.nil_perm.mp hPerm]
      exact refl timeout []
  | cons x xs ih =>
      obtain ⟨before, after, rfl⟩ := List.append_of_mem (hPerm.subset (List.mem_cons_self ..))
      have hFront : (x :: xs).Perm (x :: (before ++ after)) := hPerm.trans List.perm_middle
      have hRest : xs.Perm (before ++ after) := hFront.cons_inv
      have hRestSorted : StartSorted (before ++ after) :=
        hy.sublist ((List.sublist_cons_self x after).append_left before)
      have hSame := ih hRest (List.forall_mem_cons.mp hKey).2 hx.tail hRestSorted (hTies.tail hx)
      have hHead := congrArg List.head? (hx.tail.map_eq_of_perm hRestSorted hRest)
      rw [List.head?_map, List.head?_map] at hHead
      have hSorted : StartSorted (x :: (before ++ after)) :=
        hx.of_map_eq (congrArg (_ :: ·) (hx.tail.map_eq_of_perm hRestSorted hRest))
      have hTie : ∀ w ∈ before, x.startTime = w.startTime := by
        intro w hw
        have hLe := hSorted.head_le w (List.mem_append_left after hw)
        have hGe := (List.pairwise_append.mp hy).2.2 w hw x (List.mem_cons_self ..)
        exact UInt64.toNat_inj.mp (Nat.le_antisymm hLe hGe)
      have hMove := move_back before (fun f hf => hKey f (hFront.symm.subset hf)) hSorted hTie
        (hTies.of_perm hFront.symm)
      exact (hSame.cons x hHead).trans hMove

end SameBlocks

/-- If the cache treats alike what starts together, every order of the flows gives the same result,
or fails on the same key. -/
theorem mergeAcrossLoops_perm {timeout : Option UInt64} {flows other : List Flow}
    (hTies : TiesAgree timeout flows) (hPerm : other.Perm flows) :
    mergeAcrossLoops other timeout = mergeAcrossLoops flows timeout := by
  have hGroup : ∀ k, (cutWhere (hasExpired timeout)
      (byStart (other.filter fun f => f.key = k))).mapM mergeBlock =
        (cutWhere (hasExpired timeout)
          (byStart (flows.filter fun f => f.key = k))).mapM mergeBlock := by
    intro k
    have hOrders : (byStart (other.filter fun f => f.key = k)).Perm
        (byStart (flows.filter fun f => f.key = k)) :=
      (byStart_perm _).trans ((hPerm.filter _).trans (byStart_perm _).symm)
    have hSorted := byStart_perm (other.filter fun f => f.key = k)
    refine (SameBlocks.of_perm (k := k) hOrders (fun f hf => ?_) (startSorted_byStart _)
      (startSorted_byStart _) ?_).mapM_mergeBlock_eq
    · simpa using (List.mem_filter.mp (hSorted.subset hf)).2
    · exact ((hTies.of_perm hPerm).filter_key k).of_perm hSorted
  simp only [mergeAcrossLoops_eq_mapM, cacheBlocks, ← flatten_mapM_mapM, groupBy_eq,
    distinctKeys_perm hPerm, List.mapM_map, Function.comp_def, hGroup]

end FlowAudit
