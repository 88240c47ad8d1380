import FlowAudit.Proofs.Flow.Order
import FlowAudit.Proofs.Grouping
import FlowAudit.Proofs.Merge.Aggregate
import FlowAudit.Replication.CrossLoop
import Mathlib.Data.List.Infix
/-!
The blocks of a flow cache. Cutting a list loses nothing and cuts exactly where the condition holds
between neighbours. The scan of the cache gives one flow for each block, so merging across loops is
one checked addition for each block.
-/
namespace FlowAudit

/-- A list without empty blocks: the first member of each block and those that follow it. -/
abbrev Blocks (α : Type) := List (α × List α)

/-- Cuts a list between neighbours that satisfy a condition. -/
def cutWhere {α : Type} (cut : α → α → Bool) : List α → Blocks α
  | [] => []
  | a :: rest =>
    match cutWhere cut rest with
    | [] => [(a, [])]
    | (b, more) :: blocks =>
      if cut a b then (a, []) :: (b, more) :: blocks else (a, b :: more) :: blocks

section Cut

variable {α : Type} (cut : α → α → Bool)

/-- All members of a block. -/
def blockMembers (b : α × List α) : List α :=
  b.1 :: b.2

/-- A cut list begins with a block of its first member. -/
theorem cutWhere_cons (a : α) (rest : List α) :
    ∃ more blocks, cutWhere cut (a :: rest) = (a, more) :: blocks := by
  rw [cutWhere]
  split
  · exact ⟨[], [], rfl⟩
  · split
    · exact ⟨_, _, rfl⟩
    · exact ⟨_, _, rfl⟩

/-- A member in front of a cut list stays alone if there is a cut behind it, and joins the first
block otherwise. -/
theorem cutWhere_cons_cons (a b : α) (rest : List α) :
    ∃ more blocks, cutWhere cut (b :: rest) = (b, more) :: blocks ∧
      cutWhere cut (a :: b :: rest) =
        if cut a b then (a, []) :: (b, more) :: blocks else (a, b :: more) :: blocks := by
  obtain ⟨more, blocks, hEq⟩ := cutWhere_cons cut b rest
  refine ⟨more, blocks, hEq, ?_⟩
  rw [cutWhere, hEq]

/-- Cutting neither loses nor reorders members. -/
theorem flatMap_cutWhere (xs : List α) : (cutWhere cut xs).flatMap blockMembers = xs := by
  induction xs with
  | nil => rfl
  | cons a rest ih =>
      cases rest with
      | nil => rfl
      | cons b rest =>
          obtain ⟨more, blocks, hEq, hCons⟩ := cutWhere_cons_cons cut a b rest
          rw [hEq] at ih
          rw [hCons]
          split
          · rw [List.flatMap_cons, ih]
            rfl
          · rw [List.flatMap_cons] at ih ⊢
            exact congrArg (a :: ·) ih

/-- Inside a block there is no place to cut. -/
theorem isChain_of_mem_cutWhere {xs : List α} {b : α × List α} (h : b ∈ cutWhere cut xs) :
    (blockMembers b).IsChain fun x y => cut x y = false := by
  induction xs generalizing b with
  | nil => simp [cutWhere] at h
  | cons a rest ih =>
      cases rest with
      | nil =>
          rw [cutWhere, cutWhere, List.mem_singleton] at h
          rw [h]
          exact .singleton _
      | cons c rest =>
          obtain ⟨more, blocks, hEq, hCons⟩ := cutWhere_cons_cons cut a c rest
          rw [hEq] at ih
          rw [hCons] at h
          split at h
          · rcases List.mem_cons.mp h with rfl | h
            · exact .singleton _
            · exact ih h
          · next hCut =>
              rcases List.mem_cons.mp h with rfl | h
              · exact List.isChain_cons_cons.mpr ⟨by simpa using hCut, ih (List.mem_cons_self ..)⟩
              · exact ih (List.mem_cons_of_mem _ h)

/-- A block is a stretch of the list. -/
theorem infix_of_mem_cutWhere {xs : List α} {b : α × List α} (h : b ∈ cutWhere cut xs) :
    blockMembers b <:+: xs := by
  obtain ⟨before, after, hSplit⟩ := List.append_of_mem h
  refine ⟨before.flatMap blockMembers, after.flatMap blockMembers, ?_⟩
  rw [← flatMap_cutWhere cut xs, hSplit]
  simp

theorem fst_mem_of_mem_cutWhere {xs : List α} {b : α × List α} (h : b ∈ cutWhere cut xs) :
    b.1 ∈ xs :=
  (infix_of_mem_cutWhere cut h).subset (List.mem_cons_self ..)

/-- The place of a cut in a list is in front, or it is in the rest. -/
theorem exists_cut_cons_iff {a b y : α} {rest : List α} :
    (∃ before x after, a :: b :: rest = before ++ x :: y :: after ∧ cut x y = true) ↔
      (y = b ∧ cut a b = true) ∨
        ∃ before x after, b :: rest = before ++ x :: y :: after ∧ cut x y = true := by
  constructor
  · rintro ⟨before, x, after, hEq, hCut⟩
    cases before with
    | nil =>
        obtain ⟨rfl, rfl, rfl⟩ : a = x ∧ b = y ∧ rest = after := by simpa using hEq
        exact Or.inl ⟨rfl, hCut⟩
    | cons first before =>
        rw [List.cons_append, List.cons.injEq] at hEq
        exact Or.inr ⟨before, x, after, hEq.2, hCut⟩
  · rintro (⟨rfl, hCut⟩ | ⟨before, x, after, hEq, hCut⟩)
    · exact ⟨[], a, rest, rfl, hCut⟩
    · exact ⟨a :: before, x, after, by rw [hEq, List.cons_append], hCut⟩

/-- Blocks after the first one begin exactly where the condition holds. -/
theorem mem_tail_cutWhere_iff {xs : List α} {y : α} :
    y ∈ (cutWhere cut xs).tail.map Prod.fst ↔
      ∃ before x after, xs = before ++ x :: y :: after ∧ cut x y = true := by
  induction xs with
  | nil => simp [cutWhere]
  | cons a rest ih =>
      cases rest with
      | nil => simp [cutWhere, List.cons_eq_append_iff]
      | cons b rest =>
          obtain ⟨more, blocks, hEq, hCons⟩ := cutWhere_cons_cons cut a b rest
          rw [hEq, List.tail_cons] at ih
          rw [hCons, exists_cut_cons_iff, ← ih]
          by_cases hCut : cut a b = true
          · simp [hCut]
          · simp [hCut]

end Cut

/-- Whether the cache has given up a flow before the next one starts. -/
def hasExpired (timeout : Option UInt64) (earlier later : Flow) : Bool :=
  gapExpires timeout earlier.endTime later.startTime

/-- One flow for a block. The flow count is not known. -/
def mergeBlock (block : Flow × List Flow) : Except CounterOverflow Flow := do
  let f ← Flow.aggregate block.1 block.2
  return f.uncounted

/-- The flow of a block whose totals fit. -/
def blockFlow (b : Flow × List Flow) : Flow :=
  { Flow.hull b.1 b.2 with flowCount := none }

theorem volume_blockFlow {b : Flow × List Flow} (h : Dataset.Fits (blockMembers b)) :
    (blockFlow b).volume = Dataset.volume (blockMembers b) :=
  Flow.volume_hull h

/-- All blocks of the flow cache, ordered by key and then by start. -/
def cacheBlocks (flows : List Flow) (timeout : Option UInt64) : Blocks Flow :=
  (groupBy Flow.key flows).flatMap fun group => cutWhere (hasExpired timeout) (byStart group.2)

theorem byStart_perm (flows : List Flow) : (byStart flows).Perm flows :=
  List.mergeSort_perm _ _

/-- The flows of a block have the key of its group. -/
theorem key_eq_of_mem_cutWhere {flows : List Flow} {timeout : Option UInt64}
    {group : FlowKey × List Flow} (hGroup : group ∈ groupBy Flow.key flows)
    {b : Flow × List Flow} (hb : b ∈ cutWhere (hasExpired timeout) (byStart group.2)) :
    ∀ f ∈ blockMembers b, f.key = group.1 := by
  intro f hf
  have hSorted : f ∈ byStart group.2 := (infix_of_mem_cutWhere _ hb).subset hf
  exact (mem_groupBy hGroup).2 f ((byStart_perm group.2).subset hSorted)

/-- A block has flows of one key only. -/
theorem key_eq_of_mem_cacheBlocks {flows : List Flow} {timeout : Option UInt64}
    {b : Flow × List Flow} (h : b ∈ cacheBlocks flows timeout) :
    ∀ f ∈ blockMembers b, f.key = b.1.key := by
  obtain ⟨group, hGroup, hb⟩ := List.mem_flatMap.mp h
  have hKey := key_eq_of_mem_cutWhere hGroup hb
  intro f hf
  rw [hKey f hf, hKey b.1 (List.mem_cons_self ..)]

/-- No flow starts before an earlier one of the list. -/
def StartSorted (flows : List Flow) : Prop :=
  flows.Pairwise fun f g => f.startTime.toNat ≤ g.startTime.toNat

theorem decide_startTime_trans (f g w : Flow) (h : decide (f.startTime ≤ g.startTime))
    (h' : decide (g.startTime ≤ w.startTime)) : decide (f.startTime ≤ w.startTime) := by
  simp only [decide_eq_true_eq, UInt64.le_iff_toNat_le] at h h' ⊢
  exact Nat.le_trans h h'

theorem decide_startTime_total (f g : Flow) :
    decide (f.startTime ≤ g.startTime) || decide (g.startTime ≤ f.startTime) := by
  simp only [Bool.or_eq_true, decide_eq_true_eq, UInt64.le_iff_toNat_le]
  exact Nat.le_total _ _

theorem startSorted_byStart (flows : List Flow) : StartSorted (byStart flows) := by
  have hSorted := List.pairwise_mergeSort decide_startTime_trans decide_startTime_total flows
  exact hSorted.imp fun h => UInt64.le_iff_toNat_le.mp (of_decide_eq_true h)

namespace StartSorted

theorem head_le {f : Flow} {flows : List Flow} (h : StartSorted (f :: flows)) :
    ∀ g ∈ flows, f.startTime.toNat ≤ g.startTime.toNat :=
  (List.pairwise_cons.mp h).1

theorem head_le_of_mem {f g : Flow} {flows : List Flow} (h : StartSorted (f :: flows))
    (hg : g ∈ f :: flows) : f.startTime.toNat ≤ g.startTime.toNat := by
  rcases List.mem_cons.mp hg with rfl | hg
  · exact Nat.le_refl _
  · exact h.head_le g hg

theorem tail {f : Flow} {flows : List Flow} (h : StartSorted (f :: flows)) : StartSorted flows :=
  (List.pairwise_cons.mp h).2

variable {cut : Flow → Flow → Bool} {b : Flow × List Flow}

/-- Blocks inherit the order of the list. -/
theorem of_mem_cutWhere {flows : List Flow} (h : StartSorted flows) (hb : b ∈ cutWhere cut flows) :
    StartSorted (blockMembers b) :=
  h.sublist (infix_of_mem_cutWhere cut hb).sublist

/-- No block starts before the list does. -/
theorem head_le_of_mem_cutWhere {f : Flow} {flows : List Flow} (h : StartSorted (f :: flows))
    (hb : b ∈ cutWhere cut (f :: flows)) : f.startTime.toNat ≤ b.1.startTime.toNat :=
  h.head_le_of_mem (fst_mem_of_mem_cutWhere cut hb)

end StartSorted

/-- Every flow is in exactly one block. -/
theorem flatMap_cacheBlocks_perm (flows : List Flow) (timeout : Option UInt64) :
    ((cacheBlocks flows timeout).flatMap blockMembers).Perm flows := by
  refine List.Perm.trans ?_ (flatMap_groupBy_perm Flow.key flows)
  rw [cacheBlocks, List.flatMap_assoc]
  refine List.Perm.flatMap_left _ fun group _ => ?_
  rw [flatMap_cutWhere]
  exact byStart_perm group.2

/-- A block becomes one flow iff its totals fit. Otherwise its key is reported. -/
theorem mergeBlock_eq (b : Flow × List Flow) :
    mergeBlock b =
      if decide (Dataset.Fits (blockMembers b)) then .ok (blockFlow b) else .error ⟨b.1.key⟩ := by
  rw [mergeBlock, Flow.aggregate_eq]
  by_cases h : Dataset.Fits (blockMembers b)
  · rw [blockMembers] at h
    simp only [h, if_true, ok_bind, blockMembers, decide_true]
    rfl
  · rw [blockMembers] at h
    simp only [h, if_false, blockMembers, decide_false]
    rfl

namespace FlowCache

variable {timeout : Option UInt64}

/-- A flow in time goes to the open one, and the flow seen last is the new one in any case. -/
theorem see_of_kept {c : FlowCache} {last f : Flow} (hLast : c.lastEnd = last.endTime)
    (h : hasExpired timeout last f = false) :
    c.see timeout f =
      c.current.absorb f >>= fun current => .ok ⟨c.finished, current, f.endTime⟩ := by
  rw [hasExpired, ← hLast] at h
  rw [see, h, if_neg Bool.false_ne_true]
  rfl

/-- A flow that comes too late is opened in place of the open one, which is given up. -/
theorem see_of_expired {c : FlowCache} {last f : Flow} (hLast : c.lastEnd = last.endTime)
    (h : hasExpired timeout last f = true) :
    c.see timeout f = .ok (opening c.flush f) := by
  rw [hasExpired, ← hLast] at h
  rw [see, h, if_pos rfl]

/-- The scan against the cuts. The open flow takes in the rest of the block of the flow seen last;
every later block is added up on its own. -/
theorem flush_foldlM_see {last : Flow} {rest more : List Flow} {blocks : Blocks Flow}
    (hCut : cutWhere (hasExpired timeout) (last :: rest) = (last, more) :: blocks) {c : FlowCache}
    (hLast : c.lastEnd = last.endTime) :
    (rest.foldlM (see timeout) c >>= fun c => .ok c.flush) =
      Flow.aggregate c.current more >>= fun current =>
        blocks.mapM mergeBlock >>= fun others =>
          .ok (c.finished.push current.uncounted ++ others.toArray) := by
  -- The flow seen last is not part of the cache, only its end is. The open flow may end later.
  induction rest generalizing last more blocks c with
  | nil =>
      cases hCut
      simp [flush, Flow.aggregate]
  | cons f rest ih =>
      obtain ⟨more', blocks', hEq, hCons⟩ := cutWhere_cons_cons (hasExpired timeout) last f rest
      rw [hCons] at hCut
      cases hExpired : hasExpired timeout last f with
      | false =>
          rw [hExpired, if_neg Bool.false_ne_true] at hCut
          cases hCut
          rw [List.foldlM_cons, see_of_kept hLast hExpired, Flow.aggregate, List.foldlM_cons]
          simp only [bind_assoc, ok_bind]
          exact bind_congr fun current => ih hEq rfl
      | true =>
          rw [hExpired, if_pos rfl] at hCut
          cases hCut
          rw [List.foldlM_cons, see_of_expired hLast hExpired, ok_bind, ih hEq rfl]
          simp [mergeBlock, flush, Flow.aggregate, opening]

/-- What one key adds to the flows that are given up: one flow for each of its blocks. -/
theorem run_eq (finished : Array Flow) (flows : List Flow) :
    run timeout finished flows =
      (cutWhere (hasExpired timeout) (byStart flows)).mapM mergeBlock >>= fun merged =>
        .ok (finished ++ merged.toArray) := by
  rw [run]
  cases byStart flows with
  | nil => simp [cutWhere]
  | cons first rest =>
      obtain ⟨more, blocks, hCut⟩ := cutWhere_cons (hasExpired timeout) first rest
      change (rest.foldlM (see timeout) (opening finished first) >>= fun c => .ok c.flush) = _
      rw [flush_foldlM_see hCut rfl, hCut, List.mapM_cons]
      simp [mergeBlock, opening]

end FlowCache

/-- The scan gives one flow for each block. -/
theorem mergeAcrossLoops_eq_mapM (flows : List Flow) (timeout : Option UInt64) :
    mergeAcrossLoops flows timeout = (cacheBlocks flows timeout).mapM mergeBlock := by
  rw [mergeAcrossLoops, cacheBlocks, ← flatten_mapM_mapM]
  simp only [FlowCache.run_eq, foldlM_append_toArray, bind_assoc, ok_bind]
  exact bind_congr fun merged => by simp

/-- Merging across loops is a checked addition of each block. The first block whose totals do not
fit ends it. -/
theorem mergeAcrossLoops_eq (flows : List Flow) (timeout : Option UInt64) :
    mergeAcrossLoops flows timeout =
      ((cacheBlocks flows timeout).find? fun b => !decide (Dataset.Fits (blockMembers b))).elim
        (.ok ((cacheBlocks flows timeout).map blockFlow)) fun b => .error ⟨b.1.key⟩ := by
  rw [← mapM_check, ← funext mergeBlock_eq, mergeAcrossLoops_eq_mapM]

/-- Merging across loops succeeds iff the totals of every block fit. -/
theorem mergeAcrossLoops_eq_ok_iff {flows out : List Flow} {timeout : Option UInt64} :
    mergeAcrossLoops flows timeout = .ok out ↔
      (∀ b ∈ cacheBlocks flows timeout, Dataset.Fits (blockMembers b)) ∧
        out = (cacheBlocks flows timeout).map blockFlow := by
  rw [mergeAcrossLoops_eq]
  cases hFind : (cacheBlocks flows timeout).find?
      fun b => !decide (Dataset.Fits (blockMembers b)) with
  | none =>
      have hFits : ∀ b ∈ cacheBlocks flows timeout, Dataset.Fits (blockMembers b) := by
        simpa [List.find?_eq_none] using hFind
      constructor
      · intro h
        exact ⟨hFits, (Except.ok.inj h).symm⟩
      · rintro ⟨_, rfl⟩
        rfl
  | some b =>
      have hNot : ¬Dataset.Fits (blockMembers b) := by
        simpa using List.find?_some hFind
      constructor
      · intro h
        cases h
      · intro h
        exact absurd (h.1 b (List.mem_of_find?_eq_some hFind)) hNot

/-- The flow cache keeps all packets and bytes. -/
theorem volume_mergeAcrossLoops {flows out : List Flow} {timeout : Option UInt64}
    (h : mergeAcrossLoops flows timeout = .ok out) :
    Dataset.volume out = Dataset.volume flows := by
  obtain ⟨hFits, rfl⟩ := mergeAcrossLoops_eq_ok_iff.mp h
  rw [← Dataset.volume_perm (flatMap_cacheBlocks_perm flows timeout)]
  generalize cacheBlocks flows timeout = blocks at hFits ⊢
  induction blocks with
  | nil => rfl
  | cons b rest ih =>
      obtain ⟨hHead, hRest⟩ := List.forall_mem_cons.mp hFits
      rw [List.map_cons, Dataset.volume_cons, volume_blockFlow hHead, ih hRest, List.flatMap_cons,
        Dataset.volume_append]

end FlowAudit
