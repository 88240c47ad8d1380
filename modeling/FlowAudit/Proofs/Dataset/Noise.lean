import FlowAudit.Proofs.Dataset.Derived
import FlowAudit.Proofs.Dataset.Loaded
import FlowAudit.Proofs.Replication.Addresses
/-!
Noise destinations. Flows to them are left out when a table is built, and no operation on flows
changes a destination but a replay. A replay moves destinations without looking at where they go,
so its result is free of noise iff no flow is moved onto a noise destination.
-/
namespace FlowAudit

namespace Address

/-- A noise destination lies the given number of units further: the last short address, or a long
address whose leading 16 bits are `ff02`. Units of long addresses count the leading 32 bits. -/
def NoiseAhead (a : Address) (units : Nat) : Prop :=
  a.family = .v4 ∧ (a.number + units) % 2 ^ 32 = 2 ^ 32 - 1 ∨
    a.family = .v6 ∧ (a.number / 2 ^ 96 + units) % 2 ^ 32 / 2 ^ 16 = 0xff02

instance (a : Address) (units : Nat) : Decidable (a.NoiseAhead units) :=
  inferInstanceAs (Decidable (_ ∨ _))

/-- Moving an address makes it noise iff a noise address lies this many units ahead. -/
theorem isNoise_move_iff (a : Address) (units : Nat) :
    (a.move units).isNoise = true ↔ a.NoiseAhead units := by
  rw [move_eq_advance]
  obtain ⟨family, number, _⟩ := a
  cases family with
  | v4 => simp [advance, isNoise, NoiseAhead, UInt32.size]
  | v6 =>
      simp only [advance, isNoise, NoiseAhead, beq_iff_eq, Nat.shiftRight_eq_div_pow, reduceCtorEq,
        false_and, true_and, false_or]
      omega

end Address

namespace Replicator

/-- No unit moves a flow onto a noise destination in any loop that it replays. -/
def AvoidsNoise (r : Replicator) (d : Dataset) (options : ReplayOptions) : Prop :=
  ∀ loop ∈ r.activeLoops options, ∀ f ∈ d, ∀ u ∈ r.plan.activeIn loop,
    ¬f.key.destination.NoiseAhead (exactOffset u.destination r.plan.perLoop.destination loop)

instance (r : Replicator) (d : Dataset) (options : ReplayOptions) :
    Decidable (r.AvoidsNoise d options) :=
  -- Not all words are tried as loops, only those of the list.
  List.decidableBAll (fun loop => ∀ f ∈ d, ∀ u ∈ r.plan.activeIn loop,
    ¬f.key.destination.NoiseAhead (exactOffset u.destination r.plan.perLoop.destination loop))
    (r.activeLoops options)

/-- The result has flows of exactly those keys that some unit moves some flow to. -/
theorem mem_keys_replicate {r : Replicator} {d out : Dataset} {options : ReplayOptions}
    (h : (r.replicate d options).outcome = .ok out) {k : FlowKey} :
    k ∈ out.map Flow.key ↔ ∃ loop ∈ r.activeLoops options, ∃ f ∈ d, ∃ u ∈ r.plan.activeIn loop,
      shiftKey f.key (shiftOf r.plan loop u) = k := by
  obtain ⟨flows, hFlows, hOut⟩ := replayAll_of_replicate h
  have hKeys : k ∈ out.map Flow.key ↔ k ∈ flows.map Flow.key := by
    rcases hOut with rfl | hMerged
    · exact Iff.rfl
    · exact mem_keys_mergeAcrossLoops hMerged
  rw [hKeys, map_key_replayAll hFlows]
  simp only [List.mem_flatMap, shiftsIn_eq, unitShifts, List.map_map, List.mem_map,
    List.mem_eraseDups, Function.comp_apply, exists_exists_and_eq_and]

end Replicator

namespace Dataset

/-- No flow goes to a noise destination. -/
def NoiseFree (d : Dataset) : Prop :=
  ∀ f ∈ d, f.key.destination.isNoise = false

/-- The tables that are read, or made from a list of flows. -/
def Built (d : Dataset) : Prop :=
  Loaded d ∨ ∃ flows, d = ofFlows flows

theorem noiseFree_ofFlows (flows : List Flow) : NoiseFree (ofFlows flows) := by
  intro f hf
  simpa using (List.mem_filter.mp hf).2

theorem ofFlows_eq_self_iff {d : Dataset} : ofFlows d = d ↔ d.NoiseFree := by
  simp [ofFlows, NoiseFree, List.filter_eq_self]

theorem Built.noiseFree {d : Dataset} (h : Built d) : d.NoiseFree := by
  rcases h with hLoaded | ⟨flows, rfl⟩
  · obtain ⟨rows, flows, _, rfl⟩ := hLoaded.exists_rows
    exact noiseFree_ofFlows flows
  · exact noiseFree_ofFlows flows

theorem noiseFree_iff_keys {d : Dataset} :
    d.NoiseFree ↔ ∀ k ∈ d.map Flow.key, k.destination.isNoise = false := by
  rw [NoiseFree, List.forall_mem_map]

/-- A replay is free of noise iff no offset of an active unit leads a destination to a noise
address. -/
theorem noiseFree_replicate_iff {r : Replicator} {d out : Dataset} {options : ReplayOptions}
    (h : (r.replicate d options).outcome = .ok out) :
    out.NoiseFree ↔ r.AvoidsNoise d options := by
  have hMoved : ∀ loop (f : Flow) (u : ReplayUnit),
      (Replicator.shiftKey f.key (Replicator.shiftOf r.plan loop u)).destination.isNoise = false ↔
        ¬f.key.destination.NoiseAhead
          (Replicator.exactOffset u.destination r.plan.perLoop.destination loop) := by
    intro loop f u
    rw [← Address.isNoise_move_iff, Bool.not_eq_true]
    simp only [Replicator.shiftKey, Replicator.shiftOf, Replicator.shift_word_offset]
  simp only [noiseFree_iff_keys, Replicator.mem_keys_replicate h, Replicator.AvoidsNoise, ← hMoved]
  constructor
  · intro hKeys loop hLoop f hf u hu
    exact hKeys _ ⟨loop, hLoop, f, hf, u, hu, rfl⟩
  · rintro hAvoids _ ⟨loop, hLoop, f, hf, u, hu, rfl⟩
    exact hAvoids loop hLoop f hf u hu

/-- Tables that are derived from built ones have no flows to noise destinations, as long as no
replay on the way moves a flow there. For the result of a single replay this is necessary as well.
A table that was saved can be loaded iff no times are reversed, and then all flows come back iff
none of them goes to a noise destination. -/
theorem noiseFree_of_derived (d : Dataset) :
    (d.Derived Built Replicator.AvoidsNoise → d.NoiseFree) ∧
    (∀ (r : Replicator) (options : ReplayOptions) (out : Dataset),
      (r.replicate d options).outcome = .ok out → (out.NoiseFree ↔ r.AvoidsNoise d options)) ∧
    ∀ (tree saved : FileTree) (path : String), d.save tree path = .ok saved →
      saved.find path ≠ .ok .sink →
        ((∃ e, (load saved path).outcome = .ok e) ↔ ∀ f ∈ d, f.startTime ≤ f.endTime) ∧
        ∀ e, (load saved path).outcome = .ok e → (e = d.map Flow.uncounted ↔ d.NoiseFree) := by
  refine ⟨fun h => ?_, fun r options out => noiseFree_replicate_iff, ?_⟩
  · refine h.forall_mem (fun _ hd => hd.noiseFree) (fun f w hWithin hf => ?_) (fun f ms hf => hf) ?_
    · rwa [hWithin.key]
    · intro r d options out hAvoids hReplicate _
      exact (noiseFree_replicate_iff hReplicate).mpr hAvoids
  · intro tree saved path hSave hSink
    have hLoad := fun e => load_save_eq_ok_iff (e := e) hSave hSink
    have hUncounted : NoiseFree (d.map Flow.uncounted) ↔ d.NoiseFree := List.forall_mem_map
    constructor
    · simp [hLoad]
    · intro e he
      obtain ⟨_, rfl⟩ := (hLoad e).mp he
      rw [ofFlows_eq_self_iff, hUncounted]

/-- Destinations of both families that two loops move close to noise, and a third one would move
onto it. -/
theorem noiseFree_of_derived_close :
    let short (destination : Nat) : FlowKey :=
      ⟨17, .ofNat .v4 0x0a000001, .ofNat .v4 destination, 1000, 53⟩
    let long (leading : Nat) : FlowKey :=
      ⟨17, .ofNat .v6 1, .ofNat .v6 (leading <<< 96), 1000, 53⟩
    let r : Replicator := ⟨⟨[.unchanged], ⟨none, some ⟨0xffffffff⟩, .all⟩⟩, []⟩
    let d : Dataset := ofFlows
      [⟨short 1, 0, 10, 2, 200, none⟩, ⟨long 0xff030001, 0, 10, 2, 200, none⟩,
        ⟨long 0xff020001, 0, 10, 2, 200, none⟩]
    let out : Dataset :=
      [⟨short 1, 0, 10, 2, 200, none⟩, ⟨long 0xff030001, 0, 10, 2, 200, none⟩,
        ⟨short 0, 10, 20, 2, 200, none⟩, ⟨long 0xff030000, 10, 20, 2, 200, none⟩]
    let saved : FileTree := ⟨[(["f"], .file out.render)]⟩
    r.AvoidsNoise d (.plain 2) ∧ (r.replicate d (.plain 2)).outcome = .ok out ∧ out.NoiseFree ∧
      (∀ more, (r.replicate d (.plain 3)).outcome = .ok more → ¬more.NoiseFree) ∧
      out.save .empty "f" = .ok saved ∧ (load saved "f").outcome = .ok out := by
  intro short long r d out saved
  have hAvoids : r.AvoidsNoise d (.plain 2) := by decide +kernel
  have hReaches : ¬r.AvoidsNoise d (.plain 3) := by decide +kernel
  have hFlows : r.replayAll d (.plain 2) = .ok out := by decide +kernel
  have hReplay : (r.replicate d (.plain 2)).outcome = .ok out := by
    rw [Replicator.outcome_replicate r d (.plain 2) (by decide) (by decide), hFlows, mapError_ok,
      ok_bind]
    rfl
  have hDerived : out.Derived Built Replicator.AvoidsNoise :=
    .replay (.source (.inr ⟨_, rfl⟩)) hAvoids hReplay
  obtain ⟨hClean, _, hSaved⟩ := noiseFree_of_derived out
  have hFree : out.NoiseFree := hClean hDerived
  have hLocate : ∀ t : FileTree, t.node? [] = some .directory → t.locate "f" = .ok ["f"] := by
    intro t hRoot
    have hComponents : FileTree.components "f" = ["f"] := by
      rw [FileTree.components, String.splitOn, if_neg (by decide), String.splitOnAux,
        if_neg (by decide), if_neg (by decide), String.splitOnAux, if_pos (by decide +kernel)]
      decide +kernel
    have hOrigin : FileTree.origin "f" = [] := by decide +kernel
    rw [FileTree.locate, hComponents, hOrigin, if_neg (by decide +kernel)]
    simp only [FileTree.walk, hRoot]
    decide +kernel
  have hSave : out.save .empty "f" = .ok saved := by
    simp only [save, FileTree.write, hLocate .empty (by decide), ok_bind]
    rw [if_neg (by decide +kernel), if_neg (by decide +kernel)]
    rfl
  have hSink : saved.find "f" ≠ .ok .sink := by
    have hFound : saved.find "f" = .ok (.file out.render) := by
      simp only [FileTree.find, hLocate saved rfl, ok_bind]
      change (if _ then _ else _ : Except FileError FileNode) = _
      rw [if_neg (by decide +kernel)]
      rfl
    intro hEq
    cases hFound.symm.trans hEq
  obtain ⟨hReadable, hBack⟩ := hSaved .empty saved "f" hSave hSink
  obtain ⟨e, hLoad⟩ := hReadable.mpr (by decide)
  have hSame : e = out := (hBack e hLoad).mpr hFree
  refine ⟨hAvoids, hReplay, hFree, fun more hMore hNone => ?_, hSave, hSame ▸ hLoad⟩
  exact hReaches (((noiseFree_of_derived d).2.1 r _ more hMore).mp hNone)

/-- A flow to the last address but one is moved onto the last one. What was saved comes back
without it. -/
theorem replicate_onto_noise :
    let key (destination : Nat) : FlowKey :=
      ⟨17, .ofNat .v4 0x0a000001, .ofNat .v4 destination, 1000, 53⟩
    let r : Replicator := ⟨⟨[⟨none, some ⟨1⟩, .all⟩], .unchanged⟩, []⟩
    let d : Dataset := ofFlows [⟨key 0xfffffffe, 0, 10, 2, 200, none⟩]
    let out : Dataset := [⟨key 0xffffffff, 0, 10, 2, 200, none⟩]
    d.Built ∧ d.NoiseFree ∧ (r.replicate d (.plain 1)).outcome = .ok out ∧
      (out.Derived Built fun _ _ _ => True) ∧ ¬out.NoiseFree ∧
      (parse out.render).outcome = .ok [] := by
  intro key r d out
  have hFlows : r.replayAll d (.plain 1) = .ok out := by decide +kernel
  have hReplay : (r.replicate d (.plain 1)).outcome = .ok out := by
    rw [Replicator.outcome_replicate r d (.plain 1) (by decide) (by decide), hFlows, mapError_ok,
      ok_bind]
    rfl
  have hBuilt : d.Built := .inr ⟨_, rfl⟩
  refine ⟨hBuilt, hBuilt.noiseFree, hReplay, .replay (.source hBuilt) trivial hReplay, ?_, ?_⟩
  · intro hFree
    exact absurd (hFree _ (List.mem_cons_self ..)) (by decide)
  · exact parse_render_eq_ok_iff.mpr ⟨by decide, by rfl⟩

end Dataset

end FlowAudit
