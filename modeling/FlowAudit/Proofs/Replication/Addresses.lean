import FlowAudit.Proofs.Replication.Blocks
import FlowAudit.Proofs.Replication.Outcome
import FlowAudit.Proofs.Replication.Shift
import FlowAudit.Proofs.Replication.WrittenPlan
/-!
The addresses of a replay, from the plan as it is written to the flows that come out. Offsets of
units and loops grow without bound here; only the sum with the address is taken modulo the size of
its family, and no earlier reduction changes it.
-/
namespace FlowAudit

namespace Address

/-- The address that lies an exact number of units further. A unit is one address of the short
family, and one step of the topmost 32 bits of the long family. -/
def advance (a : Address) (units : Nat) : Address :=
  match a.family with
  | .v4 => ⟨.v4, (a.number + units) % 2 ^ 32, Nat.mod_lt _ (Nat.two_pow_pos 32)⟩
  | .v6 => ⟨.v6, (a.number + units * 2 ^ 96) % 2 ^ 128, Nat.mod_lt _ (Nat.two_pow_pos 128)⟩

/-- Moving an address is exact arithmetic on its number. For long addresses the units count the
leading 32 bits only. -/
theorem move_eq_advance (a : Address) (units : Nat) : a.move units = a.advance units := by
  obtain ⟨family, number, _⟩ := a
  cases family with
  | v4 => simp only [move, advance, ofNat, Family.unit, Family.size, Family.bits, Nat.mul_one,
      Nat.one_shiftLeft]
  | v6 => simp only [move, advance, ofNat, Family.unit, Family.size, Family.bits,
      Nat.one_shiftLeft]

/-- Whether two addresses agree in their family and in the bits that no offset reaches. -/
structure SameHost (a b : Address) : Prop where
  family : a.family = b.family
  lowBits : a.family = .v6 → a.number % 2 ^ 96 = b.number % 2 ^ 96

/-- The bits below the units stay as they are. -/
theorem sameHost_advance (a : Address) (units : Nat) : (a.advance units).SameHost a := by
  obtain ⟨family, number, _⟩ := a
  cases family with
  | v4 => exact ⟨rfl, fun h => by cases h⟩
  | v6 =>
      have hLow : (number + units * 2 ^ 96) % 2 ^ 128 % 2 ^ 96 = number % 2 ^ 96 := by
        rw [Nat.mod_mod_of_dvd _ (Nat.pow_dvd_pow 2 (by decide)), Nat.add_mul_mod_self_right]
      exact ⟨rfl, fun _ => hLow⟩

end Address

/-- The key of a flow that a written unit replays in a loop. -/
def WrittenUnit.replayedKey (w perLoop : WrittenUnit) (loop : UInt32) (k : FlowKey) : FlowKey :=
  { k with
    source := k.source.advance (w.source + loop.toNat * perLoop.source)
    destination := k.destination.advance (w.destination + loop.toNat * perLoop.destination) }

namespace Replicator

/-- The keys that a written plan asks for: for each loop that is not ignored and each flow, one for
each active unit. Units that lead to one key are replayed together. -/
def replayedKeys (plan : Json) (ignored : List UInt32) (d : Dataset) (options : ReplayOptions) :
    List FlowKey :=
  ((loopsOf options).filter (· ∉ ignored)).flatMap fun loop => d.flatMap fun f =>
    (((Plan.writtenUnits plan).filter fun w => w.loops.contains loop).map fun w =>
      w.replayedKey (Plan.writtenPerLoop plan) loop f.key).eraseDups

/-- A key as a shift leaves it. -/
def shiftKey (k : FlowKey) (s : Shift) : FlowKey :=
  { k with source := k.source.shift s.source, destination := k.destination.shift s.destination }

/-- Different offsets give different keys, so no two shifts of a flow meet. -/
theorem shiftKey_injective (k : FlowKey) : Function.Injective (shiftKey k) := by
  intro s s' h
  have hSource := Address.shift_injective _ (congrArg FlowKey.source h)
  have hDestination := Address.shift_injective _ (congrArg FlowKey.destination h)
  cases s
  cases s'
  exact Shift.mk.injEq .. ▸ ⟨hSource, hDestination⟩

/-- Reducing the written numbers before the loop is multiplied in changes no address. -/
theorem move_exactOffset {unit perLoop : Option Modifier} {m n : Nat}
    (hUnit : (Modifier.offsetOf unit).toNat = m % 2 ^ 32)
    (hPerLoop : (Modifier.offsetOf perLoop).toNat = n % 2 ^ 32) (a : Address) (loop : UInt32) :
    a.move (exactOffset unit perLoop loop) = a.advance (m + loop.toNat * n) := by
  rw [← Address.move_eq_advance, Address.move_eq_move_iff, exactOffset, hUnit, hPerLoop]
  exact (Nat.mod_modEq m _).add ((Nat.mod_modEq n _).mul_left _)

/-- Offsets in words lead to the same key as the written numbers, of any size. -/
theorem shiftKey_shiftOf {plan : Plan} {u : ReplayUnit} {w p : WrittenUnit} (hUnit : u.Reduces w)
    (hPerLoop : plan.perLoop.Reduces p) (loop : UInt32) (k : FlowKey) :
    shiftKey k (shiftOf plan loop u) = w.replayedKey p loop k := by
  simp only [shiftKey, shiftOf, shift_word_offset, WrittenUnit.replayedKey,
    move_exactOffset hUnit.source hPerLoop.source,
    move_exactOffset hUnit.destination hPerLoop.destination]

/-- The shifts of a loop lead to the keys of its written units. -/
theorem map_shiftKey_shiftsIn {plan : Plan} {written : List WrittenUnit} {p : WrittenUnit}
    {loop : UInt32} (hActive : Plan.ActiveUnits loop plan.units written)
    (hPerLoop : plan.perLoop.Reduces p) (k : FlowKey) :
    (shiftsIn plan loop).map (fun s => shiftKey k s.1) =
      ((written.filter fun w => w.loops.contains loop).map fun w =>
        w.replayedKey p loop k).eraseDups := by
  have hKeys : (unitShifts plan loop).map (shiftKey k) =
      (written.filter fun w => w.loops.contains loop).map fun w => w.replayedKey p loop k := by
    rw [unitShifts, Plan.activeIn, List.map_map]
    exact (map_eq_map_of_forall₂ hActive fun _ _ hUnit =>
      (shiftKey_shiftOf hUnit hPerLoop loop k).symm).symm
  rw [← hKeys, eraseDups_map (shiftKey_injective k), shiftsIn_eq, List.map_map]
  rfl

/-- A replay changes the addresses of a flow, and neither its ports nor its protocol. -/
theorem key_replay {clock : Clock} {loop : UInt32} {f g : Flow} {s : Shift} {copies : Nat}
    (h : replay clock loop f s copies = .ok g) : g.key = shiftKey f.key s := by
  rw [replay] at h
  split at h
  · cases h
    rfl
  · cases h

/-- The keys of a loop: for each recorded flow one key for each shift. -/
theorem keys_replayLoop {plan : Plan} {clock : Clock} {d out : Dataset} {loop : UInt32}
    (h : replayLoop plan clock d loop = .ok out) :
    out.map Flow.key = d.flatMap fun f =>
      (shiftsIn plan loop).map fun s => shiftKey f.key s.1 := by
  obtain ⟨flows, hFlows, hOut⟩ := bind_eq_ok_iff.mp h
  cases hOut
  have hEach : flows.map (List.map Flow.key) =
      d.map fun f => (shiftsIn plan loop).map fun s => shiftKey f.key s.1 :=
    map_eq_map_of_mapM hFlows fun f replayed hReplayed =>
      map_eq_map_of_mapM hReplayed fun _ _ => key_replay
  rw [List.map_flatten, hEach, List.flatMap_def]

/-- The keys of all loops, one for each flow and each distinct shift. -/
theorem map_key_replayAll {r : Replicator} {d out : Dataset} {options : ReplayOptions}
    (h : r.replayAll d options = .ok out) :
    out.map Flow.key = (r.activeLoops options).flatMap fun loop => d.flatMap fun f =>
      (shiftsIn r.plan loop).map fun s => shiftKey f.key s.1 := by
  rw [replayAll] at h
  cases hBounds : d.timeBounds? with
  | none =>
      rw [hBounds] at h
      cases h
      rw [Dataset.timeBounds?_eq_none_iff.mp hBounds]
      simp
  | some bounds =>
      rw [hBounds] at h
      obtain ⟨flows, hFlows, hOut⟩ := bind_eq_ok_iff.mp h
      cases hOut
      have hEach := map_eq_map_of_mapM hFlows fun _ _ => keys_replayLoop
      rw [List.map_flatten, hEach, ← List.flatMap_def]

/-- A replicator that can be made has the plan that was read. -/
theorem outcome_make_eq_ok {json : Json} {ignored : List UInt32} {r : Replicator}
    (h : (make json ignored).outcome = .ok r) :
    Plan.parse json (loopSet ignored) = .ok r.plan ∧ r.ignored = loopSet ignored := by
  rw [make, Traced.outcome_bind, Traced.outcome_lift] at h
  obtain ⟨plan, hPlan, h⟩ := bind_eq_ok_iff.mp h
  cases h
  exact ⟨hPlan, rfl⟩

/-- Loops that are ignored more than once, or in another order, are ignored all the same. -/
theorem activeLoops_of_make {json : Json} {ignored : List UInt32} {r : Replicator}
    (h : (make json ignored).outcome = .ok r) (options : ReplayOptions) :
    r.activeLoops options = (loopsOf options).filter (· ∉ ignored) := by
  rw [activeLoops, (outcome_make_eq_ok h).2]
  refine List.filter_congr fun loop _ => ?_
  simp [mem_loopSet]

/-- The keys of a replay are those that follow from the written plan. -/
theorem keys_replayAll {json : Json} {ignored : List UInt32} {r : Replicator}
    (hMake : (make json ignored).outcome = .ok r) {d out : Dataset} {options : ReplayOptions}
    (h : r.replayAll d options = .ok out) :
    out.map Flow.key = replayedKeys json ignored d options := by
  obtain ⟨hActive, hPerLoop⟩ := Plan.of_parse (outcome_make_eq_ok hMake).1
  rw [map_key_replayAll h, activeLoops_of_make hMake, replayedKeys]
  refine List.flatMap_congr fun loop hLoop => List.flatMap_congr fun f _ => ?_
  have hReplayed : loop ∉ loopSet ignored := by
    simpa [mem_loopSet] using (List.mem_filter.mp hLoop).2
  exact map_shiftKey_shiftsIn (hActive loop hReplayed) hPerLoop f.key

end Replicator

/-- The flow cache has flows for the same keys before and after. -/
theorem mem_keys_mergeAcrossLoops {flows out : List Flow} {timeout : Option UInt64}
    (h : mergeAcrossLoops flows timeout = .ok out) {k : FlowKey} :
    k ∈ out.map Flow.key ↔ k ∈ flows.map Flow.key := by
  obtain ⟨_, rfl⟩ := mergeAcrossLoops_eq_ok_iff.mp h
  have hMembers := ((flatMap_cacheBlocks_perm flows timeout).map Flow.key).mem_iff (a := k)
  rw [← hMembers, List.map_map, List.map_flatMap, List.mem_flatMap, List.mem_map]
  refine exists_congr fun b => and_congr_right fun hb => ?_
  have hKeys : (blockMembers b).map Flow.key =
      List.replicate (blockMembers b).length b.1.key :=
    List.eq_replicate_iff.mpr ⟨List.length_map _, by
      simpa using key_eq_of_mem_cacheBlocks hb⟩
  rw [hKeys, List.mem_replicate]
  exact ⟨fun hKey => ⟨Nat.succ_ne_zero _, hKey.symm⟩, fun hKey => hKey.2.symm⟩

namespace Replicator

/-- Each key of a replay comes from a recorded flow between hosts with the same lower bits. -/
theorem sameHost_of_mem_replayedKeys {plan : Json} {ignored : List UInt32} {d : Dataset}
    {options : ReplayOptions} {k : FlowKey} (h : k ∈ replayedKeys plan ignored d options) :
    ∃ f ∈ d, k.source.SameHost f.key.source ∧ k.destination.SameHost f.key.destination := by
  obtain ⟨loop, _, h⟩ := List.mem_flatMap.mp h
  obtain ⟨f, hf, h⟩ := List.mem_flatMap.mp h
  obtain ⟨w, _, rfl⟩ := List.mem_map.mp (List.mem_eraseDups.mp h)
  exact ⟨f, hf, Address.sameHost_advance _ _, Address.sameHost_advance _ _⟩

/-- A replay writes the addresses that the plan asks for with numbers of any size, in the order of
loops, flows and units. A flow cache merges flows of one key but neither adds nor drops a key.
No address leaves its family, and the low bits of long addresses stay as recorded. -/
theorem keys_replicate {plan : Json} {ignored : List UInt32} {r : Replicator} {d out : Dataset}
    {options : ReplayOptions} (hMake : (make plan ignored).outcome = .ok r)
    (h : (r.replicate d options).outcome = .ok out) :
    (options.mergeAcrossLoops = false →
      out.map Flow.key = replayedKeys plan ignored d options) ∧
    (∀ k, k ∈ out.map Flow.key ↔ k ∈ replayedKeys plan ignored d options) ∧
    ∀ g ∈ out, ∃ f ∈ d, g.key.source.SameHost f.key.source ∧
      g.key.destination.SameHost f.key.destination := by
  obtain ⟨hFinite, hPositive⟩ := speed_of_replicate_ok h
  rw [outcome_replicate r d options hFinite hPositive] at h
  obtain ⟨flows, hFlows, hMerged⟩ := bind_eq_ok_iff.mp h
  have hReplayed := keys_replayAll hMake (mapError_eq_ok_iff.mp hFlows)
  have hKeys : (options.mergeAcrossLoops = false → out = flows) ∧
      ∀ k, k ∈ out.map Flow.key ↔ k ∈ flows.map Flow.key := by
    cases hMerge : options.mergeAcrossLoops with
    | false =>
        rw [hMerge] at hMerged
        cases hMerged
        exact ⟨fun _ => rfl, fun _ => Iff.rfl⟩
    | true =>
        rw [hMerge] at hMerged
        refine ⟨fun hFalse => absurd hFalse Bool.true_eq_false_eq_False, fun k => ?_⟩
        exact mem_keys_mergeAcrossLoops (mapError_eq_ok_iff.mp hMerged)
  rw [hReplayed] at hKeys
  refine ⟨fun hSeparate => ?_, hKeys.2, fun g hg => ?_⟩
  · rw [hKeys.1 hSeparate, hReplayed]
  · exact sameHost_of_mem_replayedKeys ((hKeys.2 g.key).mp (List.mem_map_of_mem hg))

/-- Numbers far beyond a word, for a short and a long address that both wrap around. The second
unit replays in loop one only, since loop two is ignored. -/
theorem keys_replicate_long_numbers :
    let v4 (source destination : Nat) : FlowKey :=
      ⟨6, .ofNat .v4 source, .ofNat .v4 destination, 1, 80⟩
    let v6 (source destination : Nat) : FlowKey :=
      ⟨17, .ofNat .v6 (source <<< 96 + 1), .ofNat .v6 (destination <<< 96 + 2), 1, 53⟩
    let loops : Json := .array [.number (.natural 2), .number (.natural 1)]
    let plan : Json := .object
      [("units", .array
        [.object [("srcip", .string "addConstant(4294967297)"), ("dstip", .null)],
          .object [("loopOnly", loops), ("srcip", .string " addOffset( 98765432109876543210 ) ")]]),
        ("loop", .object [("dstip", .string "addConstant(8589934593)")])]
    let r : Replicator :=
      ⟨⟨[⟨some ⟨1⟩, none, .all⟩, ⟨some ⟨3844505322⟩, none, .only [1, 2]⟩],
        ⟨none, some ⟨1⟩, .all⟩⟩, [2]⟩
    let d : Dataset :=
      [⟨v4 0xffffffff 0xfffffffe, 1000, 2000, 5, 500, none⟩,
        ⟨v6 0xffffffff 0xfffffffe, 1500, 1500, 1, 50, none⟩]
    let out : Dataset :=
      [⟨v4 0 0xfffffffe, 1000, 2000, 5, 500, none⟩, ⟨v6 0 0xfffffffe, 1500, 1500, 1, 50, none⟩,
        ⟨v4 0 0xffffffff, 2000, 3000, 5, 500, none⟩,
        ⟨v4 3844505321 0xffffffff, 2000, 3000, 5, 500, none⟩,
        ⟨v6 0 0xffffffff, 2500, 2500, 1, 50, none⟩,
        ⟨v6 3844505321 0xffffffff, 2500, 2500, 1, 50, none⟩,
        ⟨v4 0 1, 4000, 5000, 5, 500, none⟩, ⟨v6 0 1, 4500, 4500, 1, 50, none⟩]
    (make plan [2]).outcome = .ok r ∧ (r.replicate d (.plain 4)).outcome = .ok out ∧
      (Plan.writtenUnits plan).map WrittenUnit.source = [4294967297, 98765432109876543210] ∧
      out.map Flow.key = replayedKeys plan [2] d (.plain 4) := by
  intro v4 v6 loops plan r d out
  have hMake : (make plan [2]).outcome = .ok r := by rfl
  have hFlows : r.replayAll d (.plain 4) = .ok out := by decide +kernel
  have hOutcome : (r.replicate d (.plain 4)).outcome = .ok out := by
    rw [outcome_replicate r d (.plain 4) (by decide) (by decide), hFlows, mapError_ok, ok_bind]
    rfl
  exact ⟨hMake, hOutcome, by rfl, (keys_replicate hMake hOutcome).1 rfl⟩

end Replicator

end FlowAudit
