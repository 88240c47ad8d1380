import FlowAudit.Proofs.Replication.Addresses
import FlowAudit.Proofs.Replication.Expansion
/-!
Loops as time shifts. At normal speed a loop replays each recorded flow a whole number of loop
lengths later, so every loop has a window of its own that holds all of its flows, and windows of
different loops meet in one instant at most.
-/
namespace FlowAudit.Replicator

/-- Where a replayed flow comes from: a loop, a recorded flow, and the address offsets of one or
more units. -/
structure Origin where
  loop : UInt32
  flow : Flow
  shift : Shift
  copies : Nat

/-- The origins of all replayed flows in the order of their loops, flows and units. -/
def origins (r : Replicator) (d : Dataset) (options : ReplayOptions) : List Origin :=
  (r.activeLoops options).flatMap fun loop => d.flatMap fun f =>
    (shiftsIn r.plan loop).map fun s => ⟨loop, f, s.1, s.2⟩

namespace Origin

/-- A flow that is replayed at normal speed when all loops have the given length. -/
structure Replays (o : Origin) (length : Nat) (g : Flow) : Prop where
  key : g.key = shiftKey o.flow.key o.shift
  startTime : g.startTime.toNat = o.flow.startTime.toNat + o.loop.toNat * length
  endTime : g.endTime.toNat = o.flow.endTime.toNat + o.loop.toNat * length
  packets : g.packets.toNat = o.flow.packets.toNat * o.copies
  bytes : g.bytes.toNat = o.flow.bytes.toNat * o.copies
  flowCount : g.flowCount = none

/-- A flow that lies in the window of its loop. -/
structure Within (o : Origin) (start length : Nat) (g : Flow) : Prop where
  lower : start + o.loop.toNat * length ≤ g.startTime.toNat
  ordered : g.startTime ≤ g.endTime
  upper : g.endTime.toNat ≤ start + (o.loop.toNat + 1) * length

variable {o p : Origin} {start stop : Nat} {g h : Flow}

/-- A recorded flow lies within the recording, so its replay lies within the window of its loop. -/
theorem Replays.within (hReplays : o.Replays (stop - start) g)
    (hStart : start ≤ o.flow.startTime.toNat) (hOrdered : o.flow.startTime ≤ o.flow.endTime)
    (hStop : o.flow.endTime.toNat ≤ stop) : o.Within start (stop - start) g := by
  have hFirst := hReplays.startTime
  have hLast := hReplays.endTime
  rw [UInt64.le_iff_toNat_le] at hOrdered
  refine ⟨by omega, UInt64.le_iff_toNat_le.mpr (by omega), ?_⟩
  rw [Nat.add_one_mul]
  omega

/-- The window of a loop ends where the next one begins. -/
theorem Within.boundary {length t : Nat} (hEarly : o.Within start length g)
    (hLate : p.Within start length h) (hLoops : o.loop < p.loop) (ht : t ≤ g.endTime.toNat)
    (ht' : h.startTime.toNat ≤ t) : t = start + p.loop.toNat * length := by
  have hWindows := Nat.mul_le_mul_right length (Nat.succ_le_of_lt (UInt32.lt_iff_toNat_lt.mp hLoops))
  have hUpper := hEarly.upper
  have hLower := hLate.lower
  rw [Nat.succ_eq_add_one] at hWindows
  omega

/-- Two replays of one flow are as far apart as their loops. -/
theorem Replays.distance {length : Nat} (hEarly : o.Replays length g) (hLate : p.Replays length h)
    (hLoops : o.loop < p.loop) (hFlow : o.flow = p.flow) :
    h.startTime.toNat = g.startTime.toNat + (p.loop.toNat - o.loop.toNat) * length ∧
      h.endTime.toNat = g.endTime.toNat + (p.loop.toNat - o.loop.toNat) * length := by
  have hMore : p.loop.toNat * length =
      o.loop.toNat * length + (p.loop.toNat - o.loop.toNat) * length := by
    rw [← Nat.add_mul, Nat.add_sub_cancel' (UInt32.lt_iff_toNat_lt.mp hLoops).le]
  rw [hLate.startTime, hLate.endTime, hEarly.startTime, hEarly.endTime, hFlow]
  omega

end Origin

theorem mem_origins {r : Replicator} {d : Dataset} {options : ReplayOptions} {o : Origin}
    (h : o ∈ r.origins d options) :
    o.loop ∈ r.activeLoops options ∧ o.flow ∈ d ∧ (o.shift, o.copies) ∈ shiftsIn r.plan o.loop := by
  simp only [origins, List.mem_flatMap, List.mem_map] at h
  obtain ⟨loop, hLoop, f, hf, s, hs, rfl⟩ := h
  exact ⟨hLoop, hf, hs⟩

/-- Loops are numbered below their count. -/
theorem toNat_lt_loops {r : Replicator} {options : ReplayOptions} {loop : UInt32}
    (h : loop ∈ r.activeLoops options) : loop.toNat < options.loops.toNat := by
  obtain ⟨n, hn, rfl⟩ := List.mem_map.mp (List.mem_filter.mp h).1
  rw [List.mem_range] at hn
  rwa [UInt32.toNat_ofNat_of_lt' (hn.trans options.loops.toNat_lt)]

/-- A replay goes through the origins one by one. -/
theorem replayAll_eq_mapM (r : Replicator) {d : Dataset} (options : ReplayOptions)
    {start stop : Nat} (hBounds : d.timeBounds? = some (start, stop)) :
    r.replayAll d options = (r.origins d options).mapM fun o =>
      replay (Clock.of start stop options.speed) o.loop o.flow o.shift o.copies := by
  simp only [replayAll, hBounds, origins]
  rw [← flatten_mapM_mapM]
  refine congrArg (· >>= _) (mapM_congr fun loop _ => ?_)
  rw [← flatten_mapM_mapM, replayLoop]
  refine congrArg (· >>= _) (mapM_congr fun f _ => ?_)
  rw [List.mapM_map]
  rfl

/-- A tally that passes is the flow itself. -/
theorem check_eq_ok_iff {t : Tally} {g : Flow} (hStart : t.startTime ≤ Word.largest)
    (hEnd : t.endTime ≤ Word.largest) :
    check t = .ok g ↔ g.key = t.key ∧ g.startTime.toNat = t.startTime ∧
      g.endTime.toNat = t.endTime ∧ g.packets.toNat = t.packets ∧ g.bytes.toNat = t.bytes ∧
      g.flowCount = none := by
  constructor
  · intro h
    rw [check] at h
    split at h
    · next hFits =>
        cases h
        obtain ⟨hPackets, hBytes⟩ : t.packets ≤ Word.largest ∧ t.bytes ≤ Word.largest := by
          simpa [Tally.fits] using hFits
        exact ⟨rfl, Word.toNat_ofNat_of_le hStart, Word.toNat_ofNat_of_le hEnd,
          Word.toNat_ofNat_of_le hPackets, Word.toNat_ofNat_of_le hBytes, rfl⟩
    · cases h
  · rintro ⟨hKey, hs, he, hp, hb, hCount⟩
    have hFits : t.fits := by
      simp [Tally.fits, ← hp, ← hb, Word.toNat_le_largest]
    rw [check, if_pos hFits, Tally.toFlow, ← hKey, ← hs, ← he, ← hp, ← hb, ← hCount]
    simp only [UInt64.ofNat_toNat]

section NormalSpeed

variable {start stop : Nat} {speed : Float} (hNormal : 1.0 / speed == 1.0)

include hNormal

theorem span_eq {ms : Nat} (hms : ms ≤ Word.largest) :
    (Timing.mk start stop speed).span ms = ms := by
  rw [Timing.span, scale, if_pos hNormal, Word.toNat_ofNat_of_le hms]

variable {o : Origin} (hStart : start ≤ o.flow.startTime.toNat)
  (hOrdered : o.flow.startTime ≤ o.flow.endTime) (hStop : o.flow.endTime.toNat ≤ stop)
  (hWord : stop ≤ Word.largest)
  (hFits : o.flow.endTime.toNat + o.loop.toNat * (stop - start) ≤ Word.largest)

include hStart hOrdered hStop hWord hFits

/-- The loops before a flow, its offset in the recording and its length add up without loss. -/
theorem times_eq :
    (Timing.mk start stop speed).startOf o.loop o.flow =
        o.flow.startTime.toNat + o.loop.toNat * (stop - start) ∧
      (Timing.mk start stop speed).endOf o.loop o.flow =
        o.flow.endTime.toNat + o.loop.toNat * (stop - start) := by
  have hBefore := UInt64.le_iff_toNat_le.mp hOrdered
  have hSpan : ∀ ms ≤ stop, (Timing.mk start stop speed).span ms = ms :=
    fun _ hms => span_eq hNormal (hms.trans hWord)
  have hLength := hSpan (stop - start) (by omega)
  have hOffset := hSpan (o.flow.startTime.toNat - start) (by omega)
  have hDuration := hSpan (o.flow.endTime.toNat - o.flow.startTime.toNat) (by omega)
  simp only [Timing.endOf, Timing.startOf, hLength, hOffset, hDuration]
  generalize o.loop.toNat * (stop - start) = passed at hFits ⊢
  omega

/-- At normal speed, a replay is a shift by whole recordings. It succeeds iff such a flow exists,
that is, if its times and counters fit. -/
theorem replay_eq_ok_iff {g : Flow} :
    replay (Clock.of start stop speed) o.loop o.flow o.shift o.copies = .ok g ↔
      o.Replays (stop - start) g := by
  have hBefore := UInt64.le_iff_toNat_le.mp hOrdered
  obtain ⟨hFirst, hLast⟩ := times_eq hNormal hStart hOrdered hStop hWord hFits
  rw [replay_eq_check (by omega) hWord speed o.loop hStart]
  refine (check_eq_ok_iff ?_ ?_).trans ?_
  · exact Nat.min_le_right _ _
  · exact Nat.min_le_right _ _
  · simp only [Tally.times, shifted, hFirst, hLast]
    constructor
    · rintro ⟨hKey, hs, he, hp, hb, hCount⟩
      exact ⟨hKey, hs, he, hp, hb, hCount⟩
    · intro h
      exact ⟨h.key, h.startTime, h.endTime, h.packets, h.bytes, h.flowCount⟩

end NormalSpeed

/-- A loop whose only unit leaves addresses alone replays each flow once. -/
theorem origins_single {r : Replicator} {d : Dataset} {options : ReplayOptions} {u : ReplayUnit}
    (hLoops : options.loops = 1) (hActive : 0 ∉ r.ignored) (hUnit : r.plan.activeIn 0 = [u])
    (hSource : Modifier.offsetOf u.source = 0) (hDestination : Modifier.offsetOf u.destination = 0) :
    r.origins d options = d.map fun f => ⟨0, f, ⟨0, 0⟩, 1⟩ := by
  have hLoop : r.activeLoops options = [0] := by
    rw [activeLoops, loopsOf, hLoops]
    simpa using hActive
  have hShifts : shiftsIn r.plan 0 = [(⟨0, 0⟩, 1)] := by
    simp [shiftsIn, hUnit, shiftOf, hSource, hDestination, countShift]
  rw [origins, hLoop, List.flatMap_singleton, hShifts]
  exact List.flatMap_pure_eq_map _ _

theorem shiftKey_zero (k : FlowKey) : shiftKey k ⟨0, 0⟩ = k := by
  have hAddress : ∀ a : Address, a.shift 0 = a := by
    intro a
    simp [Address.shift, Address.ofNat, Nat.mod_eq_of_lt a.number_lt]
  simp [shiftKey, hAddress]

/-- In loop zero a flow without offsets is replayed as it was recorded. -/
theorem replays_zero_iff {length : Nat} {f g : Flow} :
    (Origin.mk 0 f ⟨0, 0⟩ 1).Replays length g ↔ f.uncounted = g := by
  constructor
  · intro h
    have hKey := h.key.trans (shiftKey_zero f.key)
    have hStart := h.startTime
    have hEnd := h.endTime
    have hPackets := h.packets
    have hBytes := h.bytes
    have hCount := h.flowCount
    simp only [UInt32.toNat_zero, Nat.zero_mul, Nat.add_zero, Nat.mul_one, UInt64.toNat_inj] at *
    cases g
    simp_all [Flow.uncounted]
  · rintro rfl
    refine ⟨(shiftKey_zero f.key).symm, ?_, ?_, ?_, ?_, rfl⟩ <;> simp [Flow.uncounted]

/-- A replay at normal speed succeeds iff each origin does. -/
theorem outcome_replicate_eq_ok_iff {r : Replicator} {d : Dataset} {options : ReplayOptions}
    {start stop : Nat} (hBounds : d.timeBounds? = some (start, stop))
    (hOrdered : ∀ f ∈ d, f.startTime ≤ f.endTime)
    (hFinite : options.speed.isFinite) (hPositive : 0.0 < options.speed)
    (hNormal : 1.0 / options.speed == 1.0) (hSeparate : options.mergeAcrossLoops = false)
    (hFits : start + options.loops.toNat * (stop - start) ≤ Word.largest) (out : Dataset) :
    (r.replicate d options).outcome = .ok out ↔
      List.Forall₂ (fun o g => o.Replays (stop - start) g) (r.origins d options) out := by
  obtain ⟨hLe, hWord⟩ := timeBounds?_ordered hBounds hOrdered
  obtain ⟨⟨_, hFirst⟩, _, hLast⟩ := Dataset.timeBounds?_eq_some_iff.mp hBounds
  have hOutcome : (r.replicate d options).outcome =
      (r.replayAll d options).mapError ReplicationError.counterOverflow := by
    rw [outcome_replicate r d options hFinite hPositive, hSeparate]
    exact bind_ok _
  rw [hOutcome, mapError_eq_ok_iff, replayAll_eq_mapM r options hBounds, mapM_eq_ok_iff]
  refine forall₂_congr_left fun o ho g => ?_
  obtain ⟨hLoop, hFlow, _⟩ := mem_origins ho
  refine replay_eq_ok_iff hNormal (hFirst _ hFlow) (hOrdered _ hFlow) (hLast _ hFlow) hWord ?_
  have hPassed := Nat.mul_le_mul_right (stop - start) (Nat.succ_le_of_lt (toNat_lt_loops hLoop))
  have hStop := hLast _ hFlow
  rw [Nat.succ_eq_add_one, Nat.add_one_mul] at hPassed
  omega

/-- At normal speed and without merging, a replay whose times fit succeeds with one flow for each
origin, shifted by the length of the recording for each loop before it, and fails iff some counters
do not fit. All flows of a loop lie in its window, windows meet in one instant at most, and the
replays of one flow are whole windows apart. One loop without offsets is the recording. -/
theorem replicate_shifts_loops (r : Replicator) {d : Dataset} (options : ReplayOptions)
    {start stop : Nat} (hBounds : d.timeBounds? = some (start, stop))
    (hOrdered : ∀ f ∈ d, f.startTime ≤ f.endTime)
    (hFinite : options.speed.isFinite) (hPositive : 0.0 < options.speed)
    (hNormal : 1.0 / options.speed == 1.0) (hSeparate : options.mergeAcrossLoops = false)
    (hFits : start + options.loops.toNat * (stop - start) ≤ Word.largest) :
    let length := stop - start
    (∀ out, (r.replicate d options).outcome = .ok out ↔
      List.Forall₂ (fun o g => o.Replays length g) (r.origins d options) out) ∧
    (∀ out, (r.replicate d options).outcome = .ok out →
      ∀ o g, (o, g) ∈ (r.origins d options).zip out →
        o.Within start length g ∧
        ∀ p h, (p, h) ∈ (r.origins d options).zip out → o.loop < p.loop →
          (∀ t, t ≤ g.endTime.toNat → h.startTime.toNat ≤ t →
            t = start + p.loop.toNat * length) ∧
          (o.flow = p.flow →
            h.startTime.toNat = g.startTime.toNat + (p.loop.toNat - o.loop.toNat) * length ∧
              h.endTime.toNat = g.endTime.toNat + (p.loop.toNat - o.loop.toNat) * length)) ∧
    (options.loops = 1 → 0 ∉ r.ignored → ∀ u, r.plan.activeIn 0 = [u] →
      Modifier.offsetOf u.source = 0 → Modifier.offsetOf u.destination = 0 →
      (r.replicate d options).outcome = .ok (d.map Flow.uncounted)) := by
  intro length
  obtain ⟨⟨_, hFirst⟩, _, hLast⟩ := Dataset.timeBounds?_eq_some_iff.mp hBounds
  have hOutcome := outcome_replicate_eq_ok_iff (r := r) hBounds hOrdered hFinite hPositive hNormal
    hSeparate hFits
  refine ⟨hOutcome, fun out hOut => ?_, ?_⟩
  · obtain ⟨_, hReplays⟩ := List.forall₂_iff_zip.mp ((hOutcome out).mp hOut)
    have hWithin : ∀ o g, (o, g) ∈ (r.origins d options).zip out →
        o.Within start length g := by
      intro o g h
      obtain ⟨_, hFlow, _⟩ := mem_origins (List.of_mem_zip h).1
      exact (hReplays h).within (hFirst _ hFlow) (hOrdered _ hFlow) (hLast _ hFlow)
    intro o g hg
    refine ⟨hWithin o g hg, fun p h hh hLoops => ⟨fun t => ?_, fun hFlow => ?_⟩⟩
    · exact (hWithin o g hg).boundary (hWithin p h hh) hLoops
    · exact (hReplays hg).distance (hReplays hh) hLoops hFlow
  · intro hLoops hActive u hUnit hSource hDestination
    rw [hOutcome, origins_single hLoops hActive hUnit hSource hDestination,
      List.forall₂_map_left_iff, List.forall₂_map_right_iff, List.forall₂_same]
    exact fun f _ => replays_zero_iff.mpr rfl

/-- Three loops of one second, the middle one ignored. The last flow of loop zero fills its window
to the end. A single loop of the same plan is the recording. -/
theorem replicate_three_loops :
    let key (source : Nat) : FlowKey := ⟨6, .ofNat .v4 source, .ofNat .v4 0x0a000002, 1, 80⟩
    let r : Replicator := ⟨⟨[.unchanged], ⟨some ⟨1⟩, none, .all⟩⟩, [1]⟩
    let d : Dataset :=
      [⟨key 0x0a000001, 5000, 5200, 5, 500, some 2⟩, ⟨key 0x0a000003, 5100, 6000, 1, 50, none⟩]
    let out : Dataset :=
      [⟨key 0x0a000001, 5000, 5200, 5, 500, none⟩, ⟨key 0x0a000003, 5100, 6000, 1, 50, none⟩,
        ⟨key 0x0a000003, 7000, 7200, 5, 500, none⟩, ⟨key 0x0a000005, 7100, 8000, 1, 50, none⟩]
    d.timeBounds? = some (5000, 6000) ∧ (r.replicate d (.plain 3)).outcome = .ok out ∧
      (r.origins d (.plain 3)).map Origin.loop = [0, 0, 2, 2] ∧
      (∀ o g, (o, g) ∈ (r.origins d (.plain 3)).zip out → o.Within 5000 1000 g) ∧
      (r.replicate d (.plain 1)).outcome = .ok (d.map Flow.uncounted) := by
  intro key r d out
  have hBounds : d.timeBounds? = some (5000, 6000) := by decide
  have hOrdered : ∀ f ∈ d, f.startTime ≤ f.endTime := by decide
  have hThree := replicate_shifts_loops r (.plain 3) hBounds hOrdered (by decide)
    (by decide) (by decide) rfl (by decide)
  have hOne := replicate_shifts_loops r (.plain 1) hBounds hOrdered (by decide)
    (by decide) (by decide) rfl (by decide)
  have hOut : (r.replicate d (.plain 3)).outcome = .ok out := by
    refine (hThree.1 out).mpr ?_
    have hOrigins : r.origins d (.plain 3) =
        [⟨0, d[0], ⟨0, 0⟩, 1⟩, ⟨0, d[1], ⟨0, 0⟩, 1⟩, ⟨2, d[0], ⟨2, 0⟩, 1⟩,
          ⟨2, d[1], ⟨2, 0⟩, 1⟩] := by rfl
    rw [hOrigins]
    refine .cons ?_ (.cons ?_ (.cons ?_ (.cons ?_ .nil))) <;> constructor <;> decide
  exact ⟨hBounds, hOut, by decide, fun o g h => (hThree.2.1 out hOut o g h).1,
    hOne.2.2 rfl (by decide) _ rfl rfl rfl⟩

end FlowAudit.Replicator
