import FlowAudit.Proofs.Replication.WrittenPlan
import FlowAudit.Replication.Replicator
/-!
Plans under more and fewer ignored loops. A unit that is left out is active in ignored loops only,
so leaving it out before its modifiers are read never changes a replay. The unit that stands for an
empty list of units is not brought back by ignoring all units of a list.
-/
namespace FlowAudit

namespace LoopSelection

/-- A selection within some ignored loops is within more of them. -/
theorem isWithin_mono {loops : LoopSelection} {ignored more : List UInt32} (hMore : ignored ⊆ more)
    (h : loops.isWithin ignored) : loops.isWithin more := by
  cases loops with
  | all => cases h
  | only loops =>
      refine List.all_eq_true.mpr fun n hn => List.contains_iff_mem.mpr (hMore ?_)
      exact List.contains_iff_mem.mp (List.all_eq_true.mp h n hn)

end LoopSelection

/-- Whether a unit is active in some loop that is not ignored. -/
def ReplayUnit.isKept (ignored : List UInt32) (u : ReplayUnit) : Bool :=
  !u.loops.isWithin ignored

namespace Plan

variable {ignored more : List UInt32}

/-- With more ignored loops, a section that was accepted is still accepted. -/
theorem readUnit_of_subset (hMore : ignored ⊆ more) {item : Json} {unit? : Option ReplayUnit}
    (h : readUnit ignored item = .ok unit?) :
    readUnit more item = .ok (unit?.filter (ReplayUnit.isKept more)) := by
  cases item with
  | object members =>
      rw [readUnit_object] at h ⊢
      obtain ⟨loops, hLoops, h⟩ := bind_eq_ok_iff.mp h
      rw [hLoops, ok_bind]
      split at h
      · next hWithin =>
          cases h
          rw [if_pos (LoopSelection.isWithin_mono hMore hWithin)]
          rfl
      · obtain ⟨u, hUnit, h⟩ := bind_eq_ok_iff.mp h
        cases h
        obtain ⟨rfl, _⟩ := reduces_of_readModifiers hUnit
        rw [hUnit, ok_bind, Option.filter_some, ReplayUnit.isKept]
        cases u.loops.isWithin more <;> rfl
  | null => cases h
  | bool _ => cases h
  | number _ => cases h
  | string _ => cases h
  | array _ => cases h

/-- With more ignored loops, the units are those of before that are active in some loop that is
left. -/
theorem readUnits_of_subset (hMore : ignored ⊆ more) {json? : Option Json}
    {units : List ReplayUnit} (h : readUnits ignored json? = .ok units) :
    readUnits more json? = .ok (units.filter (ReplayUnit.isKept more)) := by
  rcases readUnits_eq_ok h with ⟨rfl, _, hSame⟩ | ⟨item, items, units?, rfl, hRead, rfl⟩
  · exact hSame more
  · have hMapped : (item :: items).mapM (readUnit more) =
        .ok (units?.map (Option.filter (ReplayUnit.isKept more))) := by
      rw [mapM_eq_ok_iff] at hRead ⊢
      rw [List.forall₂_map_right_iff]
      exact hRead.imp fun _ _ => readUnit_of_subset hMore
    change ((item :: items).mapM (readUnit more) >>= fun units? => .ok (units?.filterMap id)) = _
    rw [hMapped, ok_bind, List.filterMap_map, List.filter_filterMap]
    rfl

/-- Ignoring more loops leaves out the units that are active in no other loop. -/
theorem parse_of_subset (hMore : ignored ⊆ more) {json : Json} {p : Plan}
    (h : parse json ignored = .ok p) :
    parse json more = .ok ⟨p.units.filter (ReplayUnit.isKept more), p.perLoop⟩ := by
  obtain ⟨members, hRoot, hKeys, hUnits, hPerLoop⟩ := parse_eq_ok_iff.mp h
  exact parse_eq_ok_iff.mpr ⟨members, hRoot, hKeys, readUnits_of_subset hMore hUnits, hPerLoop⟩

/-- A section is read as a unit unless all of its loops are ignored. -/
theorem loops_of_readUnit {item : Json} {unit? : Option ReplayUnit}
    (h : readUnit ignored item = .ok unit?) :
    unit?.map ReplayUnit.loops = Option.guard (fun loops => !loops.isWithin ignored)
      (WrittenUnit.ofMembers (writtenMembers item)).loops := by
  -- reading a section again under the same ignored loops shows that its unit is kept
  have hKept : unit?.filter (ReplayUnit.isKept ignored) = unit? :=
    Except.ok.inj ((readUnit_of_subset (List.Subset.refl _) h).symm.trans h)
  rcases readUnit_eq_ok h with ⟨rfl, hWithin⟩ | ⟨u, rfl, hLoops, _⟩
  · rw [Option.guard, hWithin]
    rfl
  · have hOutside : !u.loops.isWithin ignored := (Option.filter_eq_some_iff.mp hKept).2
    rw [← hLoops, Option.guard, if_pos hOutside]
    rfl

/-- The units that are read are the written ones that are not ignored as a whole. -/
theorem loops_of_readUnits {json? : Option Json} {units : List ReplayUnit}
    (h : readUnits ignored json? = .ok units) :
    units.map ReplayUnit.loops =
      ((writtenSections json?).map WrittenUnit.loops).filter fun loops =>
        !loops.isWithin ignored := by
  rcases readUnits_eq_ok h with ⟨rfl, hWritten, _⟩ | ⟨item, items, units?, rfl, hRead, rfl⟩
  · rw [hWritten]
    rfl
  · have hLoops := map_eq_map_of_mapM hRead fun _ _ => loops_of_readUnit
    have hJoined : (units?.filterMap id).map ReplayUnit.loops =
        (units?.map (Option.map ReplayUnit.loops)).filterMap id := by
      rw [List.map_filterMap, List.filterMap_map]
      rfl
    rw [hJoined, hLoops, writtenSections, ← List.filterMap_eq_filter, List.filterMap_map,
      List.map_map, List.filterMap_map]
    rfl

/-- The units of a plan are the written ones that are active in some loop that is not ignored. -/
theorem loops_of_parse {json : Json} {p : Plan} (h : parse json ignored = .ok p) :
    p.units.map ReplayUnit.loops =
      ((writtenUnits json).map WrittenUnit.loops).filter fun loops =>
        !loops.isWithin ignored := by
  obtain ⟨members, hRoot, _, hUnits, _⟩ := parse_eq_ok_iff.mp h
  rw [readRoot_eq_ok hRoot] at hUnits
  exact loops_of_readUnits hUnits

/-- Units that are dropped are active in ignored loops only, so no other loop misses them. -/
theorem activeIn_filter_isKept {p : Plan} {n : UInt32} (hn : n ∉ ignored) :
    (Plan.mk (p.units.filter (ReplayUnit.isKept ignored)) p.perLoop).activeIn n = p.activeIn n := by
  rw [activeIn, activeIn, List.filter_filter]
  refine List.filter_congr fun u _ => ?_
  cases hWithin : u.loops.isWithin ignored with
  | false => simp [ReplayUnit.isKept, hWithin]
  | true => simp [not_contains_of_isWithin hWithin hn]

end Plan

namespace Replicator

variable {p q : Plan} {ignored : List UInt32}

theorem reportLoops_congr (p q : Plan) (ignored loops : List UInt32) :
    reportLoops ⟨p, ignored⟩ loops = reportLoops ⟨q, ignored⟩ loops := by
  induction loops with
  | nil => rfl
  | cons n rest ih => rw [reportLoops, reportLoops, ih]

/-- A loop depends on its active units and on the offsets for each loop. -/
theorem replayLoop_congr {n : UInt32} (hPerLoop : p.perLoop = q.perLoop)
    (hActive : p.activeIn n = q.activeIn n) (clock : Clock) (d : Dataset) :
    replayLoop p clock d n = replayLoop q clock d n := by
  have hShift : shiftOf p n = shiftOf q n := by
    funext u
    rw [shiftOf, shiftOf, hPerLoop]
  have hShifts : shiftsIn p n = shiftsIn q n := by
    rw [shiftsIn, shiftsIn, hActive, hShift]
  rw [replayLoop, replayLoop, hShifts]

/-- A replay depends on the units that are active in the loops that are replayed. -/
theorem replicate_congr (hActive : ∀ n, n ∉ ignored → p.activeIn n = q.activeIn n)
    (hPerLoop : p.perLoop = q.perLoop) (d : Dataset) (options : ReplayOptions) :
    (⟨p, ignored⟩ : Replicator).replicate d options =
      (⟨q, ignored⟩ : Replicator).replicate d options := by
  have hFlows : ∀ clock, ((loopsOf options).filter fun n => !ignored.contains n).mapM
        (replayLoop p clock d) =
      ((loopsOf options).filter fun n => !ignored.contains n).mapM (replayLoop q clock d) := by
    intro clock
    refine mapM_congr fun n hn => ?_
    have hReplayed : n ∉ ignored := by
      have hKept := (List.mem_filter.mp hn).2
      simpa using hKept
    exact replayLoop_congr hPerLoop (hActive n hReplayed) clock d
  simp only [replicate, reportLoops_congr p q, hFlows]

end Replicator

/-- Ignoring loops is transparent. A plan that is accepted under some ignored loops is accepted
under more of them, without the units that are active in ignored loops only. A replay cannot tell
the two plans apart, and a unit that changes nothing is not put in the place of ignored ones. -/
theorem Plan.parse_ignoring_more {json : Json} {ignored more : List UInt32} {p : Plan}
    (hMore : ignored ⊆ more) (h : Plan.parse json ignored = .ok p) :
    ∃ q, Plan.parse json more = .ok q ∧ q.perLoop = p.perLoop ∧ q.units.Sublist p.units ∧
      (∀ n, n ∉ more → q.activeIn n = p.activeIn n) ∧
      (∀ d options, (⟨q, more⟩ : Replicator).replicate d options =
        (⟨p, more⟩ : Replicator).replicate d options) ∧
      q.units.map ReplayUnit.loops =
        ((Plan.writtenUnits json).map WrittenUnit.loops).filter fun loops =>
          !loops.isWithin more := by
  have hParse := Plan.parse_of_subset hMore h
  have hActive : ∀ n, n ∉ more →
      (Plan.mk (p.units.filter (ReplayUnit.isKept more)) p.perLoop).activeIn n = p.activeIn n :=
    fun n hn => Plan.activeIn_filter_isKept hn
  exact ⟨_, hParse, rfl, List.filter_sublist, hActive,
    fun d options => Replicator.replicate_congr hActive rfl d options, Plan.loops_of_parse hParse⟩

/-- The first unit has a modifier that is refused, but it is never read. If the other unit with
selected loops is ignored as well, no unit is left in its place. -/
theorem Plan.parse_ignoring_more_refused_modifier :
    let loop (n : UInt64) : Json := .number (.natural n)
    let unit (loops : Json) (source : String) : Json :=
      .object [("loopOnly", loops), ("srcip", .string source)]
    let refused := unit (loop 1) "addCounter(1,2)"
    let selected := unit (.array [loop 3, loop 1]) "addConstant(7)"
    let always := unit (.string "All") "addConstant(9)"
    let plan (units : List Json) : Json := .object [("units", .array units)]
    let p : Plan := ⟨[⟨some ⟨7⟩, none, .only [1, 3]⟩, ⟨some ⟨9⟩, none, .all⟩], .unchanged⟩
    Plan.parse (plan [refused, selected, always]) [1] = .ok p ∧
      (∃ q, Plan.parse (plan [refused, selected, always]) [1, 3] = .ok q ∧
        q.units.map ReplayUnit.loops = [.all] ∧
        ∀ d options, (⟨q, [1, 3]⟩ : Replicator).replicate d options =
          (⟨p, [1, 3]⟩ : Replicator).replicate d options) ∧
      ∃ q, Plan.parse (plan [refused, selected]) [1, 3] = .ok q ∧ q.units = [] := by
  intro loop unit refused selected always plan p
  have hMore : [(1 : UInt32)] ⊆ [1, 3] := by decide
  have hParse : Plan.parse (plan [refused, selected, always]) [1] = .ok p := by rfl
  have hSelected : Plan.parse (plan [refused, selected]) [1] =
      .ok ⟨[⟨some ⟨7⟩, none, .only [1, 3]⟩], .unchanged⟩ := by rfl
  refine ⟨hParse, ?_, ?_⟩
  · obtain ⟨q, hq, _, _, _, hReplicate, hLoops⟩ := Plan.parse_ignoring_more hMore hParse
    exact ⟨q, hq, hLoops, hReplicate⟩
  · obtain ⟨q, hq, _, _, _, _, hLoops⟩ := Plan.parse_ignoring_more hMore hSelected
    exact ⟨q, hq, List.map_eq_nil_iff.mp hLoops⟩

end FlowAudit
