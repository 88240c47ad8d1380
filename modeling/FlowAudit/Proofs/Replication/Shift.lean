import FlowAudit.Proofs.Distinct
import FlowAudit.Replication.Replicator
import Mathlib
/-!
Address offsets of units. Moving an address depends on the offset modulo `2 ^ 32` only, and two
offsets that differ as words never lead to the same address. The shifts of a loop are the distinct
offsets of its units in the order of their first unit, each with the count of its units.
-/
namespace FlowAudit

theorem Family.size_eq_mul_unit (f : Family) : f.size = 2 ^ 32 * f.unit := by
  cases f <;> rfl

theorem Family.unit_pos (f : Family) : 0 < f.unit := by
  cases f <;> decide

namespace Address

/-- Moves an address by an exact number of units, which need not fit a word. -/
def move (a : Address) (units : Nat) : Address :=
  ofNat a.family (a.number + units * a.family.unit)

theorem shift_eq_move (a : Address) (offset : UInt32) : a.shift offset = a.move offset.toNat := rfl

/-- The size of a family is a multiple of its unit, so both families lose the same offsets. -/
theorem move_eq_move_iff {a : Address} {m n : Nat} :
    a.move m = a.move n ↔ m ≡ n [MOD 2 ^ 32] := by
  have hUnit := a.family.unit_pos
  simp only [move, ofNat, mk.injEq, true_and]
  change a.number + m * a.family.unit ≡ a.number + n * a.family.unit [MOD a.family.size] ↔ _
  rw [a.family.size_eq_mul_unit, Nat.ModEq.add_iff_left rfl]
  exact Nat.ModEq.mul_right_cancel_iff' hUnit.ne'

theorem shift_injective (a : Address) : Function.Injective a.shift := by
  intro x y h
  have hMod := move_eq_move_iff.mp h
  rw [Nat.ModEq, Nat.mod_eq_of_lt x.toNat_lt, Nat.mod_eq_of_lt y.toNat_lt] at hMod
  exact UInt32.toNat_inj.mp hMod

end Address

namespace Replicator

/-- A known shift is counted in its place. -/
theorem countShift_of_mem (count : Shift → Nat) {s : Shift} {shifts : List Shift}
    (hMem : s ∈ shifts) (hNodup : shifts.Nodup) :
    countShift s (shifts.map fun t => (t, count t)) =
      shifts.map fun t => (t, if t = s then count t + 1 else count t) := by
  induction shifts with
  | nil => simp at hMem
  | cons t rest ih =>
      obtain ⟨hFresh, hRest⟩ := List.nodup_cons.mp hNodup
      by_cases h : t = s
      · subst h
        have hSame : ∀ u ∈ rest, (u, count u) = (u, if u = t then count u + 1 else count u) := by
          intro u hu
          have hNe : u ≠ t := fun hEq => hFresh (hEq ▸ hu)
          rw [if_neg hNe]
        simp only [List.map_cons, countShift, ↓reduceIte, List.map_congr_left hSame]
      · have hTail : s ∈ rest := (List.mem_cons.mp hMem).resolve_left fun hEq => h hEq.symm
        simp only [List.map_cons, countShift, if_neg h, ih hTail hRest]

/-- A new shift is counted behind all others. -/
theorem countShift_of_notMem {s : Shift} {seen : List (Shift × Nat)}
    (h : s ∉ seen.map Prod.fst) : countShift s seen = seen ++ [(s, 1)] := by
  induction seen with
  | nil => rfl
  | cons entry rest ih =>
      rw [List.map_cons, List.mem_cons, not_or] at h
      obtain ⟨hHead, hRest⟩ := h
      rw [countShift, if_neg (Ne.symm hHead), ih hRest, List.cons_append]

/-- Counting the shifts of a list one after the other finds the distinct ones in the order of their
first occurrence, each with the number of its occurrences. -/
theorem foldl_countShift (shifts : List Shift) :
    shifts.foldl (fun seen s => countShift s seen) [] =
      shifts.eraseDups.map fun s => (s, shifts.count s) := by
  induction shifts using List.reverseRecOn with
  | nil => rfl
  | append_singleton shifts s ih =>
      rw [List.foldl_append, ih, List.foldl_cons, List.foldl_nil, eraseDups_concat]
      by_cases h : s ∈ shifts
      · rw [if_pos h, countShift_of_mem _ (List.mem_eraseDups.mpr h) (nodup_eraseDups _)]
        refine List.map_congr_left fun t _ => ?_
        by_cases hEq : t = s
        · simp [hEq]
        · simp [hEq, Ne.symm hEq]
      · have hFresh : s ∉ (shifts.eraseDups.map fun t => (t, shifts.count t)).map Prod.fst := by
          simpa using h
        rw [if_neg h, countShift_of_notMem hFresh, List.map_append]
        congr 1
        · refine List.map_congr_left fun t ht => ?_
          have hNe : s ≠ t := fun hEq => h (List.mem_eraseDups.mp (hEq ▸ ht))
          simp [hNe]
        · simp [List.count_eq_zero_of_not_mem h]

/-- The offsets of the units that replay in a loop, one for each unit. -/
def unitShifts (plan : Plan) (loop : UInt32) : List Shift :=
  (plan.activeIn loop).map (shiftOf plan loop)

/-- The shifts of a loop in the order of their first units, each with the number of its units. -/
theorem shiftsIn_eq (plan : Plan) (loop : UInt32) :
    shiftsIn plan loop =
      (unitShifts plan loop).eraseDups.map fun s => (s, (unitShifts plan loop).count s) :=
  foldl_countShift _

/-- The offset of a unit in a loop, taken exactly. -/
def exactOffset (unit perLoop : Option Modifier) (loop : UInt32) : Nat :=
  (Modifier.offsetOf unit).toNat + loop.toNat * (Modifier.offsetOf perLoop).toNat

/-- Offsets of loops and units are added as words, with the same result. -/
theorem shift_word_offset (a : Address) (unit perLoop : Option Modifier) (loop : UInt32) :
    a.shift (Modifier.offsetOf perLoop * loop + Modifier.offsetOf unit) =
      a.move (exactOffset unit perLoop loop) := by
  rw [Address.shift_eq_move, Address.move_eq_move_iff, exactOffset, UInt32.toNat_add,
    UInt32.toNat_mul]
  simp [Nat.ModEq, Nat.add_comm, Nat.mul_comm]

end Replicator

end FlowAudit
