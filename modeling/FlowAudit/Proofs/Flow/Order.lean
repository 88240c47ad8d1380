import FlowAudit.Flow
/-!
The orders of addresses and flow keys are linear, and what compares equal is equal. Groupings
by key rely on both facts.
-/
namespace FlowAudit

theorem Family.eq_of_bits {f g : Family} (h : f.bits = g.bits) : f = g := by
  cases f <;> cases g <;> simp_all [bits]

namespace Address

instance : Std.TransOrd Address :=
  inferInstanceAs (Std.TransCmp (compareLex _ _))

instance : Std.LawfulEqOrd Address where
  eq_of_compare {a b} h := by
    change compareLex _ _ a b = .eq at h
    simp only [compareLex_eq_eq, compareOn, Std.LawfulEqOrd.compare_eq_iff_eq] at h
    obtain ⟨hFamily, hNumber⟩ := h
    cases a
    cases b
    exact (mk.injEq ..).mpr ⟨Family.eq_of_bits hFamily, hNumber⟩

end Address

namespace FlowKey

instance : Std.TransOrd FlowKey :=
  inferInstanceAs (Std.TransCmp (compareLex _ _))

instance : Std.LawfulEqOrd FlowKey where
  eq_of_compare {a b} h := by
    change compareLex _ _ a b = .eq at h
    simp only [compareLex_eq_eq, compareOn, Std.LawfulEqOrd.compare_eq_iff_eq, UInt8.toNat_inj,
      UInt16.toNat_inj] at h
    cases a
    cases b
    exact (mk.injEq ..).mpr h

end FlowKey

end FlowAudit
