/-!
Arithmetic on 64-bit words that does not wrap silently: sums and products that are refused when
they do not fit, and sums that stop at the largest word.
-/
namespace FlowAudit.Word

/-- The largest word. -/
def largest : Nat :=
  UInt64.size - 1

/-- The word for a number that fits. -/
def ofNat? (n : Nat) : Option UInt64 :=
  if n ≤ largest then some (UInt64.ofNat n) else none

/-- The word for a number, or the largest word for a number that does not fit. -/
def clamp (n : Nat) : UInt64 :=
  UInt64.ofNat (min n largest)

/-- The sum, if it fits. -/
def add? (a b : UInt64) : Option UInt64 :=
  ofNat? (a.toNat + b.toNat)

/-- The product, if it fits. -/
def mul? (a : UInt64) (times : Nat) : Option UInt64 :=
  ofNat? (a.toNat * times)

theorem lt_size_of_le_largest {n : Nat} (h : n ≤ largest) : n < UInt64.size := by
  have : largest < UInt64.size := by decide
  omega

/-- A number that fits a word is kept. -/
theorem toNat_of_ofNat? {n : Nat} {w : UInt64} (h : ofNat? n = some w) : w.toNat = n := by
  unfold ofNat? at h
  by_cases hn : n ≤ largest
  · rw [if_pos hn, Option.some.injEq] at h
    exact h ▸ UInt64.toNat_ofNat_of_lt (lt_size_of_le_largest hn)
  · simp [hn] at h

theorem ofNat?_of_le {n : Nat} (h : n ≤ largest) : ofNat? n = some (UInt64.ofNat n) :=
  if_pos h

theorem ofNat?_eq_none_iff {n : Nat} : ofNat? n = none ↔ largest < n := by
  simp [ofNat?]

theorem toNat_ofNat_of_le {n : Nat} (h : n ≤ largest) : (UInt64.ofNat n).toNat = n :=
  UInt64.toNat_ofNat_of_lt (lt_size_of_le_largest h)

theorem toNat_le_largest (w : UInt64) : w.toNat ≤ largest :=
  Nat.le_sub_one_of_lt w.toNat_lt

/-- A difference that does not fall below zero is the exact one. -/
theorem sub_ofNat {w : UInt64} {n : Nat} (h : n ≤ w.toNat) :
    w - UInt64.ofNat n = UInt64.ofNat (w.toNat - n) := by
  have hLargest := toNat_le_largest w
  rw [← UInt64.toNat_inj, UInt64.toNat_sub_of_le, toNat_ofNat_of_le (by omega),
    toNat_ofNat_of_le (by omega)]
  rwa [UInt64.le_iff_toNat_le, toNat_ofNat_of_le (by omega)]

theorem toNat_min (a b : UInt64) : (min a b).toNat = min a.toNat b.toNat := by
  change (if a ≤ b then a else b).toNat = _
  rw [Nat.min_def, apply_ite UInt64.toNat]
  rfl

theorem toNat_max (a b : UInt64) : (max a b).toNat = max a.toNat b.toNat := by
  change (if a ≤ b then b else a).toNat = _
  rw [Nat.max_def, apply_ite UInt64.toNat]
  rfl

theorem max_le_iff {a b c : UInt64} : max a b ≤ c ↔ a ≤ c ∧ b ≤ c := by
  simp only [UInt64.le_iff_toNat_le, toNat_max, Nat.max_le]

theorem le_min_iff {a b c : UInt64} : c ≤ min a b ↔ c ≤ a ∧ c ≤ b := by
  simp only [UInt64.le_iff_toNat_le, toNat_min, Nat.le_min]

instance associative_max : Std.Associative (max : UInt64 → UInt64 → UInt64) where
  assoc a b c := by
    rw [← UInt64.toNat_inj]
    simp only [toNat_max, Nat.max_assoc]

theorem toNat_clamp (n : Nat) : (clamp n).toNat = min n largest :=
  UInt64.toNat_ofNat_of_lt (lt_size_of_le_largest (Nat.min_le_right _ _))

end FlowAudit.Word
