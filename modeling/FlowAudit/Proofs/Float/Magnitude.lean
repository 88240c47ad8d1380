import FlowAudit.Proofs.Float.Rounding
/-!
Magnitudes of floating-point numbers. Whole numbers, products and quotients of positive numbers are
positive as long as they stay within the range, so a counter, a rate or a relative difference is
zero as a floating-point number only if it is zero as an exact one.
-/
namespace FlowAudit

open Float.Model

/-- A positive number that is at least `2 ^ (lo - 1)` and below `2 ^ hi`. -/
def HasMagnitude (lo hi : Int) (x : Float) : Prop :=
  ∃ k, lo ≤ k ∧ k ≤ hi ∧ IsNormal k x.toModel.unpack

namespace HasMagnitude

variable {a b c d : Int} {x y : Float}

theorem widen (h : HasMagnitude a b x) (hLow : c ≤ a) (hHigh : b ≤ d) : HasMagnitude c d x := by
  obtain ⟨k, hLower, hUpper, hk⟩ := h
  exact ⟨k, hLow.trans hLower, hUpper.trans hHigh, hk⟩

/-- Within the range of exponents nothing is lost when a number is stored. -/
theorem of_pack {u : UnpackedFloat} {k : Int} (h : IsNormal k u) (hLower : a ≤ k) (hUpper : k ≤ b)
    (hLow : -1021 ≤ a) (hHigh : b ≤ 1024) : HasMagnitude a b ⟨Float.Model.pack u⟩ := by
  refine ⟨k, hLower, hUpper, ?_⟩
  rw [Rounding.unpack_pack h (by omega) (by omega)]
  exact h

/-- A product has the binades of both factors, and rounding moves it by one at most. -/
theorem mul (hx : HasMagnitude a b x) (hy : HasMagnitude c d y) (hLow : -1020 ≤ a + c)
    (hHigh : b + d ≤ 1023) : HasMagnitude (a + c - 1) (b + d + 1) (x * y) := by
  obtain ⟨j, _, _, hj⟩ := hx
  obtain ⟨k, _, _, hk⟩ := hy
  obtain ⟨i, _, _, hi⟩ := Rounding.isNormal_mul hj hk (by omega)
  exact of_pack hi (by omega) (by omega) (by omega) (by omega)

/-- A quotient of numbers in the range neither vanishes nor overflows. -/
theorem div (hx : HasMagnitude a b x) (hy : HasMagnitude c d y) (hLow : -1021 ≤ a - d)
    (hHigh : b - c ≤ 1022) : HasMagnitude (a - d) (b - c + 2) (x / y) := by
  obtain ⟨j, _, _, hj⟩ := hx
  obtain ⟨k, _, _, hk⟩ := hy
  obtain ⟨i, _, _, hi⟩ := Rounding.isNormal_div hj hk (by omega)
  exact of_pack hi (by omega) (by omega) (by omega) (by omega)

theorem one : HasMagnitude 1 1 1.0 :=
  ⟨1, le_rfl, le_rfl, 1 <<< 52, by decide, rfl, by decide⟩

theorem thousand : HasMagnitude 10 10 1000.0 :=
  ⟨10, le_rfl, le_rfl, 1000 <<< 43, by decide, rfl, by decide⟩

theorem million : HasMagnitude 20 20 1000000.0 :=
  ⟨20, le_rfl, le_rfl, 1000000 <<< 33, by decide, rfl, by decide⟩

/-- Whole numbers take one of two ways into a word, depending on whether they fit 53 bits. -/
theorem ofNat {n : Nat} (bits : Nat) (hPos : 0 < n) (hBits : n < 2 ^ bits) (hRange : bits ≤ 1000) :
    HasMagnitude 1 (bits + 3) (Float.ofNat n) := by
  have hLog : n.log2 < bits := (Nat.log2_lt hPos.ne').mpr hBits
  change HasMagnitude 1 (bits + 3) (Float.ofScientific n false 0)
  rw [Float.ofScientific]
  rcases Nat.lt_or_ge n (2 ^ 53) with hSmall | hLarge
  · have hWord : n.toUInt64.toNat = n := UInt64.toNat_ofNat_of_lt (hSmall.trans (by decide))
    have hSmallLog : n.log2 < 53 := (Nat.log2_lt hPos.ne').mpr hSmall
    obtain ⟨k, hLower, hUpper, hRounded⟩ := Rounding.isNormal_round hPos (by omega)
    rw [← hWord, ← Rounding.ofUInt64_eq_round (hWord.symm ▸ hPos)] at hRounded
    have hWhole : HasMagnitude 1 (bits + 1) n.toUInt64.toFloat :=
      of_pack hRounded (by omega) (by omega) (by omega) (by omega)
    rw [dif_pos ⟨hSmall, by decide⟩, if_neg Bool.false_ne_true]
    exact (hWhole.mul one (by omega) (by omega)).widen (by omega) (by omega)
  · have hWide : (n <<< 53).log2 = n.log2 + 53 := Rounding.log2_shiftLeft hPos.ne' 53
    have hTotal : totalExponent (n <<< 53) (-53) = n.log2 + 1 := by
      rw [totalExponent, hWide]
      omega
    obtain ⟨k, hLower, hUpper, hRounded⟩ := Rounding.isNormal_roundWithAccuracy (m := n <<< 53)
      (e := -53) .exact (by omega) (by omega)
    rw [← Rounding.ofScientific_eq_round hPos] at hRounded
    rw [dif_neg (by omega), if_neg Bool.false_ne_true]
    exact of_pack hRounded (by omega) (by omega) (by omega) (by omega)

theorem ne_zero (h : HasMagnitude a b x) : (x == 0.0) = false := by
  obtain ⟨k, _, _, m, _, hUnpack, _⟩ := h
  change UnpackedFloat.beq x.toModel.unpack (.zero .positive) = false
  rw [hUnpack]
  rfl

/-- A number with a magnitude is positive. -/
theorem pos (h : HasMagnitude a b x) : 0.0 < x := by
  obtain ⟨k, _, _, m, _, hUnpack, _⟩ := h
  refine decide_eq_true (p := (0.0 : Float).toModel < x.toModel) ?_
  change UnpackedFloat.lt (.zero .positive) x.toModel.unpack = true
  rw [hUnpack]
  rfl

theorem not_le_zero (h : HasMagnitude a b x) : ¬x ≤ 0.0 := by
  obtain ⟨k, _, _, m, _, hUnpack, _⟩ := h
  intro hLe
  have hModel : UnpackedFloat.le x.toModel.unpack (.zero .positive) = true :=
    of_decide_eq_true (p := x.toModel ≤ (0.0 : Float).toModel) hLe
  rw [hUnpack] at hModel
  cases hModel

/-- Zero stays zero under division by a number with a magnitude. -/
theorem zero_div (h : HasMagnitude a b x) : 0.0 / x = 0.0 := by
  obtain ⟨k, _, _, m, _, hUnpack, _⟩ := h
  change Float.ofModel (Float.Model.pack (UnpackedFloat.div Format.binary64 (.zero .positive)
    x.toModel.unpack)) = 0.0
  rw [hUnpack]
  rfl

end HasMagnitude

end FlowAudit
