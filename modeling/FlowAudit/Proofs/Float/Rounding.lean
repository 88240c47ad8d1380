import Mathlib
/-!
Rounding to floating-point numbers of full precision. A result whose exact value lies far from both
ends of the range keeps 53 bits, lands in the binade of the exact value or in the next one, and is
packed into a word without loss.
-/
namespace FlowAudit

open Float.Model Float.Model.UnpackedFloat

/-- A positive number with 53 bits that is at least `2 ^ (k - 1)` and below `2 ^ k`. -/
def IsNormal (k : Int) (u : UnpackedFloat) : Prop :=
  ∃ m h, u = .finite .positive m (k - 53) h ∧ m.log2 = 52

namespace Rounding

/-- A significand has 53 bits iff it lies in one binade. -/
theorem log2_eq_iff_bounds {m : Nat} : m.log2 = 52 ↔ 2 ^ 52 ≤ m ∧ m < 2 ^ 53 := by
  rcases Nat.eq_zero_or_pos m with rfl | hPos
  · decide
  · exact Nat.log2_eq_iff hPos.ne'

theorem log2_shiftLeft {n : Nat} (hPos : n ≠ 0) (k : Nat) : (n <<< k).log2 = n.log2 + k := by
  rw [Nat.shiftLeft_eq, Nat.log2_eq_iff (by positivity)]
  constructor
  · rw [Nat.pow_add]
    exact Nat.mul_le_mul_right _ (Nat.log2_self_le hPos)
  · rw [Nat.add_right_comm, Nat.pow_add]
    exact Nat.mul_lt_mul_of_pos_right Nat.lt_log2_self (Nat.two_pow_pos k)

/-- Cutting off all but the leading 53 bits. -/
theorem div_two_pow_bounds {m : Nat} (hWide : 52 ≤ m.log2) :
    2 ^ 52 ≤ m / 2 ^ (m.log2 - 52) ∧ m / 2 ^ (m.log2 - 52) < 2 ^ 53 := by
  have hPos : m ≠ 0 := by
    rintro rfl
    simp at hWide
  have hNext : 53 + (m.log2 - 52) = m.log2 + 1 := by omega
  rw [Nat.le_div_iff_mul_le (Nat.two_pow_pos _), Nat.div_lt_iff_lt_mul (Nat.two_pow_pos _),
    ← Nat.pow_add, ← Nat.pow_add, Nat.add_sub_cancel' hWide, hNext]
  exact ⟨Nat.log2_self_le hPos, Nat.lt_log2_self⟩

theorem targetExponent_eq {k : Int} (h : -1021 ≤ k) :
    Format.binary64.targetExponent k = k - 53 := by
  simp only [Format.targetExponent, Format.mantissaBits, Format.minExponent]
  norm_num
  omega

theorem mantissa_shiftRight (em : ExtendedMantissa) (k : Nat) :
    (em >>> k).mantissa = em.mantissa / 2 ^ k := by
  change (Nat.repeat ExtendedMantissa.shiftRightOne k em).mantissa = _
  induction k with
  | zero => simp [Nat.repeat]
  | succ k ih =>
      rw [Nat.repeat, Nat.pow_succ, ← Nat.div_div_eq_div_mul, ← ih]
      rfl

theorem mantissa_ofMantissaAndAccuracy (m : Nat) (a : Accuracy) :
    (ExtendedMantissa.ofMantissaAndAccuracy m a).mantissa = m := by
  rcases a with _ | (_ | _ | _) <;> rfl

/-- Rounding adds one unit of the last place or none. -/
theorem roundedMantissa_bounds (em : ExtendedMantissa) :
    em.mantissa ≤ em.roundedMantissa ∧ em.roundedMantissa ≤ em.mantissa + 1 := by
  obtain ⟨m, _ | _, _ | _⟩ := em <;>
    simp only [ExtendedMantissa.roundedMantissa, ExtendedMantissa.accuracy,
      Accuracy.roundToNearestEven] <;> omega

/-- In the normal range, exactly the leading 53 bits are kept. -/
theorem shiftToTargetExponent_eq {m : Nat} {e : Int} (a : Accuracy) (hWide : 52 ≤ m.log2)
    (hLow : -1021 ≤ totalExponent m e) :
    (shiftToTargetExponent Format.binary64 m e a).1.mantissa = m / 2 ^ (m.log2 - 52) ∧
      (shiftToTargetExponent Format.binary64 m e a).2 = totalExponent m e - 53 := by
  have hShift : (Format.binary64.targetExponent (totalExponent m e) - e).toNat = m.log2 - 52 := by
    rw [targetExponent_eq hLow, totalExponent]
    omega
  constructor
  · rw [shiftToTargetExponent, shiftToExponent, hShift, mantissa_shiftRight,
      mantissa_ofMantissaAndAccuracy]
  · rw [shiftToTargetExponent, shiftToExponent, hShift, totalExponent]
    omega

/-- Rounding moves a number into the next binade at most. -/
theorem isNormal_roundWithAccuracy {m : Nat} {e : Int} (a : Accuracy) (hWide : 52 ≤ m.log2)
    (hLow : -1021 ≤ totalExponent m e) :
    ∃ k, totalExponent m e ≤ k ∧ k ≤ totalExponent m e + 1 ∧
      IsNormal k (roundWithAccuracy Format.binary64 .positive m e a) := by
  obtain ⟨hMantissa, hExponent⟩ := shiftToTargetExponent_eq a hWide hLow
  obtain ⟨hLower, hUpper⟩ := div_two_pow_bounds hWide
  obtain ⟨hFloor, hCeiling⟩ :=
    roundedMantissa_bounds (shiftToTargetExponent Format.binary64 m e a).1
  rw [hMantissa] at hFloor hCeiling
  rw [roundWithAccuracy]
  generalize shiftToTargetExponent Format.binary64 m e a = first at *
  obtain ⟨em, exponent⟩ := first
  dsimp only at *
  generalize em.roundedMantissa = r at *
  -- the rounded significand is at most `2 ^ 53`, so the second shift is by one bit or by none
  have hPos : r ≠ 0 := by omega
  have hLogLower : 52 ≤ r.log2 := (Nat.le_log2 hPos).mpr (by omega)
  have hLogUpper : r.log2 < 54 := (Nat.log2_lt hPos).mpr (by omega)
  have hTotal : totalExponent r exponent = r.log2 - 52 + totalExponent m e := by
    rw [hExponent, totalExponent]
    omega
  obtain ⟨hFinal, hFinalExponent⟩ :=
    shiftToTargetExponent_eq (m := r) (e := exponent) .exact hLogLower (by omega)
  have hFinalBounds := div_two_pow_bounds hLogLower
  have hFinalPos : r / 2 ^ (r.log2 - 52) ≠ 0 := by omega
  refine ⟨totalExponent r exponent, by omega, by omega, _, Nat.pos_of_ne_zero hFinalPos, ?_,
    log2_eq_iff_bounds.mpr hFinalBounds⟩
  simp only [hFinal, hFinalPos, hFinalExponent, dite_false]

/-- The leading bit of a significand is not stored. -/
theorem toNat_one_append {m : Nat} (h : m.log2 = 52) :
    (1#1 ++ BitVec.ofNat 52 m).toNat = m := by
  obtain ⟨hLower, hUpper⟩ := log2_eq_iff_bounds.mp h
  rw [BitVec.toNat_append, ← Nat.shiftLeft_add_eq_or_of_lt (BitVec.isLt _), BitVec.toNat_ofNat,
    BitVec.toNat_ofNat, Nat.shiftLeft_eq]
  omega

/-- The bits of a normal number give its significand and its exponent back. -/
theorem unpack_packComponents {b m : Nat} (hLow : 0 < b) (hHigh : b < 2047) (hLog : m.log2 = 52)
    (hPos : 0 < m) :
    UnpackedFloat.unpack Format.binary64 (packComponents Format.binary64 .positive (.ofNat 11 b)
      (.ofNat 52 m)) = .finite .positive m (b - 1075) hPos := by
  have hExponent : (BitVec.ofNat 11 b).toNat = b := by
    rw [BitVec.toNat_ofNat, Nat.mod_eq_of_lt (by omega)]
  have hNotZero : BitVec.ofNat 11 b ≠ 0#11 := by
    rw [ne_eq, ← BitVec.toNat_inj, hExponent]
    exact hLow.ne'
  have hNotOnes : BitVec.ofNat 11 b ≠ -1#11 := by
    rw [ne_eq, ← BitVec.toNat_inj, hExponent]
    exact hHigh.ne
  rw [UnpackedFloat.unpack]
  simp only [unpackMantissa_packComponents, unpackExponent_packComponents,
    unpackSign_packComponents, Sign.ofBitVec_toBitVec]
  rw [if_neg hNotOnes, if_neg hNotZero]
  simp only [hExponent, toNat_one_append hLog]
  rfl

/-- Storing a normal number loses nothing. -/
theorem unpack_pack {k : Int} {u : UnpackedFloat} (h : IsNormal k u) (hLow : -1021 ≤ k)
    (hHigh : k ≤ 1024) : (Float.Model.pack u).unpack = u := by
  obtain ⟨m, hPos, rfl, hLog⟩ := h
  obtain ⟨b, hBiased⟩ : ∃ b : Nat, (b : Int) = k + 1022 := ⟨(k + 1022).toNat, by omega⟩
  have hExponent : (k - 53 + (Format.binary64.exponentBias : Int) +
      Format.binary64.mantissaBitsWithoutImplicit).toNat = b := by
    simp only [Format.exponentBias]
    omega
  have hPack : UnpackedFloat.pack Format.binary64 (.finite .positive m (k - 53) hPos) =
      packComponents Format.binary64 .positive (.ofNat 11 b) (.ofNat 52 m) := by
    simp only [UnpackedFloat.pack, hExponent, hLog]
    rw [if_neg (by omega)]
    rfl
  have hUnpack := unpack_packComponents (b := b) (by omega) (by omega) hLog hPos
  rw [← hPack] at hUnpack
  refine Eq.trans hUnpack ?_
  congr 1
  omega

/-- Two significands of 53 bits have a product of 105 or 106 bits, and rounding may carry into the
next binade. -/
theorem isNormal_mul {j k : Int} {u v : UnpackedFloat} (hu : IsNormal j u) (hv : IsNormal k v)
    (hLow : -1020 ≤ j + k) :
    ∃ i, j + k - 1 ≤ i ∧ i ≤ j + k + 1 ∧ IsNormal i (UnpackedFloat.mul Format.binary64 u v) := by
  obtain ⟨m, _, rfl, hm⟩ := hu
  obtain ⟨n, _, rfl, hn⟩ := hv
  have hProduct : m * n ≠ 0 := by positivity
  rw [log2_eq_iff_bounds] at hm hn
  have hLogLower : 52 + 52 ≤ (m * n).log2 := by
    rw [Nat.le_log2 hProduct, Nat.pow_add]
    exact Nat.mul_le_mul hm.1 hn.1
  have hLogUpper : (m * n).log2 < 53 + 53 := by
    rw [Nat.log2_lt hProduct, Nat.pow_add]
    exact Nat.mul_lt_mul'' hm.2 hn.2
  have hTotal : totalExponent (m * n) (j - 53 + (k - 53)) = (m * n).log2 - 105 + (j + k) := by
    rw [totalExponent]
    omega
  obtain ⟨i, hLower, hUpper, hRounded⟩ := isNormal_roundWithAccuracy (m := m * n)
    (e := j - 53 + (k - 53)) .exact (by omega) (by omega)
  exact ⟨i, by omega, by omega, hRounded⟩

/-- The dividend is widened before the division, so the quotient has enough bits for rounding. -/
theorem isNormal_div {j k : Int} {u v : UnpackedFloat} (hu : IsNormal j u) (hv : IsNormal k v)
    (hLow : -1021 ≤ j - k) :
    ∃ i, j - k ≤ i ∧ i ≤ j - k + 2 ∧ IsNormal i (UnpackedFloat.div Format.binary64 u v) := by
  obtain ⟨m, hmPos, rfl, hmLog⟩ := hu
  obtain ⟨n, hnPos, rfl, hnLog⟩ := hv
  have hTarget : min (j - 53 - (k - 53)) (Format.binary64.targetExponent
      (totalExponent m (j - 53) - totalExponent n (k - 53))) = j - k - 53 := by
    rw [targetExponent_eq (by simp only [totalExponent]; omega)]
    simp only [totalExponent]
    omega
  -- The dividend is shifted by 53 bits, so the quotient has 53 or 54 bits.
  have hShift : (j - 53 - (k - 53) - (j - k - 53)).toNat = 53 := by omega
  have hm := log2_eq_iff_bounds.mp hmLog
  have hn := log2_eq_iff_bounds.mp hnLog
  have hQuotientLower : 2 ^ 52 ≤ m <<< 53 / n := by
    rw [Nat.le_div_iff_mul_le hnPos, Nat.shiftLeft_eq]
    exact Nat.mul_le_mul hm.1 hn.2.le
  have hQuotientUpper : m <<< 53 / n < 2 ^ 54 := by
    rw [Nat.div_lt_iff_lt_mul hnPos, Nat.shiftLeft_eq]
    omega
  have hPos : m <<< 53 / n ≠ 0 := by omega
  have hLogLower : 52 ≤ (m <<< 53 / n).log2 := (Nat.le_log2 hPos).mpr hQuotientLower
  have hLogUpper : (m <<< 53 / n).log2 < 54 := (Nat.log2_lt hPos).mpr hQuotientUpper
  have hTotal : totalExponent (m <<< 53 / n) (j - k - 53) =
      (m <<< 53 / n).log2 - 52 + (j - k) := by
    rw [totalExponent]
    omega
  obtain ⟨i, hLower, hUpper, hRounded⟩ := isNormal_roundWithAccuracy (m := m <<< 53 / n)
    (e := j - k - 53) (accuracyOfFraction (m <<< 53 % n) n) hLogLower (by omega)
  refine ⟨i, by omega, by omega, ?_⟩
  simp only [UnpackedFloat.div, divCore, hTarget, hShift]
  exact hRounded

/-- A whole number of at most 53 bits. -/
theorem isNormal_round {n : Nat} (hPos : 0 < n) (hSmall : n.log2 ≤ 52) :
    ∃ k : Int, n.log2 + 1 ≤ k ∧ k ≤ n.log2 + 2 ∧
      IsNormal k (UnpackedFloat.round Format.binary64 .positive n 0) := by
  have hTarget : Format.binary64.targetExponent (totalExponent n 0) = n.log2 - 52 := by
    rw [targetExponent_eq (by simp only [totalExponent]; omega), totalExponent]
    omega
  have hShift : ((0 : Int) - (n.log2 - 52)).toNat = 52 - n.log2 := by omega
  have hLog : (n <<< (52 - n.log2)).log2 = 52 := by
    rw [log2_shiftLeft hPos.ne']
    omega
  have hTotal : totalExponent (n <<< (52 - n.log2)) (0 - (52 - n.log2 : Nat)) = n.log2 + 1 := by
    rw [totalExponent, hLog]
    omega
  obtain ⟨k, hLower, hUpper, hRounded⟩ := isNormal_roundWithAccuracy (m := n <<< (52 - n.log2))
    (e := 0 - (52 - n.log2 : Nat)) .exact hLog.ge (by omega)
  refine ⟨k, by omega, by omega, ?_⟩
  simp only [UnpackedFloat.round, hTarget, decreaseExponent, hShift]
  exact hRounded

/-- A word is converted by rounding once. -/
theorem ofUInt64_eq_round {w : UInt64} (hPos : 0 < w.toNat) :
    UnpackedFloat.ofUInt64 Format.binary64 w =
      UnpackedFloat.round Format.binary64 .positive w.toNat 0 := by
  rw [UnpackedFloat.ofUInt64, UnpackedFloat.ofNat, UnpackedFloat.ofInt, UnpackedFloat.normalize,
    Int.compare_eq_gt.mpr (by omega), Int.toNat_natCast]

/-- A whole number without decimals is rounded once. -/
theorem ofScientific_eq_round {n : Nat} (hPos : 0 < n) :
    UnpackedFloat.ofScientific Format.binary64 n 0 =
      roundWithAccuracy Format.binary64 .positive (n <<< 53) (-53) .exact := by
  have hSignificand : n <<< Format.binary64.mantissaBits * 10 ^ (0 : Int).toNat = n <<< 53 :=
    Nat.mul_one _
  rw [UnpackedFloat.ofScientific, dif_neg hPos.ne', if_neg (by decide), if_neg (by simp),
    if_pos (by decide), UnpackedFloat.mul, hSignificand]
  rfl

end Rounding

end FlowAudit
