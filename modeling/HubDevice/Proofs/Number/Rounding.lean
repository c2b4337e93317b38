import HubDevice.Proofs.Number.Unpacked

/-!
# Rounding of doubles

Rounding shifts a mantissa to the right until 53 bits of it are left, and rounds what was shifted out to the nearest
mantissa. The numbers here have one bit too many at most, and are rounded down at least to the bits that are left and
up at most to the next mantissa. A number minus its opposite is the number with the next exponent, and below the
numbers that have all of their bits the one with twice the mantissa: nothing is rounded off.
-/

namespace HubDevice.Double

open Float.Model (UnpackedFloat totalExponent)
open Float.Model.Format (binary64)
open Float.Model.UnpackedFloat

variable {s : Sign} {m k r : Nat} {e : Int} {a : Accuracy} {hm : 0 < m}

/-! ## Extended mantissas -/

theorem mantissa_shiftRight (em : ExtendedMantissa) : (em >>> k).mantissa = em.mantissa / 2 ^ k := by
  induction k with
  | zero => exact (Nat.div_one _).symm
  | succ k ih =>
    show (em >>> k).mantissa / 2 = _
    rw [ih, Nat.div_div_eq_div_mul, ← Nat.pow_succ]

theorem mantissa_ofMantissaAndAccuracy : (ExtendedMantissa.ofMantissaAndAccuracy m a).mantissa = m := by
  match a with
  | .exact | .inexact .lt | .inexact .eq | .inexact .gt => rfl

theorem roundedMantissa_bounds (em : ExtendedMantissa) :
    em.mantissa ≤ em.roundedMantissa ∧ em.roundedMantissa ≤ em.mantissa + 1 := by
  obtain ⟨m, round, sticky⟩ := em
  cases round <;> cases sticky <;>
    simp [ExtendedMantissa.roundedMantissa, ExtendedMantissa.accuracy, Accuracy.roundToNearestEven]
  omega

/-- The rounded mantissa of a number from which `k` bits are shifted out. -/
def shifted (m : Nat) (a : Accuracy) (k : Nat) : Nat :=
  (ExtendedMantissa.ofMantissaAndAccuracy m a >>> k).roundedMantissa

theorem shifted_bounds : m / 2 ^ k ≤ shifted m a k ∧ shifted m a k ≤ m / 2 ^ k + 1 := by
  have h := roundedMantissa_bounds (ExtendedMantissa.ofMantissaAndAccuracy m a >>> k)
  rwa [mantissa_shiftRight, mantissa_ofMantissaAndAccuracy] at h

/-! ## The target of rounding -/

theorem targetExponent_eq (t : Int) : binary64.targetExponent t = max (t - 53) (-1074) := rfl

theorem target_shift (least : -1074 ≤ e) (high : m < 2 ^ (53 + k)) (low : k = 0 ∨ 2 ^ (52 + k) ≤ m) :
    (binary64.targetExponent (totalExponent m e) - e).toNat = k := by
  rw [targetExponent_eq, totalExponent]
  have below := log2_lt (by omega) high
  obtain rfl | low := low
  · omega
  · have pos := Nat.two_pow_pos (52 + k)
    have := (Nat.le_log2 (by omega)).mpr low
    omega

/-- A number of which `k` bits are too many is rounded once. -/
theorem roundWithAccuracy_eq (least : -1074 ≤ e) (high : m < 2 ^ (53 + k)) (low : k = 0 ∨ 2 ^ (52 + k) ≤ m)
    (rounded : shifted m a k = r) (pos : 0 < r) (narrow : r < 2 ^ 53) :
    roundWithAccuracy binary64 s m e a = .finite s r (e + k) pos := by
  have again : (binary64.targetExponent (totalExponent r (e + k)) - (e + k)).toNat = 0 :=
    target_shift (by omega) narrow (.inl rfl)
  rw [shifted] at rounded
  simp only [roundWithAccuracy, shiftToTargetExponent, shiftToExponent, target_shift least high low, rounded, again]
  show (if h : r = 0 then zero s else finite s r (e + k + (0 : Nat)) (Nat.pos_of_ne_zero h)) = _
  rw [dif_neg (by omega)]
  simp

theorem round_eq (wide : 2 ^ 52 ≤ m ∨ e = -1074) :
    UnpackedFloat.round binary64 s m e = roundWithAccuracy binary64 s m e .exact := by
  have still : (e - binary64.targetExponent (totalExponent m e)).toNat = 0 := by
    rw [targetExponent_eq, totalExponent]
    obtain full | rfl := wide
    · have := (Nat.le_log2 (by omega)).mpr full
      omega
    · omega
  simp [UnpackedFloat.round, decreaseExponent, still]

/-! ## A number minus its opposite -/

theorem sub_neg : sub binary64 (.finite .positive m e hm) (.finite .negative m e hm) =
    UnpackedFloat.round binary64 .positive (2 * m) e := by
  have twice : (m : Int) + m = (2 * m : Nat) := by omega
  have positive : compare ((2 * m : Nat) : Int) 0 = .gt := Int.compare_eq_gt.mpr (by omega)
  simp only [sub, decreaseExponent, Sign.apply, UnpackedFloat.normalize, Int.min_self, Int.sub_self,
    Int.toNat_zero, Nat.shiftLeft_zero, Int.sub_neg, twice, positive, Int.toNat_natCast]

theorem sub_neg_normal (h : Rounded m e) (full : 2 ^ 52 ≤ m) :
    sub binary64 (.finite .positive m e hm) (.finite .negative m e hm) = .finite .positive m (e + 1) hm := by
  have narrow := h.narrow
  have even : shifted (2 * m) .exact 1 = m := by
    show (ExtendedMantissa.mk (2 * m / 2) (2 * m % 2 != 0) false).roundedMantissa = m
    rw [Nat.mul_div_cancel_left m (by decide), Nat.mul_mod_right]
    rfl
  rw [sub_neg, round_eq (.inl (by omega))]
  exact roundWithAccuracy_eq h.least (by omega) (.inr (by omega)) even hm narrow

theorem sub_neg_subnormal (h : m < 2 ^ 52) :
    sub binary64 (.finite .positive m (-1074) hm) (.finite .negative m (-1074) hm) =
      .finite .positive (2 * m) (-1074) (Nat.mul_pos Nat.two_pos hm) := by
  have exact_ : shifted (2 * m) .exact 0 = 2 * m := rfl
  rw [sub_neg, round_eq (.inr rfl)]
  exact roundWithAccuracy_eq (by decide) (by omega) (.inl rfl) exact_ (by omega) (by omega)

end HubDevice.Double
