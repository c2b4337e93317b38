import HubDevice.Agent.Random
import HubDevice.Proofs.Number.Rounding

/-!
# What can be drawn from

Samples between a spread and its opposite have a scale: the width between the two, divided by the largest fraction.
They can be drawn when the scale is finite. The width is exact, and the division by a number just below one carries
the exponent over only from the two largest mantissas, so the widest spread that can be drawn from is three units
below a half of the range of doubles: `(2 ^ 53 - 3) * 2 ^ 970`. A wider spread, an infinite one and what is not a
number cannot be drawn from.
-/

namespace HubDevice.Random

open Float.Model (UnpackedFloat totalExponent)
open Float.Model.Format (binary64)
open Float.Model.UnpackedFloat Double

/-- The widest spread that can be drawn from. -/
def widest : Float := Float.ofBits 0x7fdffffffffffffd

/-! ## Quotients by the largest fraction -/

/-- The largest fraction, unpacked. -/
def topFraction : UnpackedFloat := .finite .positive (2 ^ 53 - 2) (-53) (by decide)

theorem unpack_maxFraction : maxFraction.toModel.unpack = topFraction := rfl

variable {m : Nat} {e : Int} {hm : 0 < m}

theorem divCore_maxFraction (h : Rounded m e) :
    divCore binary64 m e (2 ^ 53 - 2) (-53) =
      (m * 2 ^ 53 / (2 ^ 53 - 2), e, accuracyOfFraction (m * 2 ^ 53 % (2 ^ 53 - 2)) (2 ^ 53 - 2)) := by
  obtain ⟨narrow, least, full⟩ := h
  have unit : totalExponent (2 ^ 53 - 2) (-53) = 0 := by
    rw [totalExponent, log2_eq (k := 52) (by decide) (by decide)]
    rfl
  have target : min (e - -53) (binary64.targetExponent (totalExponent m e - 0)) = e := by
    rw [targetExponent_eq, totalExponent]
    have := log2_lt (by decide) narrow
    obtain full | rfl := full
    · have := log2_eq full narrow
      omega
    · omega
  have shift : (e - -53 - e).toNat = 53 := by omega
  simp only [divCore, unit, target, shift, Nat.shiftLeft_eq]

/-- By how much the exponent of a quotient by the largest fraction is above that of the dividend. -/
def carry (m : Nat) : Nat := if m < 2 ^ 53 - 2 then 0 else 1

/-- A quotient has one bit too many just when the exponent is carried over, and else room to be rounded up. -/
theorem quotient_bounds (h : m < 2 ^ 53) :
    carry m = 0 ∧ m ≤ m * 2 ^ 53 / (2 ^ 53 - 2) ∧ m * 2 ^ 53 / (2 ^ 53 - 2) + 1 < 2 ^ 53 ∨
      carry m = 1 ∧ m * 2 ^ 53 / (2 ^ 53 - 2) / 2 = 2 ^ 52 := by
  unfold carry
  split <;> omega

theorem div_maxFraction (h : Rounded m e) :
    ∃ r pos, Rounded r (e + carry m) ∧
      div binary64 (.finite .positive m e hm) topFraction = .finite .positive r (e + carry m) pos := by
  have rounding : div binary64 (.finite .positive m e hm) topFraction =
      roundWithAccuracy binary64 .positive (m * 2 ^ 53 / (2 ^ 53 - 2)) e
        (accuracyOfFraction (m * 2 ^ 53 % (2 ^ 53 - 2)) (2 ^ 53 - 2)) := by
    simp only [div, topFraction, divCore_maxFraction h]
    rfl
  rw [rounding]
  have bounds := quotient_bounds h.narrow
  obtain ⟨narrow, least, full⟩ := h
  generalize m * 2 ^ 53 / (2 ^ 53 - 2) = q at bounds ⊢
  generalize accuracyOfFraction (m * 2 ^ 53 % (2 ^ 53 - 2)) (2 ^ 53 - 2) = a
  obtain ⟨none, low, high⟩ | ⟨one, middle⟩ := bounds
  · obtain ⟨above, below⟩ := shifted_bounds (m := q) (a := a) (k := 0)
    rw [none]
    exact ⟨_, by omega, ⟨by omega, by omega, by omega⟩,
      roundWithAccuracy_eq least (by omega) (.inl rfl) rfl (by omega) (by omega)⟩
  · obtain ⟨above, below⟩ := shifted_bounds (m := q) (a := a) (k := 1)
    rw [one]
    exact ⟨_, by omega, ⟨by omega, by omega, by omega⟩,
      roundWithAccuracy_eq least (by omega) (.inr (by omega)) rfl (by omega) (by omega)⟩

theorem add_carry_le : e + carry m ≤ 971 ↔ e < 971 ∨ e = 971 ∧ m ≤ 2 ^ 53 - 3 := by
  unfold carry
  split <;> omega

/-- The quotient of a double by the largest fraction is finite just when the exponent stays at most 971. -/
theorem isFinite_div_maxFraction (h : Rounded m e) :
    (unpack binary64 (pack binary64 (div binary64 (.finite .positive m e hm) topFraction))).isFinite =
      decide (e < 971 ∨ e = 971 ∧ m ≤ 2 ^ 53 - 3) := by
  obtain ⟨r, pos, rounded, quotient⟩ := @div_maxFraction m e hm h
  rw [quotient, isFinite_pack rounded]
  exact decide_eq_decide.mpr add_carry_le

/-! ## Widths -/

/-- The width between a spread and its opposite, by the unpacked spread. -/
def widthOf (u : UnpackedFloat) : UnpackedFloat :=
  unpack binary64 (pack binary64 (sub binary64 u u.neg))

theorem widthOf_finite : widthOf (.finite .positive m e hm) = unpack binary64 (pack binary64
    (sub binary64 (.finite .positive m e hm) (.finite .negative m e hm))) := rfl

theorem widthOf_normal (h : Rounded m e) (full : 2 ^ 52 ≤ m) (most : e ≤ 970) :
    widthOf (.finite .positive m e hm) = .finite .positive m (e + 1) hm := by
  have least := h.least
  have canonical : Canonical (.finite .positive m (e + 1) hm) := ⟨⟨h.narrow, by omega, .inl full⟩, by omega⟩
  rw [widthOf_finite, sub_neg_normal h full, unpack_pack canonical]

theorem widthOf_overflow (h : Rounded m e) (full : 2 ^ 52 ≤ m) (high : 971 ≤ e) :
    widthOf (.finite .positive m e hm) = .infinity .positive := by
  rw [widthOf_finite, sub_neg_normal h full, unpack_pack_overflow (by omega)]

theorem widthOf_subnormal (h : m < 2 ^ 52) :
    widthOf (.finite .positive m (-1074) hm) = .finite .positive (2 * m) (-1074) (Nat.mul_pos Nat.two_pos hm) := by
  have canonical : Canonical (.finite .positive (2 * m) (-1074) (Nat.mul_pos Nat.two_pos hm)) :=
    ⟨⟨by omega, by decide, .inr rfl⟩, by decide⟩
  rw [widthOf_finite, sub_neg_subnormal h, unpack_pack canonical]

/-! ## Scales -/

/-- The scale of samples from a spread, by the unpacked spread. -/
def scaleOf (u : UnpackedFloat) : UnpackedFloat :=
  unpack binary64 (pack binary64 (div binary64 (widthOf u) topFraction))

theorem unpack_fullScale (x : Float) : (fullScale x).toModel.unpack = scaleOf x.toModel.unpack := by
  rw [scaleOf, widthOf, ← unpack_neg, ← unpack_maxFraction]
  rfl

theorem isFinite_scaleOf (h : Rounded m e) (most : e ≤ 971) :
    (scaleOf (.finite .positive m e hm)).isFinite = decide (e < 970 ∨ e = 970 ∧ m ≤ 2 ^ 53 - 3) := by
  obtain ⟨narrow, least, full⟩ := h
  by_cases normal : 2 ^ 52 ≤ m
  · by_cases high : e = 971
    · rw [scaleOf, widthOf_overflow ⟨narrow, least, full⟩ normal (by omega), decide_eq_false (by omega)]
      rfl
    · have rounded : Rounded m (e + 1) := ⟨narrow, by omega, .inl normal⟩
      rw [scaleOf, widthOf_normal ⟨narrow, least, full⟩ normal (by omega), isFinite_div_maxFraction rounded]
      exact decide_eq_decide.mpr (by omega)
  · obtain rfl : e = -1074 := full.resolve_left normal
    have rounded : Rounded (2 * m) (-1074) := ⟨by omega, by decide, .inr rfl⟩
    rw [scaleOf, widthOf_subnormal (by omega), isFinite_div_maxFraction rounded]
    exact decide_eq_decide.mpr (by omega)

/-! ## Spreads -/

theorem unpack_widest : widest.toModel.unpack = .finite .positive (2 ^ 53 - 3) 970 (by decide) := rfl

theorem unpack_zero : (0 : Float).toModel.unpack = .zero .positive := rfl

/-- What is not below zero can be drawn from just when it is at most the widest spread. -/
theorem drawable_iff {x : Float} (h : ¬x < 0) : drawable x = true ↔ x ≤ widest := by
  have canonical : Canonical x.toModel.unpack := canonical_unpack _
  rw [drawable, finiteFloat_eq, unpack_fullScale, Bool.and_eq_true, decide_eq_true_iff, le_iff, le_iff, unpack_neg,
    unpack_widest]
  rw [lt_iff, unpack_zero] at h
  generalize x.toModel.unpack = u at h canonical
  match u with
  | .notANumber => exact iff_of_false (fun h => absurd h.1 (by decide)) (by decide)
  | .infinity .positive => exact iff_of_false (fun h => absurd h.2 (by decide)) (by decide)
  | .zero .positive | .zero .negative => exact iff_of_true ⟨rfl, rfl⟩ rfl
  | .finite .positive m e hm =>
    rw [isFinite_scaleOf canonical.1 canonical.2, decide_eq_true_iff, le_finite]
    exact and_iff_right rfl
  | .infinity .negative => exact absurd rfl h
  | .finite .negative m e hm => exact absurd rfl h

/-! ## Samples -/

theorem symmetric?_of_drawable {spread : Float} (h : drawable spread = true) (source : Source) :
    ∃ x next, symmetric? spread source = some (x, next) := by
  rw [symmetric?, if_pos h]
  exact ⟨_, _, rfl⟩

theorem symmetric?_of_not_drawable {spread : Float} (h : ¬drawable spread = true) (source : Source) :
    symmetric? spread source = none := by
  rw [symmetric?, if_neg h]

end HubDevice.Random
