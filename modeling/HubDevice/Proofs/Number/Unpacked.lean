import HubDevice.Number.Binary64
import Mathlib

/-!
# Doubles, unpacked

Arithmetic on doubles unpacks its operands into signs, mantissas and exponents, and packs what it has rounded. An
unpacked double is canonical: its mantissa has at most 53 bits, and has all of them unless the exponent is the least
one. What is canonical is packed without a loss, and a rounded number whose exponent is too large is packed as an
infinity.

* `canonical_unpack`: a double is canonical when it is unpacked.
* `unpack_pack`: a canonical number stays what it is when it is packed.
* `isFinite_pack`: a rounded number is packed as a finite one just when its exponent is at most 971.
* `finiteFloat_eq`: the test of the bits of a double for finiteness is the one of its unpacked form.
-/

namespace HubDevice.Double

open Float.Model (UnpackedFloat)
open Float.Model.Format (binary64)
open Float.Model.UnpackedFloat

/-! ## Mantissas and exponents -/

/-- A mantissa and an exponent as rounding leaves them. -/
structure Rounded (m : Nat) (e : Int) : Prop where
  narrow : m < 2 ^ 53
  least : -1074 ≤ e
  full : 2 ^ 52 ≤ m ∨ e = -1074

/-- Whether a double has this form. -/
def Canonical : UnpackedFloat → Prop
  | .finite _ m e _ => Rounded m e ∧ e ≤ 971
  | _ => True

theorem exponentBias_eq : binary64.exponentBias = 1023 := by decide

theorem mantissaBits_eq : binary64.mantissaBits = 53 := by decide

theorem log2_eq {m k : Nat} (low : 2 ^ k ≤ m) (high : m < 2 ^ (k + 1)) : m.log2 = k := by
  have pos := Nat.two_pow_pos k
  exact (Nat.log2_eq_iff (by omega)).mpr ⟨low, high⟩

theorem log2_lt {m k : Nat} (pos : 0 < k) (high : m < 2 ^ k) : m.log2 < k := by
  by_cases h : m = 0
  · rwa [h]
  · exact (Nat.log2_lt h).mpr high

/-! ## The fields of a double -/

theorem toNat_one_append (m : BitVec 52) : (1#1 ++ m).toNat = 2 ^ 52 + m.toNat := by
  rw [BitVec.toNat_append, ← Nat.shiftLeft_add_eq_or_of_lt m.isLt]
  simp [Nat.shiftLeft_eq]

theorem toNat_unpackExponent (b : BitVec binary64.numBits) :
    (unpackExponent b).toNat = b.toNat / 2 ^ 52 % 2048 := by
  simp [unpackExponent, BitVec.extractLsb_toNat, Nat.shiftRight_eq_div_pow]

theorem exponent_inner {v : BitVec 11} (top : v ≠ -1#_) (bottom : v ≠ 0#_) : 0 < v.toNat ∧ v.toNat < 2047 := by
  have notTop : v.toNat ≠ 2047 := fun h => top (BitVec.eq_of_toNat_eq h)
  have notBottom : v.toNat ≠ 0 := fun h => bottom (BitVec.eq_of_toNat_eq h)
  omega

theorem unpack_packComponents (s : Sign) (e : BitVec 11) (m : BitVec 52) :
    unpack binary64 (packComponents binary64 s e m) =
      if e = -1#_ then if m = 0#_ then .infinity s else .notANumber
      else if e = 0#_ then
        if h : m = 0#_ then .zero s
        else .finite s m.toNat (-1074) (by simpa [BitVec.toNat_pos, BitVec.pos_iff_ne_zero])
      else .finite s (1#1 ++ m).toNat (e.toNat - 1075) (by rw [toNat_one_append]; omega) := by
  unfold unpack
  simp only [unpackExponent_packComponents, unpackMantissa_packComponents, unpackSign_packComponents,
    Sign.ofBitVec_toBitVec]
  split
  · rfl
  · split
    · split
      · rfl
      · subst e
        rfl
    · rfl

/-! ## Unpacking -/

theorem canonical_unpack (b : BitVec binary64.numBits) : Canonical (unpack binary64 b) := by
  have narrow : (unpackMantissa b).toNat < 2 ^ 52 := (unpackMantissa b).isLt
  unfold unpack
  dsimp only
  split
  case isTrue => split <;> trivial
  case isFalse top =>
    split
    case isTrue bottom =>
      split
      case isTrue => trivial
      case isFalse =>
        simp only [bottom]
        exact ⟨⟨by omega, by decide, .inr rfl⟩, by decide⟩
    case isFalse bottom =>
      obtain ⟨least, most⟩ := exponent_inner top bottom
      simp only [Canonical, toNat_one_append, exponentBias_eq]
      exact ⟨⟨by omega, by omega, .inl (by omega)⟩, by omega⟩

theorem isFinite_unpack (b : BitVec binary64.numBits) :
    (unpack binary64 b).isFinite = decide (unpackExponent b ≠ -1#_) := by
  unfold unpack
  dsimp only
  split
  case isTrue top =>
    rw [decide_eq_false (by simpa using top)]
    split <;> rfl
  case isFalse top =>
    rw [decide_eq_true top]
    split
    · split <;> rfl
    · rfl

/-! ## Packing -/

section Packing

variable {s : Sign} {m : Nat} {e : Int} {hm : 0 < m}

theorem pack_overflow (h : 972 ≤ e) :
    pack binary64 (.finite s m e hm) = packedInfinity binary64 s := by
  simp only [pack, exponentBias_eq]
  exact if_pos (by omega)

theorem pack_normal (h : Rounded m e) (full : 2 ^ 52 ≤ m) (most : e ≤ 971) :
    pack binary64 (.finite s m e hm) =
      packComponents binary64 s (BitVec.ofNat 11 (e + 1075).toNat) (BitVec.ofNat 52 m) := by
  have biased : (e + (1023 : Nat) + (52 : Nat)).toNat = (e + 1075).toNat := by omega
  simp only [pack, exponentBias_eq, biased, mantissaBits_eq, log2_eq full h.narrow]
  rw [if_neg (by omega), if_pos trivial]

theorem pack_subnormal (h : m < 2 ^ 52) :
    pack binary64 (.finite s m (-1074) hm) = packComponents binary64 s 0#11 (BitVec.ofNat 52 m) := by
  have := log2_lt (by decide) h
  simp only [pack, exponentBias_eq, mantissaBits_eq]
  rw [if_neg (by decide), if_neg (by omega)]

theorem unpack_pack_overflow (h : 972 ≤ e) :
    unpack binary64 (pack binary64 (.finite s m e hm)) = .infinity s := by
  rw [pack_overflow h]
  cases s <;> rfl

theorem unpack_pack_normal (h : Rounded m e) (full : 2 ^ 52 ≤ m) (most : e ≤ 971) :
    unpack binary64 (pack binary64 (.finite s m e hm)) = .finite s m e hm := by
  obtain ⟨narrow, least, -⟩ := h
  have exponent : (BitVec.ofNat 11 (e + 1075).toNat).toNat = (e + 1075).toNat := by
    rw [BitVec.toNat_ofNat]
    omega
  have fraction : (BitVec.ofNat 52 m).toNat = m - 2 ^ 52 := by
    rw [BitVec.toNat_ofNat]
    omega
  have top : BitVec.ofNat 11 (e + 1075).toNat ≠ -1#_ := by
    intro h
    have : (e + 1075).toNat = 2047 := exponent ▸ congrArg BitVec.toNat h
    omega
  have bottom : BitVec.ofNat 11 (e + 1075).toNat ≠ 0#_ := by
    intro h
    have : (e + 1075).toNat = 0 := exponent ▸ congrArg BitVec.toNat h
    omega
  rw [pack_normal ⟨narrow, least, .inl full⟩ full most, unpack_packComponents, if_neg top, if_neg bottom]
  congr 1
  · rw [toNat_one_append, fraction]
    omega
  · rw [exponent]
    omega

theorem unpack_pack_subnormal (h : m < 2 ^ 52) :
    unpack binary64 (pack binary64 (.finite s m (-1074) hm)) = .finite s m (-1074) hm := by
  have fraction : (BitVec.ofNat 52 m).toNat = m := by
    rw [BitVec.toNat_ofNat]
    omega
  have nonzero : BitVec.ofNat 52 m ≠ 0#_ := by
    intro h
    have : m = 0 := fraction ▸ congrArg BitVec.toNat h
    omega
  rw [pack_subnormal h, unpack_packComponents, if_neg (by decide), if_pos rfl, dif_neg nonzero]
  congr 1

theorem unpack_pack {u : UnpackedFloat} (h : Canonical u) :
    unpack binary64 (pack binary64 u) = u := by
  match u with
  | .notANumber => rfl
  | .infinity s => cases s <;> rfl
  | .zero s => cases s <;> rfl
  | .finite s m e hm =>
    obtain ⟨rounded, most⟩ := h
    by_cases full : 2 ^ 52 ≤ m
    · exact unpack_pack_normal rounded full most
    · obtain rfl : e = -1074 := rounded.full.resolve_left full
      exact unpack_pack_subnormal (by omega)

theorem isFinite_pack (h : Rounded m e) :
    (unpack binary64 (pack binary64 (.finite s m e hm))).isFinite = decide (e ≤ 971) := by
  by_cases most : e ≤ 971
  · have canonical : Canonical (.finite s m e hm) := ⟨h, most⟩
    rw [unpack_pack canonical, decide_eq_true most]
    rfl
  · rw [unpack_pack_overflow (by omega), decide_eq_false most]
    rfl

end Packing

/-! ## Operations -/

theorem canonical_neg {u : UnpackedFloat} (h : Canonical u) : Canonical u.neg := by
  cases u <;> exact h

theorem unpack_neg (x : Float) : (-x).toModel.unpack = x.toModel.unpack.neg :=
  unpack_pack (canonical_neg (canonical_unpack _))

theorem le_iff {x y : Float} : x ≤ y ↔ x.toModel.unpack.le y.toModel.unpack = true :=
  decide_eq_true_iff

theorem lt_iff {x y : Float} : x < y ↔ x.toModel.unpack.lt y.toModel.unpack = true :=
  decide_eq_true_iff

theorem le_finite {m m' : Nat} {e e' : Int} {hm : 0 < m} {hm' : 0 < m'} :
    UnpackedFloat.le (.finite .positive m e hm) (.finite .positive m' e' hm') = true ↔
      e < e' ∨ e = e' ∧ m ≤ m' := by
  show ((compare e e').then (compare m m')).isLE = true ↔ _
  rw [Ordering.isLE_then_iff_or, Int.compare_eq_lt, Int.compare_eq_eq, Nat.isLE_compare]

theorem finiteFloat_eq (x : Float) : finiteFloat x = x.toModel.unpack.isFinite := by
  have field : @unpackExponent binary64 x.toModel.toBits.toBitVec = -1#_ ↔
      x.toBits.toNat / 2 ^ 52 % 2048 = 2047 := by
    rw [← BitVec.toNat_inj, toNat_unpackExponent]
    rfl
  show _ = (unpack binary64 x.toModel.toBits.toBitVec).isFinite
  rw [isFinite_unpack]
  simp only [ne_eq, field]
  unfold finiteFloat Binary64.ofFloat Binary64.ofBits
  dsimp only
  split_ifs with top
  all_goals simpa using top

end HubDevice.Double
