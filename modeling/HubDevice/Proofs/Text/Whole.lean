import HubDevice.Text.Whole
import Mathlib.Tactic.Common

/-!
# Decimals read back

The decimal of a number is read as the number, with or without a sign, as long as the number is in range.
-/

namespace HubDevice.Text

theorem digits?_toDigits (n : Nat) : digits? (Nat.toDigits 10 n) = some n := by
  have hdigits : (Nat.toDigits 10 n).all Char.isDigit = true :=
    List.all_eq_true.mpr fun c hc => Nat.isDigit_of_mem_toDigits (by decide) (by decide) hc
  have hvalue : (Nat.toDigits 10 n).foldl (fun n c => 10 * n + (c.toNat - 48)) 0 = n := Nat.ofDigitChars_ten_toDigits
  rw [digits?, if_neg (by simp [Nat.toDigits_ne_nil]), if_pos hdigits, hvalue]

theorem notMem_toDigits {c : Char} (hc : c.isDigit = false) (n : Nat) : c ∉ Nat.toDigits 10 n := by
  intro hm
  have hdigit : c.isDigit = true := Nat.isDigit_of_mem_toDigits (by decide) (by decide) hm
  rw [hc] at hdigit
  cases hdigit

/-- A decimal has no sign in front. -/
theorem toDigits_ne_cons {c : Char} (hc : c.isDigit = false) (n : Nat) (rest : List Char) :
    Nat.toDigits 10 n ≠ c :: rest := fun h => notMem_toDigits hc n (h ▸ List.mem_cons_self)

theorem toList_toString (n : Nat) : (toString n).toList = Nat.toDigits 10 n := by
  rw [Nat.toString_eq_ofList_toDigits, String.toList_ofList]

theorem unsigned?_toString {bound n : Nat} (h : n < bound) : unsigned? bound (toString n).toList = some n := by
  rw [toList_toString]
  unfold unsigned?
  split
  · rename_i ds hds
    exact absurd hds (toDigits_ne_cons (by decide) n ds)
  · rw [digits?_toDigits, Option.filter_some, if_pos (decide_eq_true h)]

theorem signed?_toDigits {n : Nat} (h : n < 2 ^ 63) : signed? (Nat.toDigits 10 n) = some (n : Int) := by
  unfold signed?
  split
  · rename_i ds hds
    exact absurd hds (toDigits_ne_cons (by decide) n ds)
  · rename_i ds hds
    exact absurd hds (toDigits_ne_cons (by decide) n ds)
  · have hrange : (n : Int) < 2 ^ 63 := by omega
    simpa [digits?_toDigits] using hrange

theorem signed?_minus_toDigits {n : Nat} (h : n ≤ 2 ^ 63) : signed? ('-' :: Nat.toDigits 10 n) = some (-(n : Int)) := by
  have hrange : (n : Int) ≤ 2 ^ 63 ∧ -(n : Int) < 2 ^ 63 := by omega
  simpa [signed?, digits?_toDigits] using hrange

theorem toList_toString_ofNat (n : Nat) : (toString (Int.ofNat n)).toList = Nat.toDigits 10 n := String.toList_ofList

theorem toList_toString_negSucc (n : Nat) :
    (toString (Int.negSucc n)).toList = '-' :: Nat.toDigits 10 (n + 1) := by
  have hrepr : toString (Int.negSucc n) = "-" ++ String.ofList (Nat.toDigits 10 (n + 1)) := rfl
  rw [hrepr, String.toList_append, String.toList_ofList, String.toList_ofList, List.singleton_append]

theorem signed?_toString {v : Int} (h : -2 ^ 63 ≤ v ∧ v < 2 ^ 63) : signed? (toString v).toList = some v := by
  cases v with
  | ofNat n =>
    have hn : n < 2 ^ 63 := Int.ofNat_lt.mp h.2
    rw [toList_toString_ofNat]
    exact signed?_toDigits hn
  | negSucc n =>
    rw [toList_toString_negSucc]
    exact signed?_minus_toDigits (by omega)

/-- A number that has no sign has only digits in its decimal. -/
theorem notMem_toString {c : Char} (hc : c.isDigit = false) (n : Nat) : c ∉ (toString n).toList := by
  rw [toList_toString]
  exact notMem_toDigits hc n

/-- Other numbers may have a minus sign besides. -/
theorem notMem_toString_int {c : Char} (hc : c.isDigit = false) (hsign : c ≠ '-') (v : Int) :
    c ∉ (toString v).toList := by
  cases v with
  | ofNat n =>
    rw [toList_toString_ofNat]
    exact notMem_toDigits hc n
  | negSucc n =>
    rw [toList_toString_negSucc]
    exact List.not_mem_cons_of_ne_of_not_mem hsign (notMem_toDigits hc _)

end HubDevice.Text
