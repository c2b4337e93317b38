import HubDevice.Config.Failure

/-!
# When validation finds nothing

A check finds nothing just when it holds, and a section is valid just when its settings are and the check that spans
several of them finds nothing.
-/

namespace HubDevice.Config

theorem check_eq_nil {ok : Bool} {path code message : String} : check ok path code message = [] ↔ ok = true := by
  cases ok <;> simp [check]

theorem checkRange_eq_nil {n least most : Nat} {path message : String} :
    checkRange n least most path message = [] ↔ least ≤ n ∧ n ≤ most := by
  simp [checkRange, check_eq_nil]

theorem checkLength_eq_nil {s : String} {least : Nat} {most : Option Nat} {path message : String} :
    checkLength s least most path message = [] ↔ least ≤ s.length ∧ ∀ m, most = some m → s.length ≤ m := by
  cases most <;> simp [checkLength, check_eq_nil]

theorem checkSection_eq_nil {settings spanning : List Failure} :
    checkSection settings spanning = [] ↔ settings = [] ∧ spanning = [] := by
  cases settings <;> simp [checkSection]

theorem Failure.sort_eq_nil {l : List Failure} : Failure.sort l = [] ↔ l = [] := by
  rw [Failure.sort, ← List.length_eq_zero_iff, List.length_mergeSort, List.length_eq_zero_iff]

end HubDevice.Config
