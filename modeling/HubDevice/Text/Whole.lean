import HubDevice.Number.Power

/-!
# Whole numbers in texts

Decimal numerals with a sign that may be left out. A number that a text spells has to be in range.
-/

namespace HubDevice.Text

/-- The number that decimal digits spell; there has to be one. -/
def digits? (cs : List Char) : Option Nat :=
  if cs.isEmpty then none
  else if cs.all Char.isDigit then some (cs.foldl (fun n c => 10 * n + (c.toNat - 48)) 0)
  else none

/-- An unsigned number below a bound; it may have a plus sign. -/
def unsigned? (bound : Nat) (cs : List Char) : Option Nat :=
  let n := match cs with
    | '+' :: ds => digits? ds
    | ds => digits? ds
  n.filter (· < bound)

/-- A signed number of 64 bits. -/
def signed? (cs : List Char) : Option Int :=
  let n := match cs with
    | '-' :: ds => (digits? ds).map fun n => -(n : Int)
    | '+' :: ds => (digits? ds).map fun n => (n : Int)
    | ds => (digits? ds).map fun n => (n : Int)
  n.filter fun n => -2 ^ 63 ≤ n ∧ n < 2 ^ 63

end HubDevice.Text
