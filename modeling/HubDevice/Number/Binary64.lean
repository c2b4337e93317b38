import HubDevice.Number.Power

/-!
# Binary floating point numbers

A finite double is a sign, a natural number and a power of two. This module takes doubles apart into
that form, so that decimal text can be chosen by exact arithmetic on natural numbers, and rounds a
quotient of natural numbers to the nearest double.
-/

namespace HubDevice

/-- A positive finite double: `mantissa * 2 ^ exponent`. When `low` holds the double is the least of
its binade, and the next smaller double is half as far away as the next larger one. -/
structure Dyadic where
  mantissa : Nat
  exponent : Int
  low : Bool

/-- What a double stands for. -/
inductive Binary64 where
  | nan
  | infinite (negative : Bool)
  | zero (negative : Bool)
  | finite (negative : Bool) (magnitude : Dyadic)

namespace Binary64

/-- Takes the 64 bits of a double apart. -/
def ofBits (bits : Nat) : Binary64 :=
  let negative := bits / 2 ^ 63 % 2 == 1
  let biased : Nat := bits / 2 ^ 52 % 2048
  let fraction := bits % 2 ^ 52
  if biased = 2047 then
    if fraction = 0 then .infinite negative else .nan
  else if biased = 0 then
    if fraction = 0 then .zero negative else .finite negative ⟨fraction, -1074, false⟩
  else .finite negative ⟨2 ^ 52 + fraction, (biased : Int) - 1075, fraction == 0 && 1 < biased⟩

/-- Takes a double apart. -/
def ofFloat (x : Float) : Binary64 := ofBits x.toBits.toNat

end Binary64

/-- Whether a double is neither infinite nor a NaN. -/
def finiteFloat (x : Float) : Bool :=
  match Binary64.ofFloat x with
  | .nan | .infinite _ => false
  | .zero _ | .finite _ _ => true

end HubDevice
