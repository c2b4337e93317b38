import HubDevice.Number.Power

/-!
# Octets

Payloads, keys and encoded documents are lists of octets. This module fixes the type and the four
readings of it that the rest of the library shares: UTF-8 text, hexadecimal text, and unsigned
numbers in network order and in little-endian order.
-/

namespace HubDevice

/-- A sequence of octets. -/
abbrev Octets := List UInt8

namespace Octets

/-! ## Text -/

/-- The UTF-8 octets of a text. -/
def ofText (s : String) : Octets := s.toUTF8.data.toList

/-- The text that the octets spell in UTF-8, or nothing when they are not well formed. -/
def text? (bs : Octets) : Option String := String.fromUTF8? ⟨bs.toArray⟩

/-! ## Hexadecimal -/

/-- The lower-case digit of a number below sixteen. -/
def hexDigit (n : Nat) : Char :=
  if n < 10 then Char.ofNat (48 + n) else Char.ofNat (87 + n)

/-- The value of a hexadecimal digit in either case. -/
def hexValue? (c : Char) : Option Nat :=
  if '0' ≤ c ∧ c ≤ '9' then some (c.toNat - 48)
  else if 'a' ≤ c ∧ c ≤ 'f' then some (c.toNat - 87)
  else if 'A' ≤ c ∧ c ≤ 'F' then some (c.toNat - 55)
  else none

/-- Two lower-case digits for each octet. -/
def toHex (bs : Octets) : String :=
  String.ofList (bs.flatMap fun b => [hexDigit (b.toNat / 16), hexDigit (b.toNat % 16)])

/-- Reads pairs of hexadecimal digits. -/
def ofHexDigits? : List Char → Option Octets
  | [] => some []
  | a :: b :: rest => do
    let hi ← hexValue? a
    let lo ← hexValue? b
    return UInt8.ofNat (16 * hi + lo) :: (← ofHexDigits? rest)
  | [_] => none

/-- The octets that a hexadecimal text stands for. -/
def ofHex? (s : String) : Option Octets := ofHexDigits? s.toList

/-! ## Unsigned numbers -/

/-- The number with these octets, the most significant first. -/
def toNatBE (bs : Octets) : Nat := bs.foldl (fun n b => 256 * n + b.toNat) 0

/-- The number with these octets, the least significant first. -/
def toNatLE : Octets → Nat
  | [] => 0
  | b :: rest => b.toNat + 256 * toNatLE rest

/-- The lowest `k` octets of a number, the least significant first. -/
def ofNatLE : Nat → Nat → Octets
  | 0, _ => []
  | k + 1, n => UInt8.ofNat n :: ofNatLE k (n / 256)

/-- The lowest `k` octets of a number, the most significant first. -/
def ofNatBE (k n : Nat) : Octets := (ofNatLE k n).reverse

@[simp] theorem length_ofNatLE (k n : Nat) : (ofNatLE k n).length = k := by
  induction k generalizing n with
  | zero => rfl
  | succ k ih => simp [ofNatLE, ih]

@[simp] theorem length_ofNatBE (k n : Nat) : (ofNatBE k n).length = k := by simp [ofNatBE]

end Octets

end HubDevice
