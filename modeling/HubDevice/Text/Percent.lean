import HubDevice.Octets

/-!
# Percent encoding

A text whose characters may have a meaning of their own is written with letters, digits and four marks; every
other octet of it becomes a percent sign and two digits. Reading is lenient: a percent sign that two digits
do not follow stands for itself. What is read has to be text again.
-/

namespace HubDevice.Text.Percent

/-- Whether an octet stands for itself. -/
def isUnreserved (b : UInt8) : Bool :=
  (65 ≤ b && b ≤ 90) || (97 ≤ b && b ≤ 122) || (48 ≤ b && b ≤ 57) || b = 45 || b = 46 || b = 95 || b = 126

/-- The upper-case digit of a number below sixteen. -/
def digit (n : Nat) : Char := if n < 10 then Char.ofNat (48 + n) else Char.ofNat (55 + n)

/-- The written form of an octet. -/
def encodeOctet (b : UInt8) : List Char :=
  if isUnreserved b then [Char.ofNat b.toNat] else ['%', digit (b.toNat / 16), digit (b.toNat % 16)]

/-- The written form of a text. -/
def encode (s : String) : List Char := (Octets.ofText s).flatMap encodeOctet

/-- The value of an octet that is a hexadecimal digit. -/
def value? (b : UInt8) : Option Nat := Octets.hexValue? (Char.ofNat b.toNat)

/-- Replaces percent signs with two digits by the octets that they stand for. -/
def decodeOctets : Octets → Octets
  | [] => []
  | [b] => [b]
  | [b, c] => [b, c]
  | b :: c :: d :: rest =>
    if b = 37 then
      match value? c, value? d with
      | some hi, some lo => UInt8.ofNat (16 * hi + lo) :: decodeOctets rest
      | _, _ => b :: decodeOctets (c :: d :: rest)
    else b :: decodeOctets (c :: d :: rest)

/-- The text that a written form stands for. -/
def decode? (cs : List Char) : Option String :=
  Octets.text? (decodeOctets (Octets.ofText (String.ofList cs)))

end HubDevice.Text.Percent
