import HubDevice.Data.Datum

/-!
# MessagePack

Integers, strings, arrays and maps are written in their shortest form, doubles in 64 bits, and records
as arrays. Reading accepts every form; what follows the first datum is not looked at.
-/

namespace HubDevice.MessagePack

/-! ## Writing -/

/-- A marker and a number of `k` octets. -/
def tagged (marker : UInt8) (k n : Nat) : Octets := marker :: Octets.ofNatBE k n

def writeInt (n : Int) : Octets :=
  if 0 ≤ n then
    let m := n.toNat
    if m < 128 then [UInt8.ofNat m]
    else if m < 2 ^ 8 then tagged 0xcc 1 m
    else if m < 2 ^ 16 then tagged 0xcd 2 m
    else if m < 2 ^ 32 then tagged 0xce 4 m
    else tagged 0xcf 8 m
  else
    let wrapped (bits : Nat) : Nat := (n + 2 ^ bits).toNat
    if -32 ≤ n then [UInt8.ofNat (wrapped 8)]
    else if -2 ^ 7 ≤ n then tagged 0xd0 1 (wrapped 8)
    else if -2 ^ 15 ≤ n then tagged 0xd1 2 (wrapped 16)
    else if -2 ^ 31 ≤ n then tagged 0xd2 4 (wrapped 32)
    else tagged 0xd3 8 (wrapped 64)

def writeText (s : String) : Octets :=
  let bs := Octets.ofText s
  let n := bs.length
  (if n < 32 then [UInt8.ofNat (0xa0 + n)]
    else if n < 2 ^ 8 then tagged 0xd9 1 n
    else if n < 2 ^ 16 then tagged 0xda 2 n
    else tagged 0xdb 4 n) ++ bs

def writeBytes (bs : Octets) : Octets :=
  let n := bs.length
  (if n < 2 ^ 8 then tagged 0xc4 1 n else if n < 2 ^ 16 then tagged 0xc5 2 n else tagged 0xc6 4 n) ++ bs

def arrayHead (n : Nat) : Octets :=
  if n < 16 then [UInt8.ofNat (0x90 + n)]
  else if n < 2 ^ 16 then tagged 0xdc 2 n else tagged 0xdd 4 n

def mapHead (n : Nat) : Octets :=
  if n < 16 then [UInt8.ofNat (0x80 + n)]
  else if n < 2 ^ 16 then tagged 0xde 2 n else tagged 0xdf 4 n

mutual

/-- The octets of a datum. -/
def write : Datum → Octets
  | .null | .unit | .undefined | .foreign => [0xc0]
  | .bool b => [if b then 0xc3 else 0xc2]
  | .int n => writeInt n
  | .float x => tagged 0xcb 8 x.toBits.toNat
  | .text s => writeText s
  | .bytes bs | .numbers bs => writeBytes bs
  | .seq items | .list items => arrayHead items.length ++ writeItems items
  | .map entries => mapHead entries.length ++ writeEntries entries
  | .record fields => arrayHead fields.length ++ writeFields fields

def writeItems : List Datum → Octets
  | [] => []
  | d :: rest => write d ++ writeItems rest

def writeEntries : List (Datum × Datum) → Octets
  | [] => []
  | (k, d) :: rest => write k ++ write d ++ writeEntries rest

def writeFields : List (String × Datum) → Octets
  | [] => []
  | (_, d) :: rest => write d ++ writeFields rest

end

/-! ## Reading -/

/-- How deep arrays, maps and extensions may nest. -/
def maxDepth : Nat := 1023

/-- Splits off `n` octets, when there are so many. -/
def split? (n : Nat) (bs : Octets) : Option (Octets × Octets) :=
  let (head, tail) := bs.splitAt n
  if head.length = n then some (head, tail) else none

def readNat (k : Nat) (bs : Octets) : Option (Nat × Octets) :=
  (split? k bs).map fun p => (Octets.toNatBE p.1, p.2)

/-- A number in two's complement. -/
def readSigned (k : Nat) (bs : Octets) : Option (Datum × Octets) :=
  (readNat k bs).map fun p =>
    (.int (if p.1 < 2 ^ (8 * k - 1) then p.1 else (p.1 : Int) - 2 ^ (8 * k)), p.2)

/-- A string; what is not UTF-8 is only octets. -/
def readText (n : Nat) (bs : Octets) : Option (Datum × Octets) :=
  (split? n bs).map fun p => (match Octets.text? p.1 with
    | some s => .text s
    | none => .bytes p.1, p.2)

/-- Octets, which may also be a sequence of numbers. -/
def readOctets (n : Nat) (bs : Octets) : Option (Datum × Octets) :=
  (split? n bs).map fun p => (.numbers p.1, p.2)

/-- Reads `n` data one after another. -/
def readMany (read : Octets → Option (Datum × Octets)) : Nat → Octets → Option (List Datum × Octets)
  | 0, bs => some ([], bs)
  | n + 1, bs => do
    let (d, bs) ← read bs
    let (ds, bs) ← readMany read n bs
    return (d :: ds, bs)

/-- Whether an integer is written in one of the forms with a sign; such a key names no field. -/
def isSigned (bs : Octets) : Bool :=
  match bs with
  | marker :: _ => 0xd0 ≤ marker && marker ≤ 0xd3
  | [] => false

/-- Reads `n` keys with their values. -/
def readEntries (read : Octets → Option (Datum × Octets)) :
    Nat → Octets → Option (List (Datum × Datum) × Octets)
  | 0, bs => some ([], bs)
  | n + 1, bs => do
    let (k, tail) ← read bs
    let key := if isSigned bs then .foreign else k
    let (d, tail) ← read tail
    let (entries, tail) ← readEntries read n tail
    return ((key, d) :: entries, tail)

/-- Reads one datum whose arrays, maps and extensions nest at most so deep. -/
def read : Nat → Octets → Option (Datum × Octets)
  | depth, bs => do
    let (marker, bs) ← readNat 1 bs
    let array (n : Nat) (bs : Octets) : Option (Datum × Octets) :=
      match depth with
      | 0 => none
      | depth + 1 => (readMany (read depth) n bs).map fun p => (.seq p.1, p.2)
    let map (n : Nat) (bs : Octets) : Option (Datum × Octets) :=
      match depth with
      | 0 => none
      | depth + 1 => (readEntries (read depth) n bs).map fun p => (.map p.1, p.2)
    let extension (n : Nat) (bs : Octets) : Option (Datum × Octets) :=
      match depth with
      | 0 => none
      | _ + 1 => (split? (n + 1) bs).map fun p => (.foreign, p.2)
    let sized (k : Nat) (f : Nat → Octets → Option (Datum × Octets)) : Option (Datum × Octets) := do
      let (n, bs) ← readNat k bs
      f n bs
    if marker < 0x80 then return (.int marker, bs)
    else if marker < 0x90 then map (marker - 0x80) bs
    else if marker < 0xa0 then array (marker - 0x90) bs
    else if marker < 0xc0 then readText (marker - 0xa0) bs
    else if 0xe0 ≤ marker then return (.int ((marker : Int) - 256), bs)
    else match marker with
      | 0xc0 => return (.unit, bs)
      | 0xc2 => return (.bool false, bs)
      | 0xc3 => return (.bool true, bs)
      | 0xc4 => sized 1 readOctets
      | 0xc5 => sized 2 readOctets
      | 0xc6 => sized 4 readOctets
      | 0xc7 => sized 1 extension
      | 0xc8 => sized 2 extension
      | 0xc9 => sized 4 extension
      | 0xca =>
        let (n, bs) ← readNat 4 bs
        return (.float (Float32.ofBits (UInt32.ofNat n)).toFloat, bs)
      | 0xcb =>
        let (n, bs) ← readNat 8 bs
        return (.float (Float.ofBits (UInt64.ofNat n)), bs)
      | 0xcc => (readNat 1 bs).map fun p => (.int p.1, p.2)
      | 0xcd => (readNat 2 bs).map fun p => (.int p.1, p.2)
      | 0xce => (readNat 4 bs).map fun p => (.int p.1, p.2)
      | 0xcf => (readNat 8 bs).map fun p => (.int p.1, p.2)
      | 0xd0 => readSigned 1 bs
      | 0xd1 => readSigned 2 bs
      | 0xd2 => readSigned 4 bs
      | 0xd3 => readSigned 8 bs
      | 0xd4 => extension 1 bs
      | 0xd5 => extension 2 bs
      | 0xd6 => extension 4 bs
      | 0xd7 => extension 8 bs
      | 0xd8 => extension 16 bs
      | 0xd9 => sized 1 readText
      | 0xda => sized 2 readText
      | 0xdb => sized 4 readText
      | 0xdc => sized 2 array
      | 0xdd => sized 4 array
      | 0xde => sized 2 map
      | 0xdf => sized 4 map
      | _ => none

/-- Reads the first datum of octets. -/
def decode? (bs : Octets) : Option Datum := (read maxDepth bs).map (·.1)

end HubDevice.MessagePack
