import HubDevice.Data.Datum

/-!
# CBOR

Heads are written in their shortest form, records as maps, and a double in the shortest of the three
widths that keeps its value. Reading accepts definite and indefinite lengths and looks through tags;
nothing may follow the datum.
-/

namespace HubDevice.Cbor

/-! ## Narrow floating point numbers -/

/-- The half-precision bits of a single-precision number, when they keep its value. -/
def halfBits? (bits : Nat) : Option Nat :=
  let sign := bits / 2 ^ 31 % 2 * 2 ^ 15
  let biased := bits / 2 ^ 23 % 256
  let fraction := bits % 2 ^ 23
  if biased = 0 ∧ fraction = 0 then some sign
  else if 113 ≤ biased ∧ biased ≤ 142 then
    if fraction % 2 ^ 13 = 0 then some (sign + (biased - 112) * 2 ^ 10 + fraction / 2 ^ 13) else none
  else if 103 ≤ biased ∧ biased ≤ 112 then
    let shift := 126 - biased
    let mantissa := 2 ^ 23 + fraction
    if mantissa % 2 ^ shift = 0 then some (sign + mantissa / 2 ^ shift) else none
  else none

/-- The value of half-precision bits. -/
def ofHalfBits (bits : Nat) : Float :=
  let biased : Nat := bits / 2 ^ 10 % 32
  let fraction : Nat := bits % 2 ^ 10
  let magnitude : Float :=
    if biased = 0 then Float.scaleB (UInt64.ofNat fraction).toFloat (-24)
    else if biased = 31 then (if fraction = 0 then 1.0 / 0.0 else 0.0 / 0.0)
    else Float.scaleB (UInt64.ofNat (1024 + fraction)).toFloat ((biased : Int) - 25)
  if bits / 2 ^ 15 % 2 = 1 then -magnitude else magnitude

/-! ## Writing -/

/-- The head of an item: its major type and its number. -/
def head (major n : Nat) : Octets :=
  let first (low : Nat) : UInt8 := UInt8.ofNat (32 * major + low)
  if n < 24 then [first n]
  else if n < 2 ^ 8 then first 24 :: Octets.ofNatBE 1 n
  else if n < 2 ^ 16 then first 25 :: Octets.ofNatBE 2 n
  else if n < 2 ^ 32 then first 26 :: Octets.ofNatBE 4 n
  else first 27 :: Octets.ofNatBE 8 n

def writeFloat (x : Float) : Octets :=
  if x.isNaN then [0xf9, 0x7e, 0x00]
  else if x.isInf then [0xf9, if x < 0 then 0xfc else 0x7c, 0x00]
  else
    let single := x.toFloat32
    if single.toFloat == x then
      match halfBits? single.toBits.toNat with
      | some half => 0xf9 :: Octets.ofNatBE 2 half
      | none => 0xfa :: Octets.ofNatBE 4 single.toBits.toNat
    else 0xfb :: Octets.ofNatBE 8 x.toBits.toNat

def writeText (s : String) : Octets :=
  let bs := Octets.ofText s
  head 3 bs.length ++ bs

mutual

/-- The octets of a datum. -/
def write : Datum → Octets
  | .null | .unit | .foreign => [0xf6]
  | .undefined => [0xf7]
  | .bool b => [if b then 0xf5 else 0xf4]
  | .int n => if 0 ≤ n then head 0 n.toNat else head 1 (-1 - n).toNat
  | .float x => writeFloat x
  | .text s => writeText s
  | .bytes bs | .numbers bs => head 2 bs.length ++ bs
  | .seq items | .list items => head 4 items.length ++ writeItems items
  | .map entries => head 5 entries.length ++ writeEntries entries
  | .record fields => head 5 fields.length ++ writeFields fields

def writeItems : List Datum → Octets
  | [] => []
  | d :: rest => write d ++ writeItems rest

def writeEntries : List (Datum × Datum) → Octets
  | [] => []
  | (k, d) :: rest => write k ++ write d ++ writeEntries rest

def writeFields : List (String × Datum) → Octets
  | [] => []
  | (k, d) :: rest => writeText k ++ write d ++ writeFields rest

end

/-! ## Reading -/

/-- How deep arrays, maps and tags may nest. -/
def maxDepth : Nat := 127

/-- Splits off `n` octets, when there are so many. -/
def split? (n : Nat) (bs : Octets) : Option (Octets × Octets) :=
  let (head, tail) := bs.splitAt n
  if head.length = n then some (head, tail) else none

/-- The number of a head, from its low five bits. -/
def readNumber (low : Nat) (bs : Octets) : Option (Nat × Octets) :=
  let wide (k : Nat) := (split? k bs).map fun p => (Octets.toNatBE p.1, p.2)
  if low < 24 then some (low, bs)
  else match low with
    | 24 => wide 1
    | 25 => wide 2
    | 26 => wide 4
    | 27 => wide 8
    | _ => none

/-- Reads `n` data one after another. -/
def readMany (read : Octets → Option (Datum × Octets)) : Nat → Octets → Option (List Datum × Octets)
  | 0, bs => some ([], bs)
  | n + 1, bs => do
    let (d, bs) ← read bs
    let (ds, bs) ← readMany read n bs
    return (d :: ds, bs)

/-- Reads data up to a break, at most as many as the fuel says. -/
def readOpen (read : Octets → Option (Datum × Octets)) : Nat → Octets → Option (List Datum × Octets)
  | _, 0xff :: bs => some ([], bs)
  | 0, _ => none
  | fuel + 1, bs => do
    let (d, bs) ← read bs
    let (ds, bs) ← readOpen read fuel bs
    return (d :: ds, bs)

/-- Reads the definite pieces of a string up to a break. -/
def readPieces (major : Nat) : Nat → Octets → Option (Octets × Octets)
  | _, 0xff :: bs => some ([], bs)
  | 0, _ => none
  | _, [] => none
  | fuel + 1, b :: bs => do
    if b.toNat / 32 ≠ major then none
    let (n, bs) ← readNumber (b.toNat % 32) bs
    let (piece, bs) ← split? n bs
    let (rest, bs) ← readPieces major fuel bs
    return (piece ++ rest, bs)

/-- Pairs keys with their values, when each key has one. -/
def pairUp? : List Datum → Option (List (Datum × Datum))
  | [] => some []
  | k :: v :: rest => (pairUp? rest).map ((k, v) :: ·)
  | [_] => none

def textOf? (bs : Octets) : Option Datum := (Octets.text? bs).map .text

/-- Reads one datum whose parts nest at most so deep. -/
def read : Nat → Octets → Option (Datum × Octets)
  | _, [] => none
  | depth, b :: bs =>
    let major := b.toNat / 32
    let low := b.toNat % 32
    match major with
    | 0 => (readNumber low bs).map fun p => (.int p.1, p.2)
    | 1 => (readNumber low bs).map fun p =>
        (if p.1 < 2 ^ 63 then .int (-1 - (p.1 : Int)) else .foreign, p.2)
    | 2 =>
      if low = 31 then (readPieces 2 bs.length bs).map fun p => (.bytes p.1, p.2)
      else do
        let (n, bs) ← readNumber low bs
        let (piece, bs) ← split? n bs
        return (.bytes piece, bs)
    | 3 =>
      if low = 31 then do
        let (piece, bs) ← readPieces 3 bs.length bs
        return (← textOf? piece, bs)
      else do
        let (n, bs) ← readNumber low bs
        let (piece, bs) ← split? n bs
        return (← textOf? piece, bs)
    | 4 =>
      match depth with
      | 0 => none
      | depth + 1 => do
        let (items, bs) ←
          if low = 31 then readOpen (read depth) bs.length bs
          else do
            let (n, bs) ← readNumber low bs
            readMany (read depth) n bs
        return (.seq items, bs)
    | 5 =>
      match depth with
      | 0 => none
      | depth + 1 => do
        let (items, bs) ←
          if low = 31 then readOpen (read depth) bs.length bs
          else do
            let (n, bs) ← readNumber low bs
            readMany (read depth) (2 * n) bs
        return (.map (← pairUp? items), bs)
    | 6 =>
      match depth with
      | 0 => none
      | depth + 1 => do
        let (_, bs) ← readNumber low bs
        let (d, bs) ← read depth bs
        return (match d with
          | .unit => .undefined
          | d => d, bs)
    | _ =>
      match low with
      | 20 => some (.bool false, bs)
      | 21 => some (.bool true, bs)
      | 22 => some (.unit, bs)
      | 23 => some (.undefined, bs)
      | 25 => (split? 2 bs).map fun p => (.float (ofHalfBits (Octets.toNatBE p.1)), p.2)
      | 26 => (split? 4 bs).map fun p =>
          (.float (Float32.ofBits (UInt32.ofNat (Octets.toNatBE p.1))).toFloat, p.2)
      | 27 => (split? 8 bs).map fun p => (.float (Float.ofBits (UInt64.ofNat (Octets.toNatBE p.1))), p.2)
      | _ => none

/-- Reads octets that hold exactly one datum. -/
def decode? (bs : Octets) : Option Datum :=
  match read maxDepth bs with
  | some (d, []) => some d
  | _ => none

end HubDevice.Cbor
