import HubDevice.Data.Datum

/-!
# JSON numerals

A numeral without a fraction and an exponent is an integer when it is in the 64-bit range. Every other
numeral is a double, worked out from a 64-bit significand and a decimal exponent: digits that would
overflow the significand are dropped and only counted, and one multiplication or division by a power
of ten follows. That is within an ulp or two of the nearest double and exact for short numerals. A numeral
out of the range of doubles can be skipped but not read.
-/

namespace HubDevice.Json

/-- A numeral out of the range of doubles. -/
def outOfRange : Float := 1.0 / 0.0

/-- The double nearest to a power of ten. -/
def tenToThe (k : Nat) : Float := Float.ofScientific 1 false k

/-- Divides by `10 ^ (-exponent)`, in steps that are themselves powers in range. Four steps bring
every 64-bit significand to zero. -/
def scaleDown : Nat → Float → Int → Float
  | 0, x, _ => x
  | fuel + 1, x, exponent =>
    if -308 ≤ exponent then x / tenToThe exponent.natAbs
    else if x == 0.0 then x
    else scaleDown fuel (x / tenToThe 308) (exponent + 308)

/-- `significand * 10 ^ exponent` as a double, infinite when it is out of range. -/
def scaled (significand : Nat) (exponent : Int) : Float :=
  let x := (UInt64.ofNat significand).toFloat
  if 0 ≤ exponent then
    if exponent ≤ 308 then x * tenToThe exponent.natAbs
    else if x == 0.0 then x else outOfRange
  else scaleDown 5 x exponent

/-- The value of a decimal digit. -/
def digit? (c : Char) : Option Nat :=
  if '0' ≤ c ∧ c ≤ '9' then some (c.toNat - 48) else none

/-- Splits off the leading digits. -/
def spanDigits : List Char → List Char × List Char
  | [] => ([], [])
  | c :: rest =>
    if (digit? c).isSome then
      let (ds, tail) := spanDigits rest
      (c :: ds, tail)
    else ([], c :: rest)

/-- Reads digits into a significand below `2 ^ 64`. The second part is the digits from the first one
that would overflow. -/
def accumulate (significand : Nat) : List Char → Nat × List Char
  | [] => (significand, [])
  | c :: rest =>
    let next := 10 * significand + (c.toNat - 48)
    if next < 2 ^ 64 then accumulate next rest else (significand, c :: rest)

/-- The value of a written exponent, which saturates. -/
def exponentValue (digits : List Char) : Nat :=
  digits.foldl (fun n c => min (10 * n + (c.toNat - 48)) (2 ^ 31)) 0

/-- A double with a sign, when it is in range. -/
def signed (negative : Bool) (x : Float) : Datum :=
  if finiteFloat x then .float (if negative then -x else x) else .foreign

/-- Reads what may follow the digits before an exponent: `e`, a sign and digits. -/
def readExponent (negative : Bool) (significand : Nat) (start : Int) :
    List Char → Option (Datum × List Char)
  | c :: rest =>
    if c = 'e' ∨ c = 'E' then
      let (down, rest) := match rest with
        | '+' :: r => (false, r)
        | '-' :: r => (true, r)
        | r => (false, r)
      match spanDigits rest with
      | ([], _) => none
      | (ds, tail) =>
        let e : Int := exponentValue ds
        if 2 ^ 31 ≤ e then
          let x := if significand ≠ 0 ∧ ¬ down then outOfRange else 0.0
          some (signed negative x, tail)
        else some (signed negative (scaled significand (if down then start - e else start + e)), tail)
    else some (signed negative (scaled significand start), c :: rest)
  | [] => some (signed negative (scaled significand start), [])

/-- Reads a fraction: a point with at least one digit, and a possible exponent. -/
def readFraction (negative : Bool) (significand : Nat) (start : Int) (rest : List Char) :
    Option (Datum × List Char) :=
  match spanDigits rest with
  | ([], _) => none
  | (ds, tail) =>
    let (m, dropped) := accumulate significand ds
    readExponent negative m (start - ((ds.length : Int) - dropped.length)) tail

/-- Reads a numeral after its sign. -/
def readUnsigned (negative : Bool) (text : List Char) : Option (Datum × List Char) :=
  match spanDigits text with
  | ([], _) => none
  | ('0' :: _ :: _, _) => none
  | (ds, tail) =>
    let (m, dropped) := accumulate 0 ds
    match tail with
    | '.' :: rest => readFraction negative m dropped.length rest
    | 'e' :: _ | 'E' :: _ => readExponent negative m dropped.length tail
    | _ =>
      if dropped ≠ [] then some (signed negative (scaled m dropped.length), tail)
      else if ¬ negative then some (.int m, tail)
      else if m ≠ 0 ∧ m ≤ 2 ^ 63 then some (.int (-(m : Int)), tail)
      else some (.float (-(UInt64.ofNat m).toFloat), tail)

/-- Reads a numeral, and gives the rest of the text. -/
def readNumeral : List Char → Option (Datum × List Char)
  | '-' :: rest => readUnsigned true rest
  | text => readUnsigned false text

end HubDevice.Json
