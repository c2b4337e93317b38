import HubDevice.Toml.Text

/-!
# TOML numbers and moments

Integers are in the signed 64-bit range and doubles are the nearest to the written decimal; digits may be
grouped by underscores between them. A moment is a date, a time, or both, with or without an offset; its
parts are checked and the rest of the library only asks that it is one.
-/

namespace HubDevice.Toml

/-- A value that is not made of other values, except a string. -/
inductive Scalar where
  | int (n : Int)
  | float (x : Float)
  | bool (b : Bool)
  | moment

/-! ## Digits -/

/-- Reads digits that may be grouped by single underscores; the first part leaves the underscores out. -/
def digits? (isDigit : Char → Bool) : List Char → Option (List Char × List Char)
  | c :: rest =>
    if isDigit c then
      match grouped isDigit false rest with
      | some (ds, rest) => some (c :: ds, rest)
      | none => none
    else none
  | [] => none
where
  /-- Continues after a digit, or after an underscore, which a digit has to follow. -/
  grouped (isDigit : Char → Bool) (bound : Bool) : List Char → Option (List Char × List Char)
    | c :: rest =>
      if isDigit c then (grouped isDigit false rest).map fun p => (c :: p.1, p.2)
      else if c = '_' ∧ bound = false then grouped isDigit true rest
      else if bound then none else some ([], c :: rest)
    | [] => if bound then none else some ([], [])

/-- Reads a sign. -/
def sign : List Char → Bool × List Char
  | '-' :: rest => (true, rest)
  | '+' :: rest => (false, rest)
  | cs => (false, cs)

/-- Reads the digits of a decimal integer: zero, or digits that do not start with it. -/
def whole? : List Char → Option (List Char × List Char)
  | '0' :: rest => some (['0'], rest)
  | cs => digits? Char.isDigit cs

/-- The number with these decimal digits. -/
def decimal (digits : List Char) : Nat := digits.foldl (fun n c => 10 * n + (c.toNat - 48)) 0

/-! ## Numbers -/

/-- The double nearest to `mantissa * 10 ^ exponent`. Beyond the bounds it is infinite or zero. -/
def nearest (mantissa : Nat) (exponent : Int) : Float :=
  let size : Int := (Nat.toDigits 10 mantissa).length + exponent
  if mantissa = 0 ∨ size < -400 then 0.0
  else if size > 400 then 1.0 / 0.0
  else Float.ofScientific mantissa (exponent < 0) exponent.natAbs

/-- Reads an exponent. -/
def exponent? : List Char → Option (Int × List Char)
  | c :: rest =>
    if c = 'e' ∨ c = 'E' then do
      let (negative, rest) := sign rest
      let (ds, rest) ← digits? Char.isDigit rest
      let n : Int := decimal ds
      return (if negative then -n else n, rest)
    else none
  | [] => none

/-- Reads a double with a fraction, an exponent, or both. -/
def float? (cs : List Char) : Option (Float × List Char) := do
  let (negative, cs) := sign cs
  let (whole, cs) ← whole? cs
  let finish (fraction : List Char) (e : Int) (rest : List Char) : Option (Float × List Char) :=
    let x := nearest (decimal (whole ++ fraction)) (e - fraction.length)
    if x == 1.0 / 0.0 ∧ negative = false then none else some (if negative then -x else x, rest)
  match cs with
  | '.' :: rest =>
    let (fraction, rest) ← digits? Char.isDigit rest
    match exponent? rest with
    | some (e, rest) => finish fraction e rest
    | none => finish fraction 0 rest
  | cs =>
    let (e, rest) ← exponent? cs
    finish [] e rest

/-- Reads a double that is not finite. -/
def special? (cs : List Char) : Option (Float × List Char) :=
  let (negative, cs) := sign cs
  match cs with
  | 'i' :: 'n' :: 'f' :: rest => some (if negative then -(1.0 / 0.0) else 1.0 / 0.0, rest)
  | 'n' :: 'a' :: 'n' :: rest => some (0.0 / 0.0, rest)
  | _ => none

/-- An integer, when it is in range. -/
def inRange? (n : Int) (rest : List Char) : Option (Int × List Char) :=
  if -2 ^ 63 ≤ n ∧ n < 2 ^ 63 then some (n, rest) else none

/-- Reads digits to a base. -/
def based? (base : Nat) (isDigit : Char → Bool) (cs : List Char) : Option (Int × List Char) := do
  let (ds, rest) ← digits? isDigit cs
  inRange? (Int.ofNat (ds.foldl (fun n c => base * n + (Octets.hexValue? c).getD 0) 0)) rest

/-- Reads an integer. -/
def int? : List Char → Option (Int × List Char)
  | '0' :: 'x' :: rest => based? 16 (fun c => (Octets.hexValue? c).isSome) rest
  | '0' :: 'o' :: rest => based? 8 (fun c => '0' ≤ c ∧ c ≤ '7') rest
  | '0' :: 'b' :: rest => based? 2 (fun c => c = '0' ∨ c = '1') rest
  | cs => do
    let (negative, cs) := sign cs
    let (ds, rest) ← whole? cs
    inRange? (if negative then -Int.ofNat (decimal ds) else decimal ds) rest

/-! ## Moments -/

/-- Reads a number of a fixed count of digits. -/
def fixed? (n : Nat) (cs : List Char) : Option (Nat × List Char) :=
  let ds := cs.take n
  if ds.length = n ∧ ds.all Char.isDigit then some (decimal ds, cs.drop n) else none

/-- Reads a number of two digits in a range. -/
def part? (least most : Nat) (cs : List Char) : Option (Nat × List Char) :=
  match fixed? 2 cs with
  | some (n, rest) => if least ≤ n ∧ n ≤ most then some (n, rest) else none
  | none => none

/-- The days of a month. -/
def daysOf (year month : Nat) : Nat :=
  if month = 2 then (if year % 4 = 0 ∧ (year % 100 ≠ 0 ∨ year % 400 = 0) then 29 else 28)
  else if month = 4 ∨ month = 6 ∨ month = 9 ∨ month = 11 then 30
  else 31

/-- Skips a character. -/
def char? (c : Char) : List Char → Option (List Char)
  | d :: rest => if d = c then some rest else none
  | [] => none

/-- Skips a date. -/
def date? (cs : List Char) : Option (List Char) := do
  let (year, cs) ← fixed? 4 cs
  let (month, cs) ← part? 1 12 (← char? '-' cs)
  let (_, cs) ← part? 1 (daysOf year month) (← char? '-' cs)
  return cs

/-- Skips a fraction of a second. -/
def fraction? : List Char → Option (List Char)
  | '.' :: c :: rest => if c.isDigit then some (rest.dropWhile Char.isDigit) else none
  | '.' :: [] => none
  | cs => some cs

/-- Skips a time. -/
def time? (cs : List Char) : Option (List Char) := do
  let (_, cs) ← part? 0 23 cs
  let (_, cs) ← part? 0 59 (← char? ':' cs)
  let (_, cs) ← part? 0 60 (← char? ':' cs)
  fraction? cs

/-- Skips an offset, if there is one. -/
def offset? : List Char → Option (List Char)
  | [] => some []
  | c :: rest =>
    if c = 'Z' ∨ c = 'z' then some rest
    else if c = '+' ∨ c = '-' then do
      let (_, cs) ← part? 0 23 rest
      let (_, cs) ← part? 0 59 (← char? ':' cs)
      return cs
    else some (c :: rest)

/-- Skips the time and the offset after a date, if there are any. -/
def timeAfterDate? : List Char → Option (List Char)
  | [] => some []
  | c :: rest =>
    if (c = 'T' ∨ c = 't' ∨ c = ' ') ∧ (part? 0 23 rest).isSome then do offset? (← time? rest)
    else some (c :: rest)

/-- Skips a moment. -/
def moment? (cs : List Char) : Option (List Char) :=
  match fixed? 4 cs with
  | some (_, '-' :: _) => do timeAfterDate? (← date? cs)
  | _ =>
    match fixed? 2 cs with
    | some (_, ':' :: _) => time? cs
    | _ => none

/-- Whether a text starts like a moment, so that it can be nothing else. -/
def startsMoment (cs : List Char) : Bool :=
  match fixed? 4 cs, fixed? 2 cs with
  | some (_, '-' :: _), _ => true
  | _, some (_, ':' :: _) => true
  | _, _ => false

/-! ## Scalars -/

/-- Reads a scalar. -/
def scalar (cs : List Char) : Option (Scalar × List Char) :=
  match cs with
  | 't' :: 'r' :: 'u' :: 'e' :: rest => some (.bool true, rest)
  | 'f' :: 'a' :: 'l' :: 's' :: 'e' :: rest => some (.bool false, rest)
  | cs =>
    if startsMoment cs then (moment? cs).map fun rest => (.moment, rest)
    else match float? cs with
      | some (x, rest) => some (.float x, rest)
      | none =>
        match special? cs with
        | some (x, rest) => some (.float x, rest)
        | none => (int? cs).map fun p => (.int p.1, p.2)

end HubDevice.Toml
