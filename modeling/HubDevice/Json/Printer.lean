import HubDevice.Number.Shortest
import HubDevice.Octets
import HubDevice.Json.Value

/-!
# Compact JSON text

`Json.compact` writes a value without blanks. Control characters, quotation marks and backslashes
are escaped and everything else stands for itself; a double has the shortest digits that read back,
always with a point or an exponent, and no text at all when it is not finite.
-/

namespace HubDevice.Json

/-! ## Numbers -/

/-- The digits of a natural number. -/
def natDigits (n : Nat) : List Char := Nat.toDigits 10 n

/-- The text of an integer. -/
def intText (n : Int) : String :=
  match n with
  | .ofNat k => String.ofList (natDigits k)
  | .negSucc k => String.ofList ('-' :: natDigits (k + 1))

/-- Lays out the digits of a decimal: positional from `1e-5` up to `1e16`, scientific outside. -/
def decimalText (x : Decimal) : List Char :=
  let digits := natDigits x.digits
  let count : Int := digits.length
  let point := count + x.exponent
  if 0 ≤ x.exponent ∧ point ≤ 16 then
    digits ++ List.replicate x.exponent.toNat '0' ++ ['.', '0']
  else if 0 < point ∧ point ≤ 16 then
    digits.take point.toNat ++ '.' :: digits.drop point.toNat
  else if -5 < point ∧ point ≤ 0 then
    '0' :: '.' :: (List.replicate (-point).toNat '0' ++ digits)
  else
    let e := point - 1
    let exponent := (if e < 0 then ['-'] else ['+']) ++ natDigits e.natAbs
    let tail := match digits.drop 1 with
      | [] => []
      | rest => '.' :: rest
    digits.take 1 ++ tail ++ 'e' :: exponent

/-- The text of a double. -/
def floatText (x : Float) : String :=
  match Binary64.ofFloat x with
  | .nan | .infinite _ => "null"
  | .zero negative => if negative then "-0.0" else "0.0"
  | .finite negative m =>
    String.ofList ((if negative then ['-'] else []) ++ decimalText m.shortest)

/-! ## Strings -/

/-- The written form of one character of a string. -/
def escape (c : Char) : List Char :=
  if c = '"' then ['\\', '"']
  else if c = '\\' then ['\\', '\\']
  else if c = '\x08' then ['\\', 'b']
  else if c = '\x0c' then ['\\', 'f']
  else if c = '\n' then ['\\', 'n']
  else if c = '\r' then ['\\', 'r']
  else if c = '\t' then ['\\', 't']
  else if c.toNat < 32 then
    ['\\', 'u', '0', '0', Octets.hexDigit (c.toNat / 16), Octets.hexDigit (c.toNat % 16)]
  else [c]

/-- A text between quotation marks. -/
def quote (s : String) : String :=
  String.ofList ('"' :: (s.toList.flatMap escape ++ ['"']))

/-! ## Documents -/

mutual

/-- Appends the text of a value. -/
def write (acc : String) : Json → String
  | .null => acc ++ "null"
  | .bool b => acc ++ (if b then "true" else "false")
  | .int n => acc ++ intText n
  | .float x => acc ++ floatText x
  | .str s => acc ++ quote s
  | .arr [] => acc ++ "[]"
  | .arr (v :: rest) => writeItems (write (acc.push '[') v) rest
  | .obj [] => acc ++ "\x7b\x7d"
  | .obj ((k, v) :: rest) => writeMembers (write (acc ++ "\x7b" ++ quote k ++ ":") v) rest

/-- Appends the further items of an array and its end. -/
def writeItems (acc : String) : List Json → String
  | [] => acc.push ']'
  | v :: rest => writeItems (write (acc.push ',') v) rest

/-- Appends the further members of an object and its end. -/
def writeMembers (acc : String) : List (String × Json) → String
  | [] => acc ++ "\x7d"
  | (k, v) :: rest => writeMembers (write (acc ++ "," ++ quote k ++ ":") v) rest

end

/-- The compact text of a value, members in the order given. -/
def compact (v : Json) : String := write "" v

end HubDevice.Json
