import HubDevice.Json.Numeral

/-!
# JSON tokens

The lexical part of JSON text: punctuation, the three words, numerals and strings, with blanks
between them. A document is taken octet by octet, each as the character of its number: all that has a
meaning of its own is ASCII, and the octets of a string are put together at its end. A string that spells
no text, as it has a surrogate alone or octets that are not UTF-8, can be skipped but not read.
-/

namespace HubDevice.Json

/-- A lexical unit of JSON text. -/
inductive Token where
  | openArray
  | closeArray
  | openObject
  | closeObject
  | comma
  | colon
  | scalar (d : Datum)
  /-- A string, which may spell no text. -/
  | text (s : Option String)

namespace Token

/-- The number written with four hexadecimal digits. -/
def hexUnit? (a b c d : Char) : Option Nat := do
  let digit (ch : Char) : Option Nat :=
    if '0' ≤ ch ∧ ch ≤ '9' then some (ch.toNat - 48)
    else if 'a' ≤ ch ∧ ch ≤ 'f' then some (ch.toNat - 87)
    else if 'A' ≤ ch ∧ ch ≤ 'F' then some (ch.toNat - 55)
    else none
  return 4096 * (← digit a) + 256 * (← digit b) + 16 * (← digit c) + (← digit d)

/-- What a backslash and one letter stand for. -/
def simpleEscape? (c : Char) : Option Char :=
  match c with
  | '"' => some '"'
  | '\\' => some '\\'
  | '/' => some '/'
  | 'b' => some '\x08'
  | 'f' => some '\x0c'
  | 'n' => some '\n'
  | 'r' => some '\r'
  | 't' => some '\t'
  | _ => none

/-- A piece of the inside of a string: an octet, or a 16-bit unit that is written with digits. -/
inductive Piece where
  | octet (b : UInt8)
  | unit (n : Nat)

/-- The octet of a character of a document. -/
def Piece.ofChar (c : Char) : Piece := .octet (UInt8.ofNat c.toNat)

/-- The octets of a character in UTF-8. -/
def charOctets (n : Nat) : Octets := Octets.ofText (String.singleton (Char.ofNat n))

/-- What a unit alone stands for. A surrogate stands for an octet that no text has. -/
def unitOctets (n : Nat) : Octets := if 0xD800 ≤ n ∧ n ≤ 0xDFFF then [0xff] else charOctets n

/-- Puts the octets of pieces, the last one first, in front of others. A high surrogate and a low one make a
character above `U+FFFF`. -/
def assemble (done : Octets) : List Piece → Octets
  | [] => done
  | .unit low :: .unit high :: rest =>
    if 0xD800 ≤ high ∧ high ≤ 0xDBFF ∧ 0xDC00 ≤ low ∧ low ≤ 0xDFFF then
      assemble (charOctets (0x10000 + 0x400 * (high - 0xD800) + (low - 0xDC00)) ++ done) rest
    else assemble (unitOctets low ++ done) (.unit high :: rest)
  | .unit n :: rest => assemble (unitOctets n ++ done) rest
  | .octet b :: rest => assemble (b :: done) rest

/-- Reads the inside of a string up to the closing quotation mark, and gives its pieces, the last one first.
Control characters must be escaped. -/
def readPieces (done : List Piece) : List Char → Option (List Piece × List Char)
  | [] => none
  | '"' :: rest => some (done, rest)
  | '\\' :: 'u' :: a :: b :: c :: d :: rest => do
    let n ← hexUnit? a b c d
    readPieces (.unit n :: done) rest
  | '\\' :: c :: rest => do
    let meant ← simpleEscape? c
    readPieces (.ofChar meant :: done) rest
  | c :: rest => if c.toNat < 32 ∨ c = '\\' then none else readPieces (.ofChar c :: done) rest

/-- Reads the inside of a string up to the closing quotation mark. -/
def readText (chars : List Char) : Option (Option String × List Char) :=
  (readPieces [] chars).map fun p => (Octets.text? (assemble [] p.1), p.2)

/-- Whether a character separates tokens and means nothing. -/
def isBlank (c : Char) : Bool := c = ' ' || c = '\n' || c = '\t' || c = '\r'

/-- Reads one token from text that does not start with a blank. -/
def read : List Char → Option (Token × List Char)
  | '[' :: rest => some (.openArray, rest)
  | ']' :: rest => some (.closeArray, rest)
  | '\x7b' :: rest => some (.openObject, rest)
  | '\x7d' :: rest => some (.closeObject, rest)
  | ',' :: rest => some (.comma, rest)
  | ':' :: rest => some (.colon, rest)
  | 'n' :: 'u' :: 'l' :: 'l' :: rest => some (.scalar .null, rest)
  | 't' :: 'r' :: 'u' :: 'e' :: rest => some (.scalar (.bool true), rest)
  | 'f' :: 'a' :: 'l' :: 's' :: 'e' :: rest => some (.scalar (.bool false), rest)
  | '"' :: rest => (readText rest).map fun p => (.text p.1, p.2)
  | chars => (readNumeral chars).map fun p => (.scalar p.1, p.2)

/-- Splits a text into tokens. Every token takes at least one character, so the length of the text is
enough fuel. -/
def scanAux : Nat → List Char → Option (List Token)
  | 0, chars => if chars.isEmpty then some [] else none
  | fuel + 1, chars =>
    match chars with
    | [] => some []
    | c :: rest =>
      if isBlank c then scanAux fuel rest
      else do
        let (token, tail) ← read (c :: rest)
        return token :: (← scanAux fuel tail)

/-- The tokens of a text, or nothing when a part of it is none. -/
def scan (chars : List Char) : Option (List Token) := scanAux chars.length chars

end Token

end HubDevice.Json
