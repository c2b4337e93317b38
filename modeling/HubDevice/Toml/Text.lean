import HubDevice.Octets

/-!
# TOML text

Blanks, line ends, comments, keys and strings of a TOML document. Each reader takes what it reads from the
front of the text and returns the rest.
-/

namespace HubDevice.Toml

/-! ## Blanks and comments -/

/-- Skips blanks and tabs. -/
def skipBlanks (cs : List Char) : List Char := cs.dropWhile fun c => c = ' ' ∨ c = '\t'

/-- A line end: a line feed, or a carriage return and a line feed. -/
def lineEnd? : List Char → Option (List Char)
  | '\n' :: rest => some rest
  | '\r' :: '\n' :: rest => some rest
  | _ => none

/-- Whether a character may stand in a comment, or for itself in a string: not a control character. -/
def isPlain (c : Char) : Bool := c = '\t' || (c.toNat ≥ 32 && c.toNat ≠ 127)

/-- Skips a comment, up to the line end. -/
def skipComment : List Char → List Char
  | '#' :: rest => rest.dropWhile isPlain
  | cs => cs

/-- Skips what may stand after a statement: blanks, a comment, and the line end or the end of the text. -/
def endStatement? (cs : List Char) : Option (List Char) :=
  match skipComment (skipBlanks cs) with
  | [] => some []
  | cs => lineEnd? cs

/-- Skips blanks, comments and line ends; the number bounds the lines. -/
def skipLines : Nat → List Char → List Char
  | 0, cs => cs
  | fuel + 1, cs =>
    let cs' := skipComment (skipBlanks cs)
    match lineEnd? cs' with
    | some rest => skipLines fuel rest
    | none => cs'

/-! ## Strings -/

/-- The value of hexadecimal digits. -/
def hexValue? (digits : List Char) : Option Nat :=
  digits.foldlM (fun n c => (Octets.hexValue? c).map (16 * n + ·)) 0

/-- The character with a code point, unless there is none. -/
def scalar? (n : Nat) : Option Char := if h : n.isValidChar then some (Char.ofNatAux n h) else none

/-- Reads an escape sequence after its backslash. -/
def escape? : List Char → Option (Char × List Char)
  | 'b' :: rest => some ('\x08', rest)
  | 't' :: rest => some ('\t', rest)
  | 'n' :: rest => some ('\n', rest)
  | 'f' :: rest => some ('\x0c', rest)
  | 'r' :: rest => some ('\r', rest)
  | '"' :: rest => some ('"', rest)
  | '\\' :: rest => some ('\\', rest)
  | 'u' :: rest => code? 4 rest
  | 'U' :: rest => code? 8 rest
  | _ => none
where
  /-- Reads a code point of a number of digits. -/
  code? (n : Nat) (cs : List Char) : Option (Char × List Char) := do
    if cs.length < n then none
    else return (← scalar? (← hexValue? (cs.take n)), cs.drop n)

/-- Skips the blanks and line ends after a backslash at the end of a line. -/
def foldedLine? (cs : List Char) : Option (List Char) :=
  (lineEnd? (skipBlanks cs)).map skipMargin
where
  skipMargin : List Char → List Char
    | ' ' :: rest | '\t' :: rest | '\n' :: rest | '\r' :: '\n' :: rest => skipMargin rest
    | cs => cs

/-- Reads a basic string after its quotation mark; the number bounds its length. -/
def basic? : Nat → List Char → List Char → Option (String × List Char)
  | 0, _, _ => none
  | _ + 1, done, '"' :: rest => some (String.ofList done.reverse, rest)
  | fuel + 1, done, '\\' :: rest => do
    let (c, rest) ← escape? rest
    basic? fuel (c :: done) rest
  | fuel + 1, done, c :: rest => if isPlain c then basic? fuel (c :: done) rest else none
  | _ + 1, _, [] => none

/-- Reads a literal string after its apostrophe. -/
def literal? (cs : List Char) : Option (String × List Char) :=
  match cs.span fun c => isPlain c && c ≠ '\'' with
  | (s, '\'' :: rest) => some (String.ofList s, rest)
  | _ => none

/-- Counts the marks at the front, up to five. -/
def countMarks (mark : Char) (cs : List Char) : Nat := ((cs.take 5).takeWhile (· = mark)).length

/-- Reads a string of several lines up to its three marks; up to two more marks before them are its own.
`folds` says whether backslashes have a meaning. -/
def lines? (mark : Char) (folds : Bool) : Nat → List Char → List Char → Option (String × List Char)
  | 0, _, _ => none
  | _ + 1, _, [] => none
  | fuel + 1, done, c :: rest =>
    if c = mark then
      let n := countMarks mark (c :: rest)
      if 3 ≤ n then
        some (String.ofList (done.reverse ++ List.replicate (n - 3) mark), (c :: rest).drop n)
      else lines? mark folds fuel (List.replicate n mark ++ done) ((c :: rest).drop n)
    else match lineEnd? (c :: rest) with
      | some rest => lines? mark folds fuel ('\n' :: done) rest
      | none =>
        if c = '\\' ∧ folds then
          match foldedLine? rest with
          | some rest => lines? mark folds fuel done rest
          | none =>
            match escape? rest with
            | some (e, rest) => lines? mark folds fuel (e :: done) rest
            | none => none
        else if isPlain c then lines? mark folds fuel (c :: done) rest
        else none

/-- Skips a line end right after the opening marks. -/
def skipFirstLineEnd (cs : List Char) : List Char := (lineEnd? cs).getD cs

/-- Reads a string of any kind. -/
def string? : List Char → Option (String × List Char)
  | '"' :: '"' :: '"' :: rest => lines? '"' true (rest.length + 1) [] (skipFirstLineEnd rest)
  | '\'' :: '\'' :: '\'' :: rest => lines? '\'' false (rest.length + 1) [] (skipFirstLineEnd rest)
  | '"' :: rest => basic? (rest.length + 1) [] rest
  | '\'' :: rest => literal? rest
  | _ => none

/-! ## Keys -/

/-- Whether a character may stand in a key without quotation marks. -/
def isBare (c : Char) : Bool := c.isAlphanum || c = '_' || c = '-'

/-- Reads a key without dots. -/
def simpleKey? : List Char → Option (String × List Char)
  | '"' :: rest => basic? (rest.length + 1) [] rest
  | '\'' :: rest => literal? rest
  | cs =>
    match cs.span isBare with
    | ([], _) => none
    | (key, rest) => some (String.ofList key, rest)

/-- How many parts a key has at most, and how deep values nest at most. -/
def maxDepth : Nat := 79

/-- Reads a key, whose parts are separated by dots; blanks around the parts are skipped. -/
def key? : Nat → List Char → Option (List String × List Char)
  | 0, _ => none
  | fuel + 1, cs => do
    let (part, rest) ← simpleKey? (skipBlanks cs)
    match skipBlanks rest with
    | '.' :: rest =>
      let (parts, rest) ← key? fuel rest
      return (part :: parts, rest)
    | rest => return ([part], rest)

end HubDevice.Toml
