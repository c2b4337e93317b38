import HubDevice.Json.Token

/-!
# Reading JSON

`Json.document?` reads a document as a datum: object members stay in order and repetitions stay visible. What
cannot be read is still skipped where nobody asks for it: a numeral out of range, a string that spells no
text, and an array or object that is nested more than 127 deep. `Json.parse?` reads a value, in which nothing
of the kind may occur, and brings objects into canonical form.
-/

namespace HubDevice.Json

/-- An array or object that is still open, with what it holds so far in reverse. -/
inductive Frame where
  | items (done : List Datum)
  | members (done : List (Datum × Datum)) (key : Datum)

/-- How deep arrays and objects may nest to be read. -/
def maxDepth : Nat := 127

/-- The datum of a string. -/
def textDatum : Option String → Datum
  | some s => .text s
  | none => .foreign

/-- What a closed array or object is, inside the open ones: fewer than `maxDepth` of them. -/
def closed (stack : List Frame) (d : Datum) : Datum :=
  if (stack.drop (maxDepth - 1)).isEmpty then d else .foreign

mutual

/-- Reads a value in the innermost of the open frames. -/
def readValue (stack : List Frame) : List Token → Option Datum
  | .scalar d :: rest => afterValue stack d rest
  | .text s :: rest => afterValue stack (textDatum s) rest
  | .openArray :: .closeArray :: rest => afterValue stack (closed stack (.seq [])) rest
  | .openArray :: rest => readValue (.items [] :: stack) rest
  | .openObject :: .closeObject :: rest => afterValue stack (closed stack (.map [])) rest
  | .openObject :: .text k :: .colon :: rest => readValue (.members [] (textDatum k) :: stack) rest
  | _ => none

/-- Continues after a complete value: the document ends, or the frame goes on, or it closes. -/
def afterValue (stack : List Frame) (d : Datum) : List Token → Option Datum
  | [] => match stack with
    | [] => some d
    | _ :: _ => none
  | .comma :: .text k :: .colon :: rest => match stack with
    | .members done key :: below => readValue (.members ((key, d) :: done) (textDatum k) :: below) rest
    | _ => none
  | .comma :: rest => match stack with
    | .items done :: below => readValue (.items (d :: done) :: below) rest
    | _ => none
  | .closeArray :: rest => match stack with
    | .items done :: below => afterValue below (closed below (.seq (d :: done).reverse)) rest
    | _ => none
  | .closeObject :: rest => match stack with
    | .members done key :: below => afterValue below (closed below (.map ((key, d) :: done).reverse)) rest
    | _ => none
  | _ => none

end

/-- Reads a document as it is written. -/
def document? (bs : Octets) : Option Datum := do
  readValue [] (← Token.scan (bs.map fun b => Char.ofNat b.toNat))

/-- Reads a value. -/
def parse? (bs : Octets) : Option Json := do (← document? bs).value?

end HubDevice.Json
