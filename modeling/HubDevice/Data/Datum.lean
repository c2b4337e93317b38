import HubDevice.Json.Value
import HubDevice.Number.Binary64
import HubDevice.Octets

/-!
# Structured data

`Datum` is what a payload says, whatever format it is written in: the JSON values, octet strings, maps
with any keys, and records, whose fields have a fixed order and whose names a format may leave out.
Formats differ in what else null and octet strings can be read as, and in whether a record that is written
as a sequence has to take all of it; such differences are different data here.
-/

namespace HubDevice

/-- A structured datum. -/
inductive Datum where
  | null
  /-- No value, which also stands for no members. -/
  | unit
  /-- As `unit`, but not in the form in which a setting is left out. -/
  | undefined
  | bool (b : Bool)
  | int (n : Int)
  | float (x : Float)
  | text (s : String)
  /-- Octets, which may spell a text. -/
  | bytes (bs : Octets)
  /-- Octets, which may spell a text or be a sequence of numbers. -/
  | numbers (bs : Octets)
  | seq (items : List Datum)
  /-- A sequence of which a record may leave the end. -/
  | list (items : List Datum)
  | map (entries : List (Datum × Datum))
  | record (fields : List (String × Datum))
  /-- Something that has no counterpart here; it can be skipped but not read. -/
  | foreign
  deriving Inhabited

namespace Datum

/-! ## JSON values -/

mutual

/-- The datum of a JSON value. -/
def ofJson : Json → Datum
  | .null => .null
  | .bool b => .bool b
  | .int n => .int n
  | .float x => .float x
  | .str s => .text s
  | .arr items => .seq (ofJsonItems items)
  | .obj members => .map (ofJsonMembers members)

def ofJsonItems : List Json → List Datum
  | [] => []
  | v :: rest => ofJson v :: ofJsonItems rest

def ofJsonMembers : List (String × Json) → List (Datum × Datum)
  | [] => []
  | (k, v) :: rest => (.text k, ofJson v) :: ofJsonMembers rest

end

/-- A text, which may be written as its UTF-8 octets. -/
def text? : Datum → Option String
  | .text s => some s
  | .bytes bs | .numbers bs => Octets.text? bs
  | _ => none

mutual

/-- A JSON value with the same meaning, where there is one; a double that is not finite is null. The first key
of a map has to be a text, since it tells that the map is an object, while the others may be written as
octets. -/
def toJson? : Datum → Option Json
  | .null | .unit | .undefined => some .null
  | .bool b => some (.bool b)
  | .int n => some (.int n)
  | .float x => some (if finiteFloat x then .float x else .null)
  | .text s => some (.str s)
  | .seq items | .list items => (toJsonItems? items).map .arr
  | .map [] => some (.obj [])
  | .map ((.text k, d) :: rest) => do
    return .obj ((k, ← toJson? d) :: (← toJsonMembers? rest))
  | .map _ => none
  | .record fields => (toJsonFields? fields).map .obj
  | .bytes _ | .numbers _ | .foreign => none

def toJsonItems? : List Datum → Option (List Json)
  | [] => some []
  | d :: rest => do return (← toJson? d) :: (← toJsonItems? rest)

def toJsonMembers? : List (Datum × Datum) → Option (List (String × Json))
  | [] => some []
  | (k, d) :: rest => do return (← text? k, ← toJson? d) :: (← toJsonMembers? rest)

def toJsonFields? : List (String × Datum) → Option (List (String × Json))
  | [] => some []
  | (k, d) :: rest => do return (k, ← toJson? d) :: (← toJsonFields? rest)

end

/-- The JSON value that a datum stands for, with the members of objects sorted. -/
def value? (d : Datum) : Option Json := d.toJson?.map Json.canonical

/-! ## Reading typed values -/

/-- An unsigned integer below a bound. -/
def natBelow? (bound : Nat) : Datum → Option Nat
  | .int n => if 0 ≤ n ∧ n < bound then some n.toNat else none
  | _ => none

/-- The double nearest to an integer of at most 64 bits. -/
def floatOfInt (n : Int) : Float :=
  if n < 0 then -(UInt64.ofNat n.natAbs).toFloat else (UInt64.ofNat n.natAbs).toFloat

/-- A double; an integer counts as one. -/
def float? : Datum → Option Float
  | .float x => some x
  | .int n => some (floatOfInt n)
  | _ => none

def bool? : Datum → Option Bool
  | .bool b => some b
  | _ => none

/-- The numbers that octets are. -/
def ofOctets (bs : Octets) : List Datum := bs.map fun b => .int b.toNat

/-- The items of a sequence. -/
def items? : Datum → Option (List Datum)
  | .seq items | .list items => some items
  | .numbers bs => some (ofOctets bs)
  | _ => none

/-- What null stands for, or the value of anything else. -/
def orNull {α : Type} (read : Datum → Option α) : Datum → Option (Option α)
  | .null | .unit => some none
  | d => (read d).map some

/-- The members of an object that is read as such: any key may be written as its octets. -/
def members? : Datum → Option (List (String × Json))
  | .map entries => toJsonMembers? entries
  | .record fields => toJsonFields? fields
  | .unit | .undefined => some []
  | _ => none

/-- The fields of a record as they were found. -/
structure Fields where
  /-- Whether the fields were written in order without names. -/
  positional : Bool
  found : List (String × Datum)

/-- The name of the field that a key stands for: a text, its octets, or the number of a field. -/
def fieldName? (names : List String) : Datum → Option (Option String)
  | .text s => some (some s)
  | .bytes bs | .numbers bs => some (Octets.text? bs)
  | .int n => if 0 ≤ n then some names[n.toNat]? else none
  | _ => none

/-- Collects the known fields of a map. An unknown key is skipped, a repeated field is refused. -/
def collect (names : List String) : List (Datum × Datum) → List (String × Datum) →
    Option (List (String × Datum))
  | [], found => some found
  | (k, d) :: rest, found => do
    match ← fieldName? names k with
    | some name =>
      if name ∈ names then
        if found.any fun p => p.1 = name then none else collect names rest ((name, d) :: found)
      else collect names rest found
    | none => collect names rest found

/-- The fields of a record with the given names. -/
def fields? (names : List String) : Datum → Option Fields
  | .seq items =>
    if items.length ≤ names.length then some ⟨true, names.zip items⟩ else none
  | .list items => some ⟨true, names.zip items⟩
  | .numbers bs => some ⟨true, names.zip (ofOctets bs)⟩
  | .map entries => (collect names entries []).map fun found => ⟨false, found⟩
  | .record fields => some ⟨false, fields⟩
  | _ => none

namespace Fields

def find? (fs : Fields) (name : String) : Option Datum :=
  (fs.found.find? fun p => p.1 = name).map (·.2)

/-- A field that must be there. -/
def required {α : Type} (fs : Fields) (name : String) (read : Datum → Option α) : Option α := do
  read (← fs.find? name)

/-- A field that may be null, and missing where fields have names. -/
def optional {α : Type} (fs : Fields) (name : String) (read : Datum → Option α) :
    Option (Option α) :=
  match fs.find? name with
  | some d => orNull read d
  | none => if fs.positional then none else some none

/-- A field with a default. -/
def defaulted {α : Type} (fs : Fields) (name : String) (default : α) (read : Datum → Option α) :
    Option α :=
  match fs.find? name with
  | some d => read d
  | none => some default

end Fields

end Datum

end HubDevice
