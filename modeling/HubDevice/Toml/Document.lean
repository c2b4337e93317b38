import HubDevice.Data.Datum
import HubDevice.Toml.Scalar

/-!
# TOML documents

A document is a tree of tables that its statements fill one after another. A table says how it came about,
because that decides what may be added to it: a table with a header of its own cannot have a second one, a
table made by dotted keys grows by dotted keys only, and an inline table not at all.
-/

namespace HubDevice.Toml

/-- How a table came about. -/
inductive Origin where
  /-- On the way to a header below it. -/
  | implied
  | header
  | dotted
  deriving DecidableEq

/-- What stands at a key while a document is read. -/
inductive Node where
  | value (d : Datum)
  | table (origin : Origin) (entries : List (String × Node))
  /-- Tables with the same header, the newest one first. -/
  | tables (newest : List (String × Node)) (older : List Datum)

abbrev Entries := List (String × Node)

/-! ## The value of a tree -/

/-- The datum of the entries of a table. An empty table also stands for nothing, and is an empty record. -/
def tableDatum (entries : List (Datum × Datum)) : Datum :=
  match entries with
  | [] => .record []
  | entries => .map entries

/-- The datum of the items of an array, of which a record may leave the end. An empty array also stands for
nothing, and is an empty record. -/
def arrayDatum (items : List Datum) : Datum :=
  match items with
  | [] => .record []
  | items => .list items

mutual

def Node.datum : Node → Datum
  | .value d => d
  | .table _ entries => tableDatum (entriesData entries)
  | .tables newest older => .list ((tableDatum (entriesData newest) :: older).reverse)

def entriesData : List (String × Node) → List (Datum × Datum)
  | [] => []
  | (k, n) :: rest => (.text k, n.datum) :: entriesData rest

end

/-! ## Filling a tree -/

/-- Changes what stands at a key, or adds it. -/
def update (key : String) (f : Option Node → Option Node) : Entries → Option Entries
  | [] => (f none).map fun n => [(key, n)]
  | (k, n) :: rest =>
    if k = key then (f (some n)).map fun n => (k, n) :: rest
    else (update key f rest).map ((k, n) :: ·)

/-- Adds a value at a key. A dotted key adds only to tables that dotted keys made. -/
def put (d : Datum) : List String → Entries → Option Entries
  | [], _ => none
  | [key], entries => update key (fun n => match n with
      | none => some (.value d)
      | some _ => none) entries
  | key :: path, entries => update key (fun n => match n with
      | none => (put d path []).map (.table .dotted)
      | some (.table o below) =>
        if o = .header ∨ (path.length = 1 ∧ o ≠ .dotted) then none
        else (put d path below).map (.table o)
      | some (.tables newest older) =>
        if path.length = 1 then none else (put d path newest).map (.tables · older)
      | some (.value _) => none) entries

/-- Does something to the table at a path of headers, adding implied tables on the way. -/
def within (f : Entries → Option Entries) : List String → Entries → Option Entries
  | [], entries => f entries
  | key :: path, entries => update key (fun n => match n with
      | none => (within f path []).map (.table .implied)
      | some (.table o below) => (within f path below).map (.table o)
      | some (.tables newest older) => (within f path newest).map (.tables · older)
      | some (.value _) => none) entries

/-- Opens the table of a header. -/
def openTable (path : List String) (key : String) : Entries → Option Entries :=
  within (update key fun n => match n with
    | none => some (.table .header [])
    | some (.table .implied below) => some (.table .header below)
    | some _ => none) path

/-- Opens one more table of a header that stands for several. -/
def openNext (path : List String) (key : String) : Entries → Option Entries :=
  within (update key fun n => match n with
    | none => some (.tables [] [])
    | some (.tables newest older) => some (.tables [] (tableDatum (entriesData newest) :: older))
    | some _ => none) path

/-! ## Values -/

/-- Reads the items of an array after its bracket; the number bounds their count and the lines between them. -/
def items? (value? : List Char → Option (Datum × List Char)) :
    Nat → List Char → Option (List Datum × List Char)
  | 0, _ => none
  | fuel + 1, cs =>
    match skipLines fuel cs with
    | ']' :: rest => some ([], rest)
    | cs => do
      let (d, rest) ← value? cs
      match skipLines fuel rest with
      | ',' :: rest =>
        let (ds, rest) ← items? value? fuel rest
        return (d :: ds, rest)
      | ']' :: rest => return ([d], rest)
      | _ => none

/-- Reads a key, an equals sign and a value. -/
def pair? (value? : List Char → Option (Datum × List Char)) (cs : List Char) :
    Option ((List String × Datum) × List Char) := do
  let (path, rest) ← key? maxDepth cs
  let rest ← char? '=' rest
  let (d, rest) ← value? (skipBlanks rest)
  return ((path, d), rest)

/-- Reads the further pairs of an inline table; the number bounds their count. -/
def pairs? (value? : List Char → Option (Datum × List Char)) :
    Nat → Entries → List Char → Option (Entries × List Char)
  | 0, _, _ => none
  | fuel + 1, entries, cs => do
    let ((path, d), rest) ← pair? value? cs
    let entries ← put d path entries
    match skipBlanks rest with
    | ',' :: rest => pairs? value? fuel entries rest
    | '\x7d' :: rest => return (entries, rest)
    | _ => none

/-- Reads a value whose parts nest at most so deep. -/
def value? : Nat → List Char → Option (Datum × List Char)
  | 0, _ => none
  | _ + 1, '"' :: rest => (string? ('"' :: rest)).map fun p => (.text p.1, p.2)
  | _ + 1, '\'' :: rest => (string? ('\'' :: rest)).map fun p => (.text p.1, p.2)
  | depth + 1, '[' :: rest =>
    if depth = 0 then none
    else (items? (value? depth) (rest.length + 1) rest).map fun p => (arrayDatum p.1, p.2)
  | depth + 1, '\x7b' :: rest =>
    if depth = 0 then none
    else match skipBlanks rest with
      | '\x7d' :: rest => some (tableDatum [], rest)
      | _ => (pairs? (value? depth) (rest.length + 1) [] rest).map fun p =>
          (tableDatum (entriesData p.1), p.2)
  | _ + 1, cs => (scalar cs).map fun p => (match p.1 with
      | .int n => .int n
      | .float x => .float x
      | .bool b => .bool b
      | .moment => .map [(.text "moment", .foreign)], p.2)

/-! ## Statements -/

/-- Reads the rest of a header after its brackets. -/
def header? (several : Bool) (entries : Entries) (cs : List Char) :
    Option (Entries × List String × List Char) := do
  let (path, rest) ← key? maxDepth cs
  let rest ← char? ']' rest
  let rest ← if several then char? ']' rest else some rest
  let rest ← endStatement? rest
  let key ← path.getLast?
  let entries ← if several then openNext path.dropLast key entries else openTable path.dropLast key entries
  return (entries, path, rest)

/-- Reads the statements of a document; the number bounds their count. `table` is the path of the last
header. -/
def statements? : Nat → List String → Entries → List Char → Option Entries
  | 0, _, _, _ => none
  | fuel + 1, table, entries, cs =>
    match skipBlanks cs with
    | [] => some entries
    | '#' :: rest => do statements? fuel table entries (← endStatement? ('#' :: rest))
    | '\n' :: rest => statements? fuel table entries rest
    | '\r' :: rest => do statements? fuel table entries (← lineEnd? ('\r' :: rest))
    | '[' :: '[' :: rest => do
      let (entries, table, rest) ← header? true entries rest
      statements? fuel table entries rest
    | '[' :: rest => do
      let (entries, table, rest) ← header? false entries rest
      statements? fuel table entries rest
    | cs => do
      let ((path, d), rest) ← pair? (value? (maxDepth + 1)) cs
      let entries ← within (put d path) table entries
      statements? fuel table entries (← endStatement? rest)

/-- The datum of a document, which a byte order mark may precede. -/
def parse? (text : String) : Option Datum :=
  let cs := match text.toList with
    | '\uFEFF' :: rest => rest
    | cs => cs
  (statements? (cs.length + 1) [] [] cs).map fun entries => tableDatum (entriesData entries)

end HubDevice.Toml
