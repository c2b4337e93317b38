import HubDevice.Data.Datum

/-!
# Sample values

Values of the kinds that applications send beside readings: a record with a setting that may be missing, and
a map whose keys are pairs of numbers.
-/

namespace HubDevice.Bench

/-- A record with a field of each kind. -/
structure Sample where
  name : String
  count : Nat
  ratio : Option Float
  tags : List String

namespace Sample

def toDatum (x : Sample) : Datum :=
  .record [("name", .text x.name), ("count", .int x.count),
    ("ratio", match x.ratio with
      | none => .null
      | some r => .float r),
    ("tags", .seq (x.tags.map .text))]

def ofDatum? (d : Datum) : Option Sample := do
  let fs ← d.fields? ["name", "count", "ratio", "tags"]
  return {
    name := ← fs.required "name" Datum.text?
    count := ← fs.required "count" (Datum.natBelow? (2 ^ 32))
    ratio := ← fs.optional "ratio" Datum.float?
    tags := ← fs.required "tags" fun d => do (← d.items?).mapM Datum.text? }

end Sample

/-- Numbers by pairs of numbers, in the order of the pairs. -/
abbrev PairMap := List ((Int × Int) × Int)

namespace PairMap

/-- Sets the number of a pair. -/
def insert (key : Int × Int) (n : Int) : PairMap → PairMap
  | [] => [(key, n)]
  | (k, m) :: rest =>
    if k = key then (key, n) :: rest
    else if key.1 < k.1 ∨ (key.1 = k.1 ∧ key.2 < k.2) then (key, n) :: (k, m) :: rest
    else (k, m) :: insert key n rest

def toDatum (x : PairMap) : Datum :=
  .map (x.map fun p => (.seq [.int p.1.1, .int p.1.2], .int p.2))

/-- Reads rows of a pair and its number. -/
def ofDatum? (d : Datum) : Option PairMap := do
  let rows ← (← d.items?).mapM fun row =>
    match row with
    | .seq [.seq [.int a, .int b], .int n] => some ((a, b), n)
    | _ => none
  return rows.foldl (fun x row => insert row.1 row.2 x) []

end PairMap

end HubDevice.Bench
