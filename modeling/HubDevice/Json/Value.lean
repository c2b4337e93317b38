import HubDevice.Number.Power

/-!
# JSON values

A JSON document as a value. An object keeps its members in the order they were written, with
repetitions; `Json.canonical` is the value that a sorted map would hold: the last member of a name
counts, and names are sorted by code point. Numbers are integers where the text spelled one in the
64-bit range, and doubles otherwise.
-/

namespace HubDevice

/-- A JSON value. -/
inductive Json where
  | null
  | bool (b : Bool)
  | int (n : Int)
  | float (x : Float)
  | str (s : String)
  | arr (items : List Json)
  | obj (members : List (String × Json))
  deriving Inhabited

namespace Json

/-- Puts a member into members sorted by name, in place of one of the same name. -/
def insertSorted {α : Type} (k : String) (v : α) : List (String × α) → List (String × α)
  | [] => [(k, v)]
  | (k', v') :: rest =>
    if k < k' then (k, v) :: (k', v') :: rest
    else if k = k' then (k, v) :: rest
    else (k', v') :: insertSorted k v rest

/-- Members sorted by name, the last of each name. -/
def sortMembers {α : Type} (members : List (String × α)) : List (String × α) :=
  let sorted := members.mergeSort (fun a b => a.1 ≤ b.1)
  dropShadowed sorted
where
  /-- Of neighbours with one name keeps the last. -/
  dropShadowed : List (String × α) → List (String × α)
    | [] => []
    | [m] => [m]
    | m :: m' :: rest => if m.1 = m'.1 then dropShadowed (m' :: rest) else m :: dropShadowed (m' :: rest)

mutual

/-- The value with the members of every object sorted and without repetitions. -/
def canonical : Json → Json
  | .arr items => .arr (canonicalItems items)
  | .obj members => .obj (sortMembers (canonicalMembers members))
  | v => v

/-- `canonical` on the items of an array. -/
def canonicalItems : List Json → List Json
  | [] => []
  | v :: rest => canonical v :: canonicalItems rest

/-- `canonical` on the values of members. -/
def canonicalMembers : List (String × Json) → List (String × Json)
  | [] => []
  | (k, v) :: rest => (k, canonical v) :: canonicalMembers rest

end

/-- The value of the last member with this name, of an object. -/
def get? (j : Json) (key : String) : Option Json :=
  match j with
  | .obj members => (members.reverse.find? fun m => m.1 = key).map (·.2)
  | _ => none

/-- The least integer a document can hold. -/
def minInt : Int := -2 ^ 63

/-- The greatest integer a document can hold. -/
def maxInt : Int := 2 ^ 64 - 1

end Json

end HubDevice
