import HubDevice.Config.Files
import HubDevice.Text.Split

/-!
# Files of a rehearsal

A rehearsal has a tree of files and directories below its working directory. Of what lies outside, only a few places are
known that every system has.
-/

namespace HubDevice.Bench

open Config (Entry)

/-- The files below the working directory, by their paths. -/
structure Tree where
  entries : List (String × Entry) := []

namespace Tree

/-- The parts of a path between its slashes; there is always one. -/
def partsOf (path : String) : List String := (Text.parts '/' path.toList).map String.ofList

/-! ## Below the working directory -/

/-- The parts of a path: single dots and empty parts are skipped, and two dots step back. Nothing when
the path leads out of the tree. -/
def resolve : List String → List String → Option (List String)
  | _ :: back, ".." :: rest => resolve back rest
  | [], ".." :: _ => none
  | back, part :: rest => if part = "" ∨ part = "." then resolve back rest else resolve (part :: back) rest
  | back, [] => some back.reverse

/-- The entry with these parts; a directory may only show in the paths of what it contains. -/
def find? (tree : Tree) (parts : List String) : Option Entry :=
  if parts.isEmpty then some .directory
  else match tree.entries.find? fun e => resolve [] (partsOf e.1) = some parts with
    | some e => some e.2
    | none =>
      if tree.entries.any fun e => (resolve [] (partsOf e.1)).any fun p => parts.isPrefixOf p then
        some .directory
      else none

/-! ## Outside -/

/-- The directories below the root that every system has. -/
def systemDirectories : List String :=
  ["bin", "dev", "etc", "home", "lib", "media", "mnt", "opt", "proc", "root", "run", "sbin", "srv", "sys", "tmp",
    "usr", "var"]

/-- What is known to stand at a path from the root. -/
def systemEntry? : List String → Option Entry
  | [] => some .directory
  | [name] => if name ∈ systemDirectories then some .directory else none
  | ["dev", "null"] => some (.special [])
  | _ => none

/-! ## Paths -/

/-- A place that a path leads to. Names are those on the way, the last one first. -/
inductive Place where
  /-- Below the working directory. -/
  | inside (back : List String)
  /-- A directory above the working directory. -/
  | above
  /-- Below the root. -/
  | rooted (back : List String)

def entry? (tree : Tree) : Place → Option Entry
  | .inside back => tree.find? back.reverse
  | .above => some .directory
  | .rooted back => systemEntry? back.reverse

/-- The place that a part of a path leads to from a directory. What else is above the working directory is not
known. -/
def step? (part : String) (p : Place) : Option Place :=
  if part = "" ∨ part = "." then some p
  else if part = ".." then
    match p with
    | .inside [] | .above => some .above
    | .inside (_ :: back) => some (.inside back)
    | .rooted back => some (.rooted back.tail)
  else
    match p with
    | .inside back => some (.inside (part :: back))
    | .above => none
    | .rooted back => some (.rooted (part :: back))

/-- The place that the parts of a path lead to. All places on the way have to be directories. -/
def walk? (tree : Tree) (p : Place) : List String → Option Place
  | [] => some p
  | part :: rest => if tree.entry? p = some .directory then do tree.walk? (← step? part p) rest else none

/-- From this many octets on a path is too long to stand for anything. -/
def maxPath : Nat := 4096

/-- The file system with this tree in its working directory. -/
def files (tree : Tree) : Config.Files where
  entry? path :=
    if path = "" ∨ maxPath ≤ path.utf8ByteSize then none
    else do tree.entry? (← tree.walk? (if path.startsWith "/" then .rooted [] else .inside []) (partsOf path))

end Tree

end HubDevice.Bench
