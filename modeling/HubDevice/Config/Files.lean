import HubDevice.Octets

/-!
# Files that settings refer to

A file system as far as settings can look at it: whether a path exists, whether it is a file, and what can be read
there. A path may lead anywhere, from the root or from the working directory.
-/

namespace HubDevice.Config

/-- What stands at a path. -/
inductive Entry where
  | file (content : Octets)
  | directory
  /-- A device, or whatever else can be read and is no file. -/
  | special (content : Octets)
  deriving DecidableEq

/-- What stands at each path, be it absolute or relative to the working directory. -/
structure Files where
  entry? : String → Option Entry

/-- Nothing stands anywhere. -/
instance : EmptyCollection Files := ⟨⟨fun _ => none⟩⟩

instance : Inhabited Files := ⟨∅⟩

namespace Files

def «exists» (fs : Files) (path : String) : Bool := (fs.entry? path).isSome

def isFile (fs : Files) (path : String) : Bool :=
  match fs.entry? path with
  | some (.file _) => true
  | _ => false

/-- What can be read at a path. -/
def read? (fs : Files) (path : String) : Option Octets :=
  match fs.entry? path with
  | some (.file content) | some (.special content) => some content
  | _ => none

end Files

end HubDevice.Config
