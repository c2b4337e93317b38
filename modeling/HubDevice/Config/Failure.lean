/-!
# What validation finds

A validated setting that is out of its bounds is one `Failure`: the dotted path of the setting, a code
for the kind of check, and the message of the check. The path of a check that spans several settings of
a section ends in `__all__`.
-/

namespace HubDevice.Config

/-- A setting that failed a check. -/
structure Failure where
  path : String
  code : String
  message : String
  deriving DecidableEq, Repr

namespace Failure

/-- The text of a failure. -/
def display (f : Failure) : String := f.path ++ ": " ++ f.message

/-- A failure of a section, as a failure of what contains the section. -/
def within (section_ : String) (f : Failure) : Failure := { f with path := section_ ++ "." ++ f.path }

def le (a b : Failure) : Bool :=
  if a.path = b.path then (if a.code = b.code then a.message ≤ b.message else a.code ≤ b.code)
  else a.path ≤ b.path

/-- Failures by path. -/
def sort (fs : List Failure) : List Failure := fs.mergeSort le

end Failure

/-- A failure unless a check holds. -/
def check (ok : Bool) (path code message : String) : List Failure :=
  if ok then [] else [⟨path, code, message⟩]

/-- The number of characters has to be in a range. -/
def checkLength (s : String) (least : Nat) (most : Option Nat) (path message : String) : List Failure :=
  check (least ≤ s.length && most.all fun m => s.length ≤ m) path "length" message

/-- A number has to be in a range. -/
def checkRange (n least most : Nat) (path message : String) : List Failure :=
  check (least ≤ n && n ≤ most) path "range" message

/-- The failures of a section: those of its settings, and when there are none, those of a check that
spans several of them. -/
def checkSection (settings : List Failure) (spanning : List Failure) : List Failure :=
  if settings.isEmpty then spanning else settings

end HubDevice.Config
