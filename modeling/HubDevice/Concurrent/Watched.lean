/-!
# Watched values

A value with a version number that grows with every change. Whoever watches it remembers the version
seen last: there is something new when the versions differ, however many changes came between. The
writer may go away; a change that was not seen yet is delivered before that is.
-/

namespace HubDevice

/-- A value that can be watched. -/
structure Watched (α : Type) where
  value : α
  version : Nat := 0
  /-- Whether the writer has gone away. -/
  closed : Bool := false
  deriving Inhabited

namespace Watched

variable {α : Type}

/-- Replaces the value; every watcher sees a change, even to an equal value. -/
def set (w : Watched α) (a : α) : Watched α := { w with value := a, version := w.version + 1 }

def close (w : Watched α) : Watched α := { w with closed := true }

/-- What a watcher that has seen a version finds. -/
inductive Notice where
  | changed
  | gone
  deriving DecidableEq

/-- What a watcher that has seen a version finds, if it need not wait. -/
def notice? (w : Watched α) (seen : Nat) : Option Notice :=
  if w.version ≠ seen then some .changed
  else if w.closed then some .gone
  else none

end Watched

end HubDevice
