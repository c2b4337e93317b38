/-!
# Inboxes

A bounded queue between senders and one receiver. An item is accepted when there is room and the
receiver is still there; items leave in the order in which they were accepted.
-/

namespace HubDevice

/-- A bounded queue. -/
structure Inbox (α : Type) where
  capacity : Nat
  items : List α := []
  /-- Whether no sender is left. -/
  sendersGone : Bool := false
  receiverGone : Bool := false
  deriving Inhabited

namespace Inbox

variable {α : Type}

/-- Offers an item; the second part says whether it was accepted. -/
def offer (q : Inbox α) (a : α) : Inbox α × Bool :=
  if q.items.length < q.capacity ∧ q.receiverGone = false then ({ q with items := q.items ++ [a] }, true)
  else (q, false)

/-- Takes the next item, or nothing when there will be none; no result means to wait. -/
def take? (q : Inbox α) : Option (Inbox α × Option α) :=
  match q.items with
  | a :: rest => some ({ q with items := rest }, some a)
  | [] => if q.sendersGone then some (q, none) else none

def hangUp (q : Inbox α) : Inbox α := { q with sendersGone := true }

end Inbox

end HubDevice
