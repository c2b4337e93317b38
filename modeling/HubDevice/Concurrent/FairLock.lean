/-!
# Fair locks

A lock that is handed from party to party in the order in which they asked for it. A party that asks
while the lock is held waits in the queue; releasing the lock makes the first waiting party its
holder.
-/

namespace HubDevice

/-- A lock, who holds it and who waits for it. -/
structure FairLock (α : Type) where
  holder : Option α := none
  queue : List α := []
  deriving Inhabited

namespace FairLock

variable {α : Type} [DecidableEq α]

/-- Whether nobody holds the lock. -/
def isFree (l : FairLock α) : Bool := l.holder.isNone

/-- Whether a party holds the lock. -/
def heldBy (l : FairLock α) (p : α) : Bool := l.holder == some p

/-- Asks for the lock: takes it when it is free, else waits for it. -/
def request (l : FairLock α) (p : α) : FairLock α :=
  match l.holder with
  | none => { l with holder := some p }
  | some _ => { l with queue := l.queue ++ [p] }

/-- Hands the lock to the first waiting party. -/
def release (l : FairLock α) : FairLock α :=
  match l.queue with
  | [] => { holder := none, queue := [] }
  | p :: rest => { holder := some p, queue := rest }

/-- A party that holds the lock or waits for it does so no longer. -/
def withdraw (l : FairLock α) (p : α) : FairLock α :=
  if l.heldBy p then l.release else { l with queue := l.queue.erase p }

omit [DecidableEq α] in
@[simp] theorem isFree_iff {l : FairLock α} : l.isFree = true ↔ l.holder = none := by
  simp [isFree]

@[simp] theorem heldBy_iff {l : FairLock α} {p : α} : l.heldBy p = true ↔ l.holder = some p := by
  simp [heldBy]

end FairLock

end HubDevice
