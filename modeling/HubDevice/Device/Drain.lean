import HubDevice.Concurrent.Progress

/-!
# Waiting for sends to finish

`Drain` counts the sends in flight. Whoever waits for them to finish notes how many notices were given
before looking at the counter, so that a notice given after the look is not missed.
-/

namespace HubDevice

/-- The sends in flight. -/
structure Drain where
  inflight : Nat := 0
  /-- How often waiting parties were given notice. -/
  notices : Nat := 0
  deriving DecidableEq, Repr, Inhabited

namespace Drain

def enter (d : Drain) : Drain := { d with inflight := d.inflight + 1 }

/-- Where a send that has finished stands: the counter goes down first, and the last send to finish
then gives notice. -/
inductive Leaving where
  | leave
  | notify
  deriving DecidableEq, Repr

def Leaving.step (d : Drain) : Leaving → Step Drain Leaving Unit
  | .leave =>
    let d' := { d with inflight := d.inflight - 1 }
    some (d', if d.inflight = 1 then .more .notify else .done ())
  | .notify => some ({ d with notices := d.notices + 1 }, .done ())

/-- Where a party that waits for the sends stands. -/
inductive Waiting where
  | register
  | look (notices : Nat)
  | parked (notices : Nat)
  deriving DecidableEq, Repr

def Waiting.step (d : Drain) : Waiting → Step Drain Waiting Unit
  | .register => some (d, .more (.look d.notices))
  | .look n => if d.inflight = 0 then some (d, .done ()) else some (d, .more (.parked n))
  | .parked n => if d.notices ≠ n then some (d, .more .register) else none

end Drain

end HubDevice
