import HubDevice.Concurrent.Progress
import HubDevice.Concurrent.Watched
import HubDevice.Session.Cause

/-!
# The notification that a session has ended

A session tells everybody who waits for its end why it ended. The notification is given at most once, and
whoever begins to wait later still gets it; a session that is let go of without it counts as lost.
-/

namespace HubDevice

/-- The notification that a session has ended, once it is given. -/
abbrev ClosedNotice := Watched (Option CloseCause)

namespace ClosedNotice

/-- A notification that was not given yet. -/
def pending : ClosedNotice := { value := none }

/-- A notification that was given elsewhere, and that nobody can give any more. -/
def given (cause : CloseCause) : ClosedNotice := { value := some cause, closed := true }

/-- Gives the notification; the second part says whether it was not given before. -/
def notify (n : ClosedNotice) (cause : CloseCause) : ClosedNotice × Bool :=
  match n.value with
  | some _ => (n, false)
  | none => (n.set (some cause), true)

/-- Whether the notification was given. -/
def isGiven (n : ClosedNotice) : Bool := n.value.isSome

/-- Whether the session has ended, as whoever waits sees it. -/
def isOver (n : ClosedNotice) : Bool := n.value.isSome || n.closed

/-- What counts when nobody gave the notification. -/
def letGo : CloseCause := .remote "session dropped"

/-- Where a party that waits for the notification stands. -/
inductive Waiting where
  | look
  | parked (seen : Nat)
  deriving DecidableEq, Repr

/-- One step of a wait. -/
def Waiting.step (n : ClosedNotice) : Waiting → Option (Progress Waiting CloseCause)
  | .look =>
    match n.value with
    | some cause => some (.done cause)
    | none => some (.more (.parked n.version))
  | .parked seen =>
    match n.notice? seen with
    | some .changed => some (.more .look)
    | some .gone => some (.done (n.value.getD letGo))
    | none => none

/-- What a wait brings that is let run until it has to wait, if it comes to its end. -/
def Waiting.outcome? (n : ClosedNotice) : Nat → Waiting → Waiting × Option CloseCause
  | 0, w => (w, none)
  | fuel + 1, w =>
    match w.step n with
    | none => (w, none)
    | some (.done cause) => (w, some cause)
    | some (.more w) => outcome? n fuel w

end ClosedNotice

end HubDevice
