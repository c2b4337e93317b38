import HubDevice.Concurrent.Progress
import HubDevice.Concurrent.Watched
import HubDevice.Status

/-!
# Readiness

Whether the device can publish, and if not, why. A follower keeps the readiness in step with the
connection status until the status is no longer written; whoever wants to publish waits for it.
-/

namespace HubDevice

/-- Whether the device can publish. -/
inductive Readiness where
  /-- No connection status was seen yet. -/
  | unknown
  | waiting (cause : String)
  | ready
  deriving DecidableEq, Repr, Inhabited

namespace Readiness

def isReady : Readiness → Bool
  | .ready => true
  | _ => false

/-- Why the device is waiting, if it is. -/
def cause? : Readiness → Option String
  | .waiting cause => some cause
  | _ => none

def display : Readiness → String
  | .unknown => "unknown"
  | .waiting cause => "waiting: " ++ cause
  | .ready => "ready"

/-- What a connection status means for publishing. -/
def ofStatus (s : Status) : Readiness :=
  match s.state with
  | .connected => .ready
  | .retrying => .waiting ("reconnecting (" ++ s.reason.name ++ ")")
  | .disconnected => .waiting ("disconnected (" ++ s.reason.name ++ ")")
  | .disabled => .waiting "client closed"

/-- A connection status and the readiness that follows it. -/
structure Following where
  status : Watched Status
  readiness : Watched Readiness

/-- Where a follower stands. -/
inductive Follower where
  | read
  /-- Has read a status and its version. -/
  | publish (status : Status) (seen : Nat)
  | parked (seen : Nat)
  | ended
  deriving DecidableEq

/-- One step of a follower. -/
def Follower.step (f : Following) : Follower → Option (Following × Follower)
  | .read => some (f, .publish f.status.value f.status.version)
  | .publish s seen => some ({ f with readiness := f.readiness.set (ofStatus s) }, .parked seen)
  | .parked seen =>
    match f.status.notice? seen with
    | some .changed => some (f, .read)
    | some .gone => some (f, .ended)
    | none => none
  | .ended => none

/-- Where a party that waits for readiness stands: before its first look, after a look at a version, or
at the end, with whether the device is ready. -/
inductive Waiting where
  | subscribe
  | look (last : Bool)
  | parked (seen : Nat)
  deriving DecidableEq, Repr

/-- One step of a wait. When the readiness is no longer written, a change not seen yet still counts. -/
def Waiting.step (r : Watched Readiness) : Waiting → Option (Progress Waiting Bool)
  | .subscribe => some (.more (.look false))
  | .look last =>
    if r.value.isReady then some (.done true)
    else if last then some (.done false)
    else some (.more (.parked r.version))
  | .parked seen =>
    match r.notice? seen with
    | some .changed => some (.more (.look false))
    | some .gone => some (.done false)
    | none => none

end Readiness

end HubDevice
