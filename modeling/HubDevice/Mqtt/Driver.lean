import HubDevice.Mqtt.Failure
import HubDevice.Mqtt.Router

/-!
# Driving a connection

A session is driven by the events of its connection until the connection ends or the session is told to stop.
The driver answers whoever opened the session once: the connection was acknowledged, or it failed before
that. When it ends, the session is over.
-/

namespace HubDevice.Mqtt

/-- What happens on a connection. -/
inductive Event where
  | acknowledged (code : ReturnCode)
  | arrived (p : Publish)
  /-- The hub said goodbye. -/
  | dismissed
  /-- Our own goodbye was sent. -/
  | leftHub
  | other
  | failed (f : Failure)
  deriving DecidableEq

/-- What whoever opened a session hears. -/
inductive Acknowledgement where
  | awaited
  | given (outcome : Except TransportError Unit)
  /-- The driver ended and said nothing. -/
  | never

/-- Where a driver stands. -/
inductive Driving where
  /-- The session was not opened. -/
  | idle
  | running
  /-- The connection failed and the session is over; whoever opened it is to hear of it. -/
  | failing (e : TransportError)
  | ending (cause : CloseCause)
  | ended
  deriving DecidableEq

/-- A session. -/
structure Session where
  router : Router := {}
  driving : Driving := .idle
  /-- Whether the end of the driver can be waited for. Whoever does so is the only one. -/
  joinable : Bool := false
  /-- What has happened on the connection and was not looked at. -/
  events : List Event := []
  /-- Whether the driver has to stop. -/
  stop : Bool := false
  acknowledgement : Acknowledgement := .awaited
  /-- What is to be sent. -/
  outbox : List Outgoing := []

namespace Session

/-- Answers whoever opened the session, unless they have been answered. -/
def acknowledge (s : Session) (outcome : Except TransportError Unit) : Session :=
  match s.acknowledgement with
  | .awaited => { s with acknowledgement := .given outcome }
  | _ => s

/-- The session after its driver looked at an event. -/
def onEvent (x : Identity) (q : Queues) (s : Session) : Event → Session × Queues
  | .acknowledged .success => (s.acknowledge (.ok ()), q)
  | .acknowledged _ | .other => (s, q)
  | .arrived p =>
    let (router, q) := route x s.router q p
    ({ s with router }, q)
  | .dismissed => ({ s with driving := .ending (.remote "disconnected by hub") }, q)
  | .leftHub => ({ s with driving := .ending .closedLocally }, q)
  | .failed f =>
    let e := f.classify
    ({ s with router := s.router.close (.remote e.message), driving := .failing e }, q)

/-- One step of the driver. -/
def drive (x : Identity) (q : Queues) (s : Session) : Option (Session × Queues) :=
  match s.driving with
  | .idle | .ended => none
  | .running =>
    if s.stop then some ({ s with driving := .ending .closedLocally }, q)
    else match s.events with
      | [] => none
      | e :: rest => some (onEvent x q { s with events := rest } e)
  | .failing e => some ({ s.acknowledge (.error e) with driving := .ending .closedLocally }, q)
  | .ending cause =>
    some ({ s with
      router := s.router.close cause
      driving := .ended
      acknowledgement := match s.acknowledgement with
        | .awaited => .never
        | a => a
      outbox := [] }, q)

end Session

end HubDevice.Mqtt
