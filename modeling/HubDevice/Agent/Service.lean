import HubDevice.Agent.Command
import HubDevice.Agent.Publishing
import HubDevice.Device.Instance

/-!
# The agent

The agent runs three things beside its device: a server that answers the requests of the cloud one
after another, a publisher of telemetry, and a follower that keeps readiness in step with the
connection. All of them share one telemetry interval.
-/

namespace HubDevice

namespace Agent

/-- Where the server stands. -/
inductive Serving where
  | fetch
  /-- Waits for the next request. -/
  | fetching (task : Nat)
  /-- Makes the call that a request leads to. -/
  | calling (task : Nat)
  | ended
  deriving DecidableEq

/-- A server and the token that stops it. -/
structure Server where
  token : Nat
  phase : Serving := .fetch

/-- A publishing loop, the token that stops it, and the send that it waits for. -/
structure Publisher where
  token : Nat
  loop : Publishing.Loop Simulator
  send : Option Nat := none

end Agent

/-- A device with everything that the agent runs beside it. -/
structure Agent where
  device : Device := {}
  interval : Interval := { value := .zero }
  readiness : Watched Readiness := { value := .unknown }
  /-- The id that the next telemetry message gets. -/
  freshId : String := ""
  servers : List Agent.Server := []
  publishers : List Agent.Publisher := []
  followers : List Readiness.Follower := []
  deriving Inhabited

namespace Agent

/-- The property of a telemetry message that says whether its reading raises an alert. -/
def alertProperty : String := "temperatureAlert"

/-- The message of a reading. -/
def readingMessage [Compressors] (a : Agent) (r : Reading) (alert : Bool) : Except ClientError Message := do
  return (← a.device.telemetry a.freshId r.toDatum).withProperty alertProperty
    (if alert then "true" else "false")

/-- One step of a server. A request that cannot be answered is passed over. -/
def Server.step (a : Agent) (s : Server) : Option (Agent × Server) :=
  match s.phase with
  | .fetch =>
    let (device, task) := a.device.startNext s.token
    some ({ a with device }, { s with phase := .fetching task })
  | .fetching task =>
    match a.device.result? task with
    | none => (a.device.stepTask task).map fun device => ({ a with device }, s)
    | some (.ok (.request (some r))) =>
      let reaction := Command.reaction r
      let a := { a with interval := reaction.apply a.interval }
      match reaction.call with
      | none => some (a, { s with phase := .fetch })
      | some call =>
        let (kernel, task) := a.device.kernel.start s.token (.run (.one call))
        some ({ a with device := { a.device with kernel } }, { s with phase := .calling task })
    | some _ => some (a, { s with phase := .ended })
  | .calling task =>
    match a.device.kernel.result? task with
    | none => (a.device.kernel.stepTask task).map fun kernel =>
        ({ a with device := { a.device with kernel } }, s)
    | some _ => some (a, { s with phase := .fetch })
  | .ended => none

/-- What a publishing loop sees. -/
def view (a : Agent) (token : Nat) : Publishing.View where
  cancelled := a.device.kernel.tokenFired token
  readiness := a.readiness
  interval := a.interval
  now := a.device.kernel.handler.now

/-- The result of a send, for the loop that waits for it. -/
def sendResult : Except ClientError DeviceReply → Except ClientError Unit
  | .ok _ => .ok ()
  | .error e => .error e

/-- One step of a publisher: it sends the reading that its loop has taken, or takes the loop further. -/
def Publisher.step [Compressors] (a : Agent) (p : Publisher) : Option (Agent × Publisher) :=
  match p.send, p.loop.phase with
  | some task, _ =>
    match a.device.result? task with
    | some r => some (a, { p with send := none, loop := p.loop.published (sendResult r) })
    | none => (a.device.stepTask task).map fun device => ({ a with device }, p)
  | none, .publishing r alert =>
    match a.readingMessage r alert with
    | .error e => some (a, { p with loop := p.loop.published (.error e) })
    | .ok m =>
      let (device, task) := a.device.startSend p.token m
      some ({ a with device }, { p with send := some task })
  | none, _ => (p.loop.step Simulator.draw? (a.view p.token)).map fun loop => (a, { p with loop })

def stepServer (a : Agent) (i : Nat) : Option Agent := do
  let s ← a.servers[i]?
  let (a, s) ← s.step a
  return { a with servers := a.servers.set i s }

def stepPublisher [Compressors] (a : Agent) (i : Nat) : Option Agent := do
  let p ← a.publishers[i]?
  let (a, p) ← p.step a
  return { a with publishers := a.publishers.set i p }

def stepFollower (a : Agent) (i : Nat) : Option Agent := do
  let f ← a.followers[i]?
  let (following, f) ← f.step ⟨a.device.kernel.status, a.readiness⟩
  return { a with readiness := following.readiness, followers := a.followers.set i f }

/-- Starts a server; the result is its number. -/
def serve (a : Agent) (token : Nat) : Agent × Nat :=
  ({ a with servers := a.servers ++ [{ token }] }, a.servers.length)

/-- Starts a publisher; the result is its number. -/
def publish (a : Agent) (token : Nat) (simulator : Simulator) : Agent × Nat :=
  ({ a with publishers := a.publishers ++ [{ token, loop := { simulator, seen := a.interval.version } }] },
    a.publishers.length)

/-- Starts a follower; the result is its number. -/
def follow (a : Agent) : Agent × Nat :=
  ({ a with followers := a.followers ++ [.read] }, a.followers.length)

end Agent

end HubDevice
