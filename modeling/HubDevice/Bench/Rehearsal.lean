import HubDevice.Bench.Stage

/-!
# Rehearsing on a stage

A rehearsal is a stage together with whose turn it is. An operation is started and either waited for, by
letting time pass until it has a result, or left to run in the background.
-/

namespace HubDevice.Bench

/-- What can be asked for on a stage. -/
inductive Ask where
  | kernel (request : Kernel.Request)
  | deviceSend (message : Message)
  | nextRequest
  | shutdown
  /-- On the session slot alone. -/
  | directOpen
  | directClose
  | directExchange (x : Exchange)
  | directToggle (on : Bool) (channel : Channel)

/-- An operation on a stage that was started. -/
inductive Handle where
  | task (n : Nat)
  | device (n : Nat)
  | direct (n : Nat)
  deriving DecidableEq

namespace Stage

/-- Starts an operation. -/
def begin (s : Stage) (token : Nat) : Ask → Stage × Handle
  | .kernel r =>
    let (k, n) := s.kernel.start token r
    ((s.withKernel k).enter (.task n), .task n)
  | .deviceSend m => ofDevice (s.agent.device.startSend token m)
  | .nextRequest => ofDevice (s.agent.device.startNext token)
  | .shutdown => ofDevice (s.agent.device.startShutdown token)
  | .directOpen => ofDirect (.opening token .start)
  | .directClose => ofDirect (.closing .start)
  | .directExchange x => ofDirect (.forwarding (.start x))
  | .directToggle on c => ofDirect (.subscribing (.start on c))
where
  ofDevice (started : Device × Nat) : Stage × Handle :=
    ({ s with agent := { s.agent with device := started.1 } }.enter (.device started.2), .device started.2)
  ofDirect (d : Direct) : Stage × Handle :=
    ({ s with direct := s.direct ++ [d] }.enter (.direct s.direct.length), .direct s.direct.length)

/-- The result of an operation, once it has ended. -/
def result? (s : Stage) : Handle → Option (Except ClientError DeviceReply)
  | .task n => (s.kernel.result? n).map fun r => r.map .reply
  | .device n => s.agent.device.result? n
  | .direct n =>
    match s.direct[n]? with
    | some (.ended r) => some (r.map .reply)
    | _ => none

end Stage

/-- A service of the agent that was started. -/
inductive Service where
  | server (n : Nat)
  | publisher (n : Nat)

def Service.name : Service → String
  | .server _ => "serve"
  | .publisher _ => "publish_loop"

namespace Stage

/-- Whether a service has ended. -/
def ended (s : Stage) : Service → Bool
  | .server n => !s.uses (.server n)
  | .publisher n => !s.uses (.publisher n)

/-- How a service that publishes has ended, with the number of readings that it has sent. -/
def sent? (s : Stage) : Service → Option (TaskEnd Nat)
  | .server _ => none
  | .publisher n => s.agent.publishers[n]?.bind fun x => x.loop.end?

end Stage

/-- A stage and whose turn it is. -/
structure Rehearsal where
  stage : Stage := {}
  turns : Turns := {}
  deriving Inhabited

namespace Rehearsal

/-- How many instants a rehearsal may wait for at a time. -/
def patience : Nat := 100000

def ofPair (p : Stage × Turns) : Rehearsal := ⟨p.1, p.2⟩

/-- Lets everything run that can. -/
def settle (r : Rehearsal) : Rehearsal := ofPair (Stage.system.settle r.stage.react r.turns)

/-- Changes the stage from outside, and lets everything run that can. -/
def change (r : Rehearsal) (f : Stage → Stage) : Rehearsal := settle { r with stage := f r.stage }

/-- Lets a number of milliseconds pass. -/
def advance (r : Rehearsal) (ms : Nat) : Rehearsal :=
  ofPair (Stage.system.advance patience (r.stage.now + min ms longestWait) r.stage r.turns)

/-- Lets time pass until something holds. -/
def waitFor (r : Rehearsal) (goal : Stage → Bool) : Rehearsal :=
  ofPair (Stage.system.runUntil goal patience r.stage r.turns)

/-- Starts an operation with a token that has fired already, or fires later. -/
def begin (r : Rehearsal) (cancelled : Bool) (after : Option Nat) (a : Ask) : Rehearsal × Handle :=
  let (stage, token) := r.stage.newToken cancelled after
  let (stage, handle) := stage.begin token a
  (settle { r with stage }, handle)

/-- Does an operation to its end. -/
def perform (r : Rehearsal) (cancelled : Bool) (after : Option Nat) (a : Ask) :
    Rehearsal × Option (Except ClientError DeviceReply) :=
  let (r, handle) := r.begin cancelled after a
  let r := r.waitFor fun s => (s.result? handle).isSome
  (r, r.stage.result? handle)

/-- Starts a server. -/
def serve (r : Rehearsal) : Rehearsal × Service :=
  let (agent, n) := r.stage.agent.serve Stage.serviceToken
  (settle { r with stage := { r.stage with agent }.enter (.server n) }, .server n)

/-- Starts a telemetry loop, and a follower that tells it about the connection. -/
def publish (r : Rehearsal) (simulator : Simulator) : Rehearsal × Service :=
  let (agent, f) := r.stage.agent.follow
  let (agent, n) := agent.publish Stage.serviceToken simulator
  (settle { r with stage := (({ r.stage with agent }).enter (.follower f)).enter (.publisher n) },
    .publisher n)

/-- Stops the services for good, also those that are started later, and waits for the end of some. -/
def stop (r : Rehearsal) (services : List Service) : Rehearsal :=
  (r.change fun st => st.withKernel (st.kernel.fire Stage.serviceToken)).waitFor
    fun st => services.all st.ended

end Rehearsal

end HubDevice.Bench
