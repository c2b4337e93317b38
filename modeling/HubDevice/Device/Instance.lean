import HubDevice.Codec
import HubDevice.Concurrent.Inbox
import HubDevice.Device.Drain
import HubDevice.Kernel.Threads

/-!
# A device

A device is a kernel with the stream of requests that its sessions receive, the settings of its
payloads, and the count of the sends that are in flight. Its operations contain operations of the
kernel, which they carry out themselves, step by step.
-/

namespace HubDevice

/-- What an operation of a device brings. -/
inductive DeviceReply where
  | reply (r : Reply)
  /-- The next request, or none when there will be none. -/
  | request (r : Option IncomingRequest)

namespace Device

/-- Where a tracked send stands. -/
inductive SendPhase where
  | enter
  | sending (task : Nat)
  | leaving (l : Drain.Leaving) (result : Except ClientError Reply)

/-- Where a wait for the next request stands. -/
inductive NextPhase where
  | askTurn
  | awaitTurn
  | receive
  deriving DecidableEq

/-- Where a shutdown stands. -/
inductive ShutdownPhase where
  | draining (w : Drain.Waiting)
  | closing (task : Nat)

/-- An operation of a device in progress. -/
inductive Task where
  | send (message : Message) (phase : SendPhase)
  | next (phase : NextPhase)
  | shutdown (phase : ShutdownPhase)
  | ended (result : Except ClientError DeviceReply)

/-- An operation and the token that cancels it. -/
structure Operating where
  token : Nat
  task : Task

end Device

/-- A device. -/
structure Device where
  kernel : Kernel := {}
  payload : Config.Payload := {}
  drain : Drain := {}
  requests : Inbox IncomingRequest := { capacity := 32 }
  /-- The right to receive requests, held by the number of an operation. -/
  turn : FairLock Nat := {}
  tasks : List Device.Operating := []
  deriving Inhabited

namespace Device

/-- The telemetry message of a datum, with a fresh id. -/
def telemetry [Compressors] (d : Device) (freshId : String) (value : Datum) : Except ClientError Message := do
  return { ← Codec.encode d.payload value with messageId := some freshId }

/-- One step of a tracked send. -/
def SendPhase.step (token : Nat) (m : Message) (d : Device) :
    SendPhase → Step Device SendPhase (Except ClientError Reply)
  | .enter =>
    let (kernel, task) := d.kernel.start token (.run (.one (.send m)))
    some ({ d with kernel, drain := d.drain.enter }, .more (.sending task))
  | .sending task =>
    match d.kernel.result? task with
    | some r => some (d, .more (.leaving .leave r))
    | none => (d.kernel.stepTask task).map fun kernel => ({ d with kernel }, .more (.sending task))
  | .leaving l r =>
    (l.step d.drain).map fun p => ({ d with drain := p.1 }, match p.2 with
      | .more l => .more (.leaving l r)
      | .done () => .done r)

/-- One step of a wait for the next request, by the operation with a number. -/
def NextPhase.step (token i : Nat) (d : Device) :
    NextPhase → Step Device NextPhase (Except ClientError (Option IncomingRequest))
  | .askTurn =>
    if d.kernel.tokenFired token then some (d, .done (.error .cancelled))
    else some ({ d with turn := d.turn.request i }, .more .awaitTurn)
  | .awaitTurn =>
    if d.kernel.tokenFired token then
      some ({ d with turn := d.turn.withdraw i }, .done (.error .cancelled))
    else if d.turn.heldBy i then some (d, .more .receive)
    else none
  | .receive =>
    if d.kernel.tokenFired token then
      some ({ d with turn := d.turn.release }, .done (.error .cancelled))
    else d.requests.take?.map fun p =>
      ({ d with requests := p.1, turn := d.turn.release }, .done (.ok p.2))

/-- One step of a shutdown. A token that fires gives up waiting for the sends, not the closing. -/
def ShutdownPhase.step (token : Nat) (d : Device) :
    ShutdownPhase → Step Device ShutdownPhase (Except ClientError Reply)
  | .draining w =>
    let close : Step Device ShutdownPhase (Except ClientError Reply) :=
      let (kernel, task) := d.kernel.start token .close
      some ({ d with kernel }, .more (.closing task))
    if d.kernel.tokenFired token then close
    else match w.step d.drain with
      | none => none
      | some (drain, .more w) => some ({ d with drain }, .more (.draining w))
      | some (_, .done ()) => close
  | .closing task =>
    match d.kernel.result? task with
    | some r => some (d, .done r)
    | none => (d.kernel.stepTask task).map fun kernel => ({ d with kernel }, .more (.closing task))

/-- Continues an operation. -/
def ofPart {α β : Type} (wrap : α → Task) (value : β → DeviceReply)
    (step : Step Device α (Except ClientError β)) : Option (Device × Task) :=
  step.map fun p => (p.1, match p.2 with
    | .more a => wrap a
    | .done r => .ended (r.map value))

/-- One step of the operation with a number. -/
def Task.step (token i : Nat) (d : Device) : Task → Option (Device × Task)
  | .send m phase => ofPart (.send m) .reply (phase.step token m d)
  | .next phase => ofPart .next .request (phase.step token i d)
  | .shutdown phase => ofPart .shutdown .reply (phase.step token d)
  | .ended _ => none

/-- Starts an operation; the result is its number. -/
def start (d : Device) (token : Nat) (task : Task) : Device × Nat :=
  ({ d with tasks := d.tasks ++ [⟨token, task⟩] }, d.tasks.length)

def startSend (d : Device) (token : Nat) (m : Message) : Device × Nat := d.start token (.send m .enter)

def startNext (d : Device) (token : Nat) : Device × Nat := d.start token (.next .askTurn)

def startShutdown (d : Device) (token : Nat) : Device × Nat :=
  d.start token (.shutdown (.draining .register))

/-- One step of the operation with a number. -/
def stepTask (d : Device) (i : Nat) : Option Device := do
  let o ← d.tasks[i]?
  let (d, task) ← o.task.step o.token i d
  return { d with tasks := d.tasks.set i { o with task } }

/-- The last user lets go of the device: nobody receives requests any more, and the client goes with it,
as soon as its watcher has ended. -/
def drop (d : Device) : Device :=
  let kernel := d.kernel.drop
  { d with
    kernel := if kernel.deserted then kernel.discard else kernel
    requests := { d.requests with receiverGone := true } }

/-- The result of an operation, once it has ended. -/
def result? (d : Device) (i : Nat) : Option (Except ClientError DeviceReply) :=
  match d.tasks[i]? with
  | some { task := .ended r, .. } => some r
  | _ => none

end Device

end HubDevice
