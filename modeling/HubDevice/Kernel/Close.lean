import HubDevice.Kernel.State

/-!
# Closing the connection for good

The first close call ends the lifetime of everything in the background, takes the gate and releases
the transport; it returns only when the watcher has ended. Any later call returns at once.
-/

namespace HubDevice.Kernel

/-- Whether a watcher has ended. -/
def watcherEnded (k : Kernel) (i : Nat) : Bool :=
  match k.watchers[i]? with
  | some { phase := .ended _, .. } => true
  | none => true
  | _ => false

/-- One step of a close call. -/
def ClosePhase.step (p : Party) (k : Kernel) :
    ClosePhase → Step Kernel ClosePhase (Except ClientError Unit)
  | .dispose =>
    if k.disposed then some (k, .done (.ok ())) else some ({ k with disposed := true }, .more .endLifetime)
  | .endLifetime => some ({ k with lifetimeOver := true }, .more .askGate)
  | .askGate => some ({ k with gate := k.gate.request p }, .more .awaitGate)
  | .awaitGate => if k.gate.heldBy p then some (k, .more .lowerLink) else none
  | .lowerLink =>
    let k := k.setLink .closed
    if k.opened then some (k, .more (.releasing .start))
    else some ({ k with gate := k.gate.release }, .done (.ok ()))
  | .releasing c =>
    match k.liftHandler (c.step k.handler) with
    | none => none
    | some (k, .more c) => some (k, .more (.releasing c))
    | some (k, .done (.ok ())) => some ({ k with gate := k.gate.release }, .more .stopWatcher)
    | some (k, .done (.error _)) => some ({ k with gate := k.gate.release }, .more .reportTrouble)
  | .reportTrouble => some (k.report .disconnected .communicationError, .more .stopWatcher)
  | .stopWatcher =>
    match k.watcher with
    | none => some (k, .more .reportClosed)
    | some i => some (k.dismissWatcher, .more (.joinWatcher i))
  | .joinWatcher i => if k.watcherEnded i then some (k, .more .reportClosed) else none
  | .reportClosed => some (k.report .disabled .clientClosed, .done (.ok ()))

end HubDevice.Kernel
