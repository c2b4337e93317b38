import HubDevice.Kernel.Recovery

/-!
# Opening the connection

Open calls that overlap share one attempt: whoever gets the gate first makes it, and the others return
its outcome, unless that was the first caller's own cancellation. A close that begins meanwhile ends
the attempt.
-/

namespace HubDevice.Kernel

/-- The outcome of an attempt that was completed since a call began, if it is to be shared. -/
def sharedOutcome (k : Kernel) (epoch : Nat) : Option (Except ClientError Unit) :=
  if k.epoch = epoch then none
  else match k.lastOpen with
    | some (.error .cancelled) => none
    | outcome => outcome

/-- The attempts that an open call makes. Each failure that is worth a retry is reported. -/
def openAction (k : Kernel) (token : Nat) : Retry.Action Kernel Recovery Unit :=
  recovery k.features (k.tokenFired token) fun k e => k.reportFailure e false

/-- One step of an open call. -/
def OpenPhase.step (token : Nat) (p : Party) (k : Kernel) :
    OpenPhase → Step Kernel OpenPhase (Except ClientError Unit)
  | .checkDisposed =>
    if k.disposed then some (k, .done (.error .disposed)) else some (k, .more .checkConnected)
  | .checkConnected =>
    if k.connected then some (k, .done (.ok ())) else some (k, .more .readEpoch)
  | .readEpoch => some (k, .more (.askGate k.epoch))
  | .askGate epoch =>
    if k.tokenFired token then some (k, .done (.error .cancelled))
    else some ({ k with gate := k.gate.request p }, .more (.awaitGate epoch))
  | .awaitGate epoch =>
    if k.tokenFired token then
      some ({ k with gate := k.gate.withdraw p }, .done (.error .cancelled))
    else if k.gate.heldBy p then some (k, .more (.recheckDisposed epoch))
    else none
  | .recheckDisposed epoch =>
    if k.disposed then some ({ k with gate := k.gate.release }, .done (.error .disposed))
    else some (k, .more (.consider epoch))
  | .consider epoch =>
    if k.link = .connected then some ({ k with gate := k.gate.release }, .done (.ok ()))
    else match k.sharedOutcome epoch with
      | some outcome => some ({ k with gate := k.gate.release }, .done outcome)
      | none => some (k, .more .begin)
  | .begin =>
    if k.lifetimeOver then some (k, .more (.conclude (.error .disposed)))
    else some (k, .more (.working (.ofPolicy (openAction k token) k.policy 0)))
  | .working run =>
    let x := openAction k token
    if k.lifetimeOver then some (run.abandon x k, .more (.conclude (.error .disposed)))
    else match run.step x (k.tokenFired token) k with
      | none => none
      | some (k, .more run) => some (k, .more (.working run))
      | some (k, .done (.ok ())) => some (k, .more .raiseLink)
      | some (k, .done (.error .disposed)) => some (k, .more (.conclude (.error .disposed)))
      | some (k, .done (.error e)) => some (k, .more (.reportDown e))
  | .raiseLink => some ({ k.setLink .connected with opened := true }, .more .startWatcher)
  | .startWatcher => some (k.spawnWatcher, .more .reportUp)
  | .reportUp => some (k.report .connected .connectionOk, .more (.conclude (.ok ())))
  | .reportDown e => some (k.reportFailure e true, .more (.conclude (.error e)))
  | .conclude outcome =>
    some ({ k with
        lastOpen := some outcome
        epoch := k.epoch + 1
        gate := k.gate.release },
      .done outcome)

end HubDevice.Kernel
