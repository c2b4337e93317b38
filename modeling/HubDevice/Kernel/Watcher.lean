import HubDevice.Kernel.Recovery

/-!
# Restoring a lost connection

A watcher waits for its session to end. Unless the client was closed meanwhile it takes the gate and
keeps it until the connection is up again, with a new watcher, or given up.
-/

namespace HubDevice.Kernel

/-- Why the session of a watcher ended. -/
def watchedCause (k : Kernel) (w : Watcher) : Option CloseCause :=
  match w.session with
  | none => some .closedLocally
  | some s => k.handler.wire.cause? s

/-- The attempts that a watcher makes. -/
def watcherAction (k : Kernel) (w : Watcher) : Retry.Action Kernel Recovery Unit :=
  recovery k.features (k.watcherStopped w) fun k _ => k

/-- The failure that starts a recovery. -/
def lossError (cause : CloseCause) : ClientError :=
  .transport (.network ("transport closed: " ++ cause.display))

/-- Ends a watcher that holds the gate. -/
def endHolding (k : Kernel) (exit : WatcherExit) : Kernel × WatchPhase :=
  ({ k with gate := k.gate.release }, .ended exit)

/-- One step of a watcher, which is the party `p`. -/
def WatchPhase.step (p : Party) (k : Kernel) (w : Watcher) :
    WatchPhase → Option (Kernel × WatchPhase)
  | .watching =>
    if k.watcherStopped w then some (k, .ended .closedByClient)
    else (k.watchedCause w).map fun cause => (k, .askGate cause)
  | .askGate cause =>
    if k.watcherStopped w then some (k, .ended .closedByClient)
    else some ({ k with gate := k.gate.request p }, .awaitGate cause)
  | .awaitGate cause =>
    if k.watcherStopped w then some ({ k with gate := k.gate.withdraw p }, .ended .closedByClient)
    else if k.gate.heldBy p then some (k, .lowerLink cause)
    else none
  | .lowerLink cause =>
    if k.link = .closed then some (k.endHolding .closedByClient)
    else some (k.setLink .reconnecting, .decide cause)
  | .decide cause =>
    match k.policy.decide 0 (lossError cause) with
    | .stop => some (k.setLink .lost, .giveUp)
    | .retry delay => some (k, .announce k.policy delay)
  | .giveUp => some ((k.report .disconnected .retryExpired).endHolding .retryExpired)
  | .announce policy delay =>
    let k := k.report .retrying .communicationError
    if delay.isZero then some (k, .recovering (.ofPolicy (watcherAction k w) policy 1))
    else some (k, .pausing policy (delay.deadline k.handler.now))
  | .pausing policy deadline =>
    if k.watcherStopped w then some (k.endHolding .closedByClient)
    else if deadline ≤ k.handler.now then
      some (k, .recovering (.ofPolicy (watcherAction k w) policy 1))
    else none
  | .recovering run =>
    match run.step (watcherAction k w) (k.watcherStopped w) k with
    | none => none
    | some (k, .more run) => some (k, .recovering run)
    | some (k, .done (.ok ())) =>
      if k.watcherStopped w then some (k.endHolding .closedByClient) else some (k, .raiseLink)
    | some (k, .done (.error .cancelled)) => some (k.endHolding .closedByClient)
    | some (k, .done (.error e)) => some (k.setLink .lost, .reportDown e)
  | .raiseLink => some (k.setLink .connected, .startWatcher)
  | .startWatcher => some (k.spawnWatcher, .reportUp)
  | .reportUp => some ((k.report .connected .connectionOk).endHolding .recovered)
  | .reportDown e => some ((k.reportFailure e true).endHolding .failed)
  | .ended _ => none

end HubDevice.Kernel
