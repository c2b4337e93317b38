import HubDevice.Concurrent.FairLock
import HubDevice.Concurrent.Watched
import HubDevice.Handler
import HubDevice.Retry.Run

/-!
# The state of the connection kernel

The kernel keeps one resilient connection on top of the session slot. `Kernel` is everything that its
operations share; an operation in progress is a `Task`, and each connection that came up has a
`Watcher`, which waits for the session to end and then restores it. The link moves as follows.

    unopened --open--> connected --link lost--> reconnecting --ok--> connected
                           ^                         |
                           |                      gave up
                           +--------open--------- lost
    any --close--> closed

One fair lock, the gate, serialises opening, closing, recovery and changes of subscriptions.
-/

namespace HubDevice

/-- Where the link stands. -/
inductive LinkState where
  | unopened
  | connected
  | reconnecting
  | lost
  | closed
  deriving DecidableEq, Repr

namespace Kernel

/-! ## Parts of operations -/

/-- One attempt to bring the connection up: open a session, then replay every subscription. A
subscription that is in place leaves `none`. -/
inductive Recovery where
  | opening (o : Opening)
  | replaying (pending : List (Option Subscribing))

/-- The check that an operation may use the connection: without the gate when the connection is up,
else under it. -/
inductive Admission where
  | checkDisposed
  | checkConnected
  | askGate
  | awaitGate
  | readLink
  deriving DecidableEq

/-- One attempt of a data operation. -/
inductive Guarded where
  | admission (a : Admission)
  | calling (f : Forward)

/-- One attempt to change a subscription. -/
inductive Toggling where
  | admission (a : Admission)
  | askGate
  | awaitGate
  /-- Holds the gate from here on. -/
  | check
  | calling (g : Subscribing)

/-- Where an open call stands; `epoch` is the number of completed attempts when it began. -/
inductive OpenPhase where
  | checkDisposed
  | checkConnected
  | readEpoch
  | askGate (epoch : Nat)
  | awaitGate (epoch : Nat)
  /-- Holds the gate from here on. -/
  | recheckDisposed (epoch : Nat)
  | consider (epoch : Nat)
  | begin
  | working (run : Retry.Run Recovery)
  | raiseLink
  | startWatcher
  | reportUp
  | reportDown (e : ClientError)
  | conclude (outcome : Except ClientError Unit)

/-- Where a close call stands. -/
inductive ClosePhase where
  | dispose
  | endLifetime
  | askGate
  | awaitGate
  /-- Holds the gate until the transport is released. -/
  | lowerLink
  | releasing (c : Closing)
  | reportTrouble
  | stopWatcher
  | joinWatcher (watcher : Nat)
  | reportClosed

/-- How a watcher ended. -/
inductive WatcherExit where
  | closedByClient
  | recovered
  | retryExpired
  | failed
  deriving DecidableEq, Repr

/-- Where a watcher stands. -/
inductive WatchPhase where
  | watching
  | askGate (cause : CloseCause)
  | awaitGate (cause : CloseCause)
  /-- Holds the gate from here on. -/
  | lowerLink (cause : CloseCause)
  | decide (cause : CloseCause)
  | giveUp
  | announce (policy : Retry.Policy) (delay : Span)
  | pausing (policy : Retry.Policy) (deadline : Nat)
  | recovering (run : Retry.Run Recovery)
  | raiseLink
  | startWatcher
  | reportUp
  | reportDown (e : ClientError)
  | ended (exit : WatcherExit)

/-- Watches one session; a watcher without a session watches one that has ended already. -/
structure Watcher where
  session : Option SessionId
  stopped : Bool := false
  phase : WatchPhase := .watching

/-! ## Operations -/

/-- What a client can ask for. -/
inductive Request where
  | «open»
  | close
  | run (x : Exchange)
  | toggle (feature : Feature) (enable edge : Bool)

/-- An operation in progress. -/
inductive Task where
  | ready (request : Request)
  | opening (phase : OpenPhase)
  | closing (phase : ClosePhase)
  | running (x : Exchange) (run : Retry.Run Guarded)
  | toggling (feature : Feature) (enable edge : Bool) (run : Retry.Run Toggling)
  | ended (result : Except ClientError Reply)

/-- An operation and the token that cancels it. -/
structure Operating where
  token : Nat
  task : Task

/-- Who can hold the gate. -/
inductive Party where
  | task (n : Nat)
  | watcher (n : Nat)
  deriving DecidableEq, Repr

end Kernel

open Kernel in
/-- Everything that the operations on one connection share. -/
structure Kernel where
  handler : Handler := {}
  gate : FairLock Party := {}
  link : LinkState := .unopened
  /-- Whether the link is up, readable without the gate. -/
  connected : Bool := false
  /-- Whether an open has ever succeeded. -/
  opened : Bool := false
  features : Features := {}
  /-- The outcome of the last completed attempt to open, for callers that waited for it. -/
  lastOpen : Option (Except ClientError Unit) := none
  /-- How many attempts to open were completed. -/
  epoch : Nat := 0
  /-- Whether a close call has begun. -/
  disposed : Bool := false
  /-- Whether everything that was started in the background has to stop. -/
  lifetimeOver : Bool := false
  policy : Retry.Policy := .standard
  /-- The status reported last. -/
  status : Watched Status := { value := {} }
  /-- The tokens that have fired. -/
  fired : List Nat := []
  watchers : List Watcher := []
  /-- The watcher of the current connection. -/
  watcher : Option Nat := none
  tasks : List Operating := []
  deriving Inhabited

namespace Kernel

/-- Whether a token has fired. -/
def tokenFired (k : Kernel) (token : Nat) : Bool := k.fired.contains token

/-- Whether a watcher has to stop. -/
def watcherStopped (k : Kernel) (w : Watcher) : Bool := w.stopped || k.lifetimeOver

def setLink (k : Kernel) (link : LinkState) : Kernel :=
  { k with link, connected := link = .connected }

/-- Tells the application about a status. -/
def report (k : Kernel) (state : ConnectionState) (reason : StatusReason) : Kernel :=
  { k with
    status := k.status.set ⟨state, reason⟩
    handler := { k.handler with wire := k.handler.wire.record (.reported ⟨state, reason⟩) } }

/-- The status that a failure to connect amounts to; `final` when no further attempt follows. -/
def statusOf (policy : Retry.Policy) (e : ClientError) (final : Bool) : Status :=
  match e with
  | .transport (.unauthorized _) => ⟨.disconnected, .badCredential⟩
  | .transport (.deviceNotFound _) => ⟨.disconnected, .deviceDisabled⟩
  | e =>
    if policy.transient e then
      if final then ⟨.disconnected, .retryExpired⟩ else ⟨.retrying, .communicationError⟩
    else ⟨.disconnected, .communicationError⟩

/-- Reports a failure to connect, as the policy in force classifies it. -/
def reportFailure (k : Kernel) (e : ClientError) (final : Bool) : Kernel :=
  let s := statusOf k.policy e final
  k.report s.state s.reason

/-- What an operation may expect of a link in this state. -/
def checkLink : LinkState → Except ClientError Unit
  | .connected => .ok ()
  | .reconnecting => .error .reconnecting
  | .lost => .error .connectionLost
  | .unopened => .error .notOpened
  | .closed => .error .disposed

/-- Takes a step of the session slot. -/
def liftHandler {α β : Type} (k : Kernel) (step : Step Handler α β) : Step Kernel α β :=
  step.map fun p => ({ k with handler := p.1 }, p.2)

/-- Starts watching the session in the slot, in place of any watcher before. -/
def spawnWatcher (k : Kernel) : Kernel :=
  { k with
    watchers := k.watchers ++ [{ session := k.handler.slot }]
    watcher := some k.watchers.length }

/-- Tells the watcher of the current connection to stop, and forgets it. -/
def dismissWatcher (k : Kernel) : Kernel :=
  match k.watcher with
  | none => k
  | some i =>
    { k with
      watchers := k.watchers.modify i fun w => { w with stopped := true }
      watcher := none }

end Kernel

end HubDevice
