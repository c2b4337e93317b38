import HubDevice.Kernel.Close
import HubDevice.Kernel.Open
import HubDevice.Kernel.Operation
import HubDevice.Kernel.Watcher

/-!
# The steps of the kernel

What can happen to a kernel: an operation is started, an operation, a watcher or a refresher takes a
step, a token fires, the transport answers a call, a session ends, time passes, or the policy is
replaced. `Kernel.Reachable` are the states that any sequence of such events leads to.
-/

namespace HubDevice.Kernel

/-- Starts an operation; the result is its number. -/
def start (k : Kernel) (token : Nat) (r : Request) : Kernel × Nat :=
  ({ k with tasks := k.tasks ++ [⟨token, .ready r⟩] }, k.tasks.length)

/-- Continues an operation whose parts have a result of their own. -/
def ofPart {α β : Type} (wrap : α → Task) (value : β → Reply)
    (step : Step Kernel α (Except ClientError β)) : Option (Kernel × Task) :=
  step.map fun p => (p.1, match p.2 with
    | .more a => wrap a
    | .done r => .ended (r.map value))

/-- One step of an operation, which is the party `p`. -/
def Task.step (token : Nat) (p : Party) (k : Kernel) : Task → Option (Kernel × Task)
  | .ready .open => some (k, .opening .checkDisposed)
  | .ready .close => some (k, .closing .dispose)
  | .ready (.run x) => some (k, .running x (.ofPolicy (guarded x p) k.policy 0))
  | .ready (.toggle f enable edge) =>
    some (k, .toggling f enable edge (.ofPolicy (Kernel.toggling f enable edge p) k.policy 0))
  | .opening phase => ofPart .opening (fun _ => .done) (phase.step token p k)
  | .closing phase => ofPart .closing (fun _ => .done) (phase.step p k)
  | .running x run => ofPart (.running x) id (run.step (guarded x p) (k.tokenFired token) k)
  | .toggling f enable edge run =>
    ofPart (.toggling f enable edge) id
      (run.step (Kernel.toggling f enable edge p) (k.tokenFired token) k)
  | .ended _ => none

/-- One step of the operation with a number. -/
def stepTask (k : Kernel) (i : Nat) : Option Kernel := do
  let o ← k.tasks[i]?
  let (k, task) ← o.task.step o.token (.task i) k
  return { k with tasks := k.tasks.set i { o with task } }

/-- One step of the watcher with a number. -/
def stepWatcher (k : Kernel) (i : Nat) : Option Kernel := do
  let w ← k.watchers[i]?
  let (k, phase) ← w.phase.step (.watcher i) k w
  return { k with watchers := k.watchers.modify i fun w => { w with phase } }

/-- One step of the refresher with a number. -/
def stepRefresher (k : Kernel) (i : Nat) : Option Kernel :=
  (k.handler.stepRefresher i).map fun handler => { k with handler }

/-- The result of an operation, once it has ended. -/
def result? (k : Kernel) (i : Nat) : Option (Except ClientError Reply) :=
  match k.tasks[i]? with
  | some { task := .ended r, .. } => some r
  | _ => none

/-! ## What the environment does -/

def fire (k : Kernel) (token : Nat) : Kernel := { k with fired := token :: k.fired }

def answer (k : Kernel) (call : CallId) (o : Outcome) : Kernel :=
  { k with handler := { k.handler with wire := k.handler.wire.answer call o } }

def endSession (k : Kernel) (s : SessionId) (cause : CloseCause) : Kernel :=
  { k with handler := { k.handler with wire := k.handler.wire.endSession s cause } }

/-- Sets the clock. -/
def setTime (k : Kernel) (now : Nat) : Kernel := { k with handler := { k.handler with now } }

def setPolicy (k : Kernel) (policy : Retry.Policy) : Kernel := { k with policy }

/-- The last user lets go of the client without closing it: everything in the background is told to
stop. -/
def drop (k : Kernel) : Kernel := { k.dismissWatcher with lifetimeOver := true }

/-- Whether no watcher is left that uses the client. -/
def deserted (k : Kernel) : Bool := (List.range k.watchers.length).all k.watcherEnded

/-- A dropped client that no watcher uses any more: its refresher is stopped. -/
def discard (k : Kernel) : Kernel := { k with handler := k.handler.stopRefresher }

/-- What can happen to a kernel. -/
inductive Happening where
  | start (token : Nat) (request : Request)
  | stepTask (task : Nat)
  | stepWatcher (watcher : Nat)
  | stepRefresher (refresher : Nat)
  | fire (token : Nat)
  | answer (call : CallId) (outcome : Outcome)
  | endSession (session : SessionId) (cause : CloseCause)
  /-- Time passes, by a number of milliseconds. -/
  | pass (ms : Nat)
  | setPolicy (policy : Retry.Policy)
  | drop
  | discard

/-- What a happening makes of a kernel; nothing when it cannot happen. -/
def after (k : Kernel) : Happening → Option Kernel
  | .start token r => some (k.start token r).1
  | .stepTask i => k.stepTask i
  | .stepWatcher i => k.stepWatcher i
  | .stepRefresher i => k.stepRefresher i
  | .fire token => some (k.fire token)
  | .answer call o => some (k.answer call o)
  | .endSession s cause => some (k.endSession s cause)
  | .pass ms => some (k.setTime (k.handler.now + ms))
  | .setPolicy policy => some (k.setPolicy policy)
  | .drop => some k.drop
  | .discard => if k.lifetimeOver ∧ k.deserted then some k.discard else none

/-- The states that happenings lead to from a state. -/
inductive Reaches : Kernel → Kernel → Prop where
  | refl (k : Kernel) : Reaches k k
  | tail {k k' k'' : Kernel} (h : Happening) : Reaches k k' → k'.after h = some k'' → Reaches k k''

/-- A kernel that was just built: nothing has happened on it yet. -/
def initial (interval : Option Span) (policy : Retry.Policy) : Kernel :=
  { handler := .withInterval interval, policy }

/-- The states that happenings lead to. -/
def Reachable (k : Kernel) : Prop := ∃ interval policy, Reaches (initial interval policy) k

end HubDevice.Kernel
