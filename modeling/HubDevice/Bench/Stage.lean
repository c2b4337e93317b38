import HubDevice.Agent.Service
import HubDevice.Bench.Clock
import HubDevice.Bench.Script
import HubDevice.Bench.Storing

/-!
# A bench for agents

A stage is an agent over a scripted transport and a clock. Operations run in the foreground, so that
the bench waits for them, or in the background; all of them take turns in a fixed order.
-/

namespace HubDevice.Bench

/-- An operation directly on the session slot, without a kernel. -/
inductive Direct where
  | opening (token : Nat) (o : Opening)
  | closing (c : Closing)
  | forwarding (f : Forward)
  | subscribing (g : Subscribing)
  | ended (result : Except ClientError Reply)

/-- What takes turns on a stage. -/
inductive Player where
  | task (n : Nat)
  | watcher (n : Nat)
  | refresher (n : Nat)
  | device (n : Nat)
  | server (n : Nat)
  | publisher (n : Nat)
  | follower (n : Nat)
  | direct (n : Nat)
  /-- Fires a token at a time. -/
  | timer (token deadline : Nat)
  deriving DecidableEq

/-- An agent over a scripted transport. -/
structure Stage where
  agent : Agent := {}
  script : Script := {}
  direct : List Direct := []
  players : List Player := []
  /-- How many tokens were made. The first one stops all services. -/
  tokens : Nat := 1
  /-- Whether the bench has let go of the device. -/
  released : Bool := false
  /-- How many events of the history were shown. -/
  shown : Nat := 0
  deriving Inhabited

namespace Stage

def kernel (s : Stage) : Kernel := s.agent.device.kernel

def handler (s : Stage) : Handler := s.kernel.handler

def wire (s : Stage) : Wire := s.handler.wire

def now (s : Stage) : Nat := s.handler.now

def withKernel (s : Stage) (k : Kernel) : Stage :=
  { s with agent := { s.agent with device := { s.agent.device with kernel := k } } }

def withHandler (s : Stage) (h : Handler) : Stage := s.withKernel { s.kernel with handler := h }

def withWire (s : Stage) (w : Wire) : Stage := s.withHandler { s.handler with wire := w }

/-- One step of a direct operation. -/
def stepDirect (s : Stage) (n : Nat) : Option Stage := do
  let d ← s.direct[n]?
  let (h, d) ← match d with
    | .opening token o => (o.step (s.kernel.tokenFired token) s.handler).map fun p => (p.1, match p.2 with
        | .more o => Direct.opening token o
        | .done r => .ended (r.map fun _ => .done))
    | .closing c => (c.step s.handler).map fun p => (p.1, match p.2 with
        | .more c => .closing c
        | .done r => .ended (r.map fun _ => .done))
    | .forwarding f => (f.step s.handler).map fun p => (p.1, match p.2 with
        | .more f => .forwarding f
        | .done r => .ended r)
    | .subscribing g => (g.step s.handler).map fun p => (p.1, match p.2 with
        | .more g => .subscribing g
        | .done r => .ended (r.map fun _ => .done))
    | .ended _ => none
  let s := s.withHandler h
  return { s with direct := s.direct.set n d }

/-- One step of a player, without what the transport and the bench make of it. -/
def play (s : Stage) : Player → Option Stage
  | .task n => (s.kernel.stepTask n).map s.withKernel
  | .watcher n => (s.kernel.stepWatcher n).map s.withKernel
  | .refresher n => (s.kernel.stepRefresher n).map s.withKernel
  | .device n => (s.agent.device.stepTask n).map fun device => { s with agent := { s.agent with device } }
  | .server n => (s.agent.stepServer n).map fun agent => { s with agent }
  | .publisher n => (s.agent.stepPublisher n).map fun agent => { s with agent }
  | .follower n => (s.agent.stepFollower n).map fun agent => { s with agent }
  | .direct n => s.stepDirect n
  | .timer token deadline =>
    if deadline ≤ s.now ∧ ¬ s.kernel.tokenFired token then some (s.withKernel (s.kernel.fire token))
    else none

/-- Whether a player uses the device: an operation or a service that has not ended does. -/
def uses (s : Stage) : Player → Bool
  | .task n => (s.kernel.result? n).isNone
  | .device n => (s.agent.device.result? n).isNone
  | .direct n => s.direct[n]?.any fun d => match d with
    | .ended _ => false
    | _ => true
  | .server n => s.agent.servers[n]?.any fun x => x.phase != .ended
  | .publisher n => s.agent.publishers[n]?.any fun x => x.loop.end?.isNone
  | .watcher _ | .refresher _ | .follower _ | .timer _ _ => false

/-- Drops a device that the bench has let go of, once nobody uses it any more. -/
def dropUnused (s : Stage) : Stage :=
  if s.released && !s.players.any s.uses then
    { s with agent := { s.agent with device := s.agent.device.drop } }
  else s

/-- Lets the scripted transport take up new calls. -/
def react (s : Stage) : Stage :=
  let (script, wire) := s.script.react s.wire s.now
  { s.withWire wire with script }

/-- The watchers and refreshers that were started since a state. -/
def newcomers (before after : Stage) : List Player :=
  let watchers := List.range' before.kernel.watchers.length
    (after.kernel.watchers.length - before.kernel.watchers.length)
  let refreshers := List.range' before.handler.refreshers.length
    (after.handler.refreshers.length - before.handler.refreshers.length)
  refreshers.map .refresher ++ watchers.map .watcher

/-- One step of the player with a number. -/
def step (s : Stage) (i : Nat) : Option Stage := do
  let player ← s.players[i]?
  let s' := (← s.play player).dropUnused.react
  return { s' with players := s'.players ++ newcomers s s' }

/-- The deadline of a retry run. -/
def runDeadline {α : Type} (r : Retry.Run α) : List Nat :=
  match r.phase with
  | .pausing d => [d]
  | .acting _ => []

/-- The deadline that an operation waits for. -/
def taskDeadlines : Kernel.Task → List Nat
  | .opening (.working run) => runDeadline run
  | .running _ run => runDeadline run
  | .toggling _ _ _ run => runDeadline run
  | _ => []

/-- The deadline that a watcher waits for. -/
def watchDeadlines (w : Kernel.Watcher) : List Nat :=
  match w.phase with
  | .pausing _ d => [d]
  | .recovering run => runDeadline run
  | _ => []

/-- The deadline that a refresher waits for. -/
def refreshDeadlines (r : Refresher) : List Nat :=
  match r.phase with
  | .waiting d => [d]
  | _ => []

/-- The deadline that a publisher waits for. -/
def publishDeadlines (p : Agent.Publisher) : List Nat :=
  match p.loop.phase with
  | .pausing d => [d]
  | _ => []

/-- The deadlines of the tokens that are to fire. -/
def timerDeadlines (s : Stage) : Player → List Nat
  | .timer token d => if s.kernel.tokenFired token then [] else [d]
  | _ => []

/-- An operation that waits until a time at most. -/
def capTask (limit : Nat) (o : Kernel.Operating) : Kernel.Operating :=
  { o with task := match o.task with
    | .opening (.working run) => .opening (.working (capRun limit run))
    | .running x run => .running x (capRun limit run)
    | .toggling f on edge run => .toggling f on edge (capRun limit run)
    | t => t }

/-- A watcher that waits until a time at most. -/
def capWatcher (limit : Nat) (w : Kernel.Watcher) : Kernel.Watcher :=
  { w with phase := match w.phase with
    | .pausing policy d => .pausing policy (min d limit)
    | .recovering run => .recovering (capRun limit run)
    | ph => ph }

/-- A refresher that waits until a time at most. -/
def capRefresher (limit : Nat) (r : Refresher) : Refresher :=
  { r with phase := match r.phase with
    | .waiting d => .waiting (min d limit)
    | ph => ph }

/-- A publisher that waits until a time at most. -/
def capPublisher (limit : Nat) (p : Agent.Publisher) : Agent.Publisher :=
  { p with loop.phase := match p.loop.phase with
    | .pausing d => .pausing (min d limit)
    | ph => ph }

/-- All that waits does so until a time at most. -/
def cap (limit : Nat) (s : Stage) : Stage :=
  let k := s.kernel
  let s := s.withKernel { k with
    tasks := k.tasks.map (capTask limit)
    watchers := k.watchers.map (capWatcher limit)
    handler := { k.handler with refreshers := k.handler.refreshers.map (capRefresher limit) } }
  { s with agent := { s.agent with publishers := s.agent.publishers.map (capPublisher limit) } }

/-- All deadlines that something waits for. -/
def deadlines (s : Stage) : List Nat :=
  let s := s.cap (s.now + longestWait)
  s.script.deadlines s.wire ++ s.kernel.tasks.flatMap (fun o => taskDeadlines o.task) ++
    s.kernel.watchers.flatMap watchDeadlines ++ s.handler.refreshers.flatMap refreshDeadlines ++
    s.agent.publishers.flatMap publishDeadlines ++ s.players.flatMap s.timerDeadlines

/-- Sets the clock and answers the calls that are due. -/
def setTime (s : Stage) (time : Nat) : Stage :=
  let s := s.cap (s.now + longestWait)
  let s := s.withKernel (s.kernel.setTime time)
  let (script, wire) := s.script.expire s.wire time
  { s.withWire wire with script }

/-- The stage as a system of threads with a clock. -/
def system : Clocked Stage where
  step := step
  count s := s.players.length
  now := now
  setTime := setTime
  deadlines := deadlines

/-- Brings a player on. -/
def enter (s : Stage) (p : Player) : Stage := { s with players := s.players ++ [p] }

/-- The token that stops all services. -/
def serviceToken : Nat := 0

/-- The bench lets go of the device. -/
def release (s : Stage) : Stage := { s with released := true }.dropUnused

/-- A new token, which may have fired already or fire later. -/
def newToken (s : Stage) (cancelled : Bool) (after : Option Nat) : Stage × Nat :=
  let token := s.tokens
  let s := { s with tokens := token + 1 }
  let s := if cancelled then s.withKernel (s.kernel.fire token) else s
  let s := match after with
    | none => s
    | some ms => s.enter (.timer token (s.now + min ms longestWait))
  (s, token)

/-- The lines of the history that were not shown yet. -/
def freshLines (s : Stage) (statuses : Bool) : List String × Stage :=
  let trace := s.wire.trace
  let new := (trace.take (trace.length - s.shown)).reverse
  let lines := new.filterMap fun e => match e with
    | .reported _ => if statuses then e.line? else none
    | e => e.line?
  (lines, { s with shown := trace.length })

end Stage

end HubDevice.Bench
