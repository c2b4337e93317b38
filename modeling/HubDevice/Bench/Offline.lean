import HubDevice.Bench.Clock
import HubDevice.Mqtt.Session

/-!
# Rehearsing sessions without a network

Sessions over MQTT where no broker can be reached: every connection fails as soon as it is driven. Calls that
were made together are carried out until all of them are over or nothing is left to wait for; what runs in
the background gets its turn only when all of them wait.
-/

namespace HubDevice.Bench

/-- A station without a network, and how many calls were made. -/
structure Offline where
  station : Mqtt.Station
  /-- The session in use. -/
  session : Option Nat := none
  calls : Nat := 0

namespace Offline

/-- What becomes of a connection. -/
def unreachable : Mqtt.Event := .failed (.io false "Connection refused (os error 111)")

/-- Lets a call run. -/
def runCall (n : Nat) : Nat → Mqtt.Station → Mqtt.Call → Mqtt.Station × Mqtt.Call
  | 0, st, c => (st, c)
  | fuel + 1, st, c =>
    match c.step n st with
    | none => (st, c)
    | some (st, c) => runCall n fuel st c

/-- Lets calls run one after another; the first has the number `n`. -/
def runCalls (n : Nat) (st : Mqtt.Station) : List Mqtt.Call → Mqtt.Station × List Mqtt.Call
  | [] => (st, [])
  | c :: rest =>
    let (st, c) := runCall n 64 st c
    let (st, rest) := runCalls (n + 1) st rest
    (st, c :: rest)

/-- Lets the driver of a session run, whose connection fails. -/
def driveOne (i : Nat) : Nat → Mqtt.Station → Mqtt.Station
  | 0, st => st
  | fuel + 1, st =>
    match st.drive i with
    | some st => driveOne i fuel st
    | none =>
      match st.session? i with
      | some s =>
        if s.driving = .running ∧ s.events.isEmpty then
          driveOne i fuel (st.setSession i { s with events := [unreachable] })
        else st
      | none => st

/-- Lets all drivers run. -/
def driveAll (st : Mqtt.Station) : Mqtt.Station :=
  (List.range st.sessions.length).foldl (fun st i => driveOne i 8 st) st

def isOver (c : Mqtt.Call) : Bool :=
  match c.phase with
  | .finished _ => true
  | _ => false

/-- What a call waits for at most. -/
def deadline? (c : Mqtt.Call) : Option Nat :=
  match c.phase with
  | .awaiting d | .joining d | .awaitingTwin _ _ _ d => some d
  | _ => none

/-- A call that waits until a time at most. -/
def cap (limit : Nat) (c : Mqtt.Call) : Mqtt.Call :=
  { c with phase := match c.phase with
    | .awaiting d => .awaiting (min d limit)
    | .joining d => .joining (min d limit)
    | .awaitingTwin id request call d => .awaitingTwin id request call (min d limit)
    | ph => ph }

/-- Carries calls out. -/
def carryOut (n : Nat) : Nat → Mqtt.Station → List Mqtt.Call → Mqtt.Station × List Mqtt.Call
  | 0, st, cs => (st, cs)
  | fuel + 1, st, cs =>
    let (st, cs) := runCalls n st cs
    if cs.all isOver then (st, cs)
    else
      let (driven, ran) := runCalls n (driveAll st) cs
      if ran.all isOver then (driven, ran)
      else
        let ran := ran.map (cap (driven.now + longestWait))
        match (ran.filterMap deadline?).min? with
        | none => (driven, ran)
        | some d => carryOut n fuel { driven with now := max d driven.now } ran

/-- The outcome of a call, once it is over. -/
def outcome? (c : Mqtt.Call) : Option Outcome :=
  match c.phase with
  | .finished o => some o
  | _ => none

/-- Makes calls on the session in use, each with an id for a request about the twin. A call that does not
come to its end is given up. -/
def perform (x : Offline) (requests : List (Request × String × Bool)) : Offline × List (Option Outcome) :=
  match x.session with
  | none => (x, [])
  | some i =>
    let cs : List Mqtt.Call := requests.map fun (r, id, cancelled) =>
      { session := i, phase := .ofRequest x.station id r, cancelled }
    let (st, cs) := carryOut x.calls 64 x.station cs
    let st := (cs.zipIdx x.calls).foldl (fun st (c, n) => c.phase.abandon n st) st
    ({ x with station := st, calls := x.calls + cs.length }, cs.map outcome?)

/-- Makes the messages of a list be sent one after another, until one fails. -/
def sendAll (x : Offline) : List Message → Offline × Option Outcome
  | [] => (x, some (.ok .done))
  | m :: rest =>
    match x.perform [(.data 0 (.send m), "", false)] with
    | (x, [some (.ok _)]) => x.sendAll rest
    | (x, [o]) => (x, o)
    | (x, _) => (x, none)

/-- The session in use ends, as somebody sees it who looks after the drivers had their turn. -/
def cause? (x : Offline) : Option CloseCause :=
  match x.session.bind x.station.session? with
  | none => none
  | some s => s.router.closed.value

end Offline

end HubDevice.Bench
