import HubDevice.Agent.Publishing
import HubDevice.Bench.Clock

/-!
# Rehearsing the publication of telemetry

A publishing loop over a publisher that takes a fixed time for each reading and then fails or succeeds as
prepared.
-/

namespace HubDevice.Bench

/-- A reading that was handed to the publisher. -/
structure Published where
  time : Nat
  reading : Reading
  alert : Bool
  failure : Option ClientError

/-- A publishing loop and its surroundings. -/
structure TelemetryTrial where
  loop : Publishing.Loop Simulator
  readiness : Watched Readiness := { value := .unknown }
  interval : Interval
  cancelled : Bool := false
  now : Nat := 0
  /-- How long the publisher takes, in milliseconds. -/
  duration : Nat := 0
  failures : List ClientError := []
  /-- When the publisher answers. -/
  due : Option Nat := none
  /-- The newest comes first. -/
  published : List Published := []

namespace TelemetryTrial

def view (x : TelemetryTrial) : Publishing.View :=
  ⟨x.cancelled, x.readiness, x.interval, x.now⟩

/-- The publisher answers. -/
def answer (x : TelemetryTrial) (r : Reading) (alert : Bool) : TelemetryTrial :=
  { x with
    failures := x.failures.tail
    due := none
    published := ⟨x.now, r, alert, x.failures.head?⟩ :: x.published
    loop := x.loop.published (match x.failures.head? with
      | none => .ok ()
      | some e => .error e) }

/-- One step of the loop or of the publisher. -/
def step (x : TelemetryTrial) : Option TelemetryTrial :=
  match x.loop.phase with
  | .publishing r alert =>
    match x.due with
    | none => some { x with due := some (x.now + min x.duration longestWait) }
    | some due => if due ≤ x.now then some (x.answer r alert) else none
  | _ => (x.loop.step Simulator.draw? x.view).map fun loop => { x with loop }

/-- The loop waits until a time at most. -/
def cap (limit : Nat) (x : TelemetryTrial) : TelemetryTrial :=
  match x.loop.phase with
  | .pausing d => { x with loop := { x.loop with phase := .pausing (min d limit) } }
  | _ => x

/-- Lets everything run that can. -/
def settle : Nat → TelemetryTrial → TelemetryTrial
  | 0, x => x
  | fuel + 1, x =>
    match x.step with
    | none => x.cap (x.now + longestWait)
    | some x => settle fuel x

/-- What the loop or the publisher waits for. -/
def next? (x : TelemetryTrial) : Option Nat :=
  match x.loop.phase with
  | .publishing _ _ => x.due
  | .pausing d => some d
  | _ => none

/-- Lets time pass up to an instant; the number bounds the instants at which something is due. -/
def advance (target : Nat) : Nat → TelemetryTrial → TelemetryTrial
  | 0, x => x
  | fuel + 1, x =>
    match x.next? with
    | none => settle 1000 { x with now := target }
    | some d =>
      if d ≤ target then advance target fuel (settle 1000 { x with now := max d x.now })
      else settle 1000 { x with now := target }

/-- Lets a number of milliseconds pass. -/
def pass (x : TelemetryTrial) (ms : Nat) : TelemetryTrial :=
  x.advance (x.now + min ms longestWait) 100000

end TelemetryTrial

end HubDevice.Bench
