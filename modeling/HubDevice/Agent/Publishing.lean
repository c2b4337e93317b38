import HubDevice.Agent.Interval
import HubDevice.Agent.Joined
import HubDevice.Agent.Reading
import HubDevice.Agent.Readiness
import HubDevice.Error

/-!
# Publishing telemetry

The publishing loop waits until the device is ready, takes a reading, hands it to a publisher, and waits
for the interval before the next one. A change of the interval starts that wait anew. The loop ends when
it is cancelled, when the publisher reports that the client is closed, or when nobody can tell it any
more whether the device is ready or how long to wait. Where the readings come from is left open.
-/

namespace HubDevice

/-- What the loop sees of its surroundings. -/
structure Publishing.View where
  cancelled : Bool
  readiness : Watched Readiness
  interval : Interval
  /-- The time in milliseconds. -/
  now : Nat

namespace Publishing

/-- Where the loop stands. -/
inductive Phase where
  | check
  | awaitReady (w : Readiness.Waiting)
  | take
  /-- A reading was handed to the publisher, which has not answered. -/
  | publishing (reading : Reading) (alert : Bool)
  | readInterval
  | arm (period : Span)
  | pausing (deadline : Nat)
  | ended
  /-- A reading could not be drawn. -/
  | failed

/-- A publishing loop over a source of readings. -/
structure Loop (σ : Type) where
  simulator : σ
  /-- The version of the interval that was seen last. -/
  seen : Nat
  sent : Nat := 0
  phase : Phase := .check

variable {σ : Type}

/-- One step of the loop; nothing while it waits, also for the publisher. A reading is drawn with whether it raises an
alert. -/
def Loop.step (draw? : σ → Option ((Reading × Bool) × σ)) (v : View) (l : Loop σ) : Option (Loop σ) :=
  let next (p : Phase) : Option (Loop σ) := some { l with phase := p }
  match l.phase with
  | .check => next (if v.readiness.value.isReady then .take else .awaitReady .subscribe)
  | .awaitReady w =>
    if v.cancelled then next .ended
    else match w.step v.readiness with
      | none => none
      | some (.more w) => next (.awaitReady w)
      | some (.done true) => next .take
      | some (.done false) => next .ended
  | .take =>
    match draw? l.simulator with
    | none => next .failed
    | some ((r, alert), simulator) => some { l with simulator, phase := .publishing r alert }
  | .publishing _ _ => none
  | .readInterval => next (.arm v.interval.value)
  | .arm period =>
    if v.cancelled then next .ended
    else match v.interval.notice? l.seen with
      | some .changed => some { l with seen := v.interval.version, phase := .arm v.interval.value }
      | some .gone => next .ended
      | none => next (if period.isZero then .check else .pausing (period.deadline v.now))
  | .pausing deadline =>
    if v.cancelled then next .ended
    else match v.interval.notice? l.seen with
      | some .changed => some { l with seen := v.interval.version, phase := .arm v.interval.value }
      | some .gone => next .ended
      | none => if deadline ≤ v.now then next .check else none
  | .ended | .failed => none

/-- The loop after the publisher has answered. -/
def Loop.published (l : Loop σ) (result : Except ClientError Unit) : Loop σ :=
  match result with
  | .ok () => { l with sent := l.sent + 1, phase := .readInterval }
  | .error .cancelled | .error .disposed => { l with phase := .ended }
  | .error _ => { l with phase := .readInterval }

/-- How the loop ended, if it has: the number is of the readings that were sent. -/
def Loop.end? (l : Loop σ) : Option (TaskEnd Nat) :=
  match l.phase with
  | .ended => some (.finished l.sent)
  | .failed => some .failed
  | _ => none

end Publishing

end HubDevice
