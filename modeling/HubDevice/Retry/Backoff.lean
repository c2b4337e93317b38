import HubDevice.Error
import HubDevice.Span

/-!
# Backoff schedules

A schedule says, for the number of retries already granted, whether another one is and after what
delay. An exponential schedule grows by powers of two from its least delay up to its greatest;
`Exponential.delay` computes with saturating 64-bit milliseconds, so that it is defined for every
attempt number.
-/

namespace HubDevice.Retry

/-- What a schedule says. -/
inductive Decision where
  /-- Try again after a delay; a zero delay is no wait. -/
  | retry (delay : Span)
  | stop
  deriving DecidableEq

def Decision.shouldRetry : Decision → Bool
  | .retry _ => true
  | .stop => false

/-- The greatest attempt number; counting stops there. -/
def maxAttempt : Nat := 2 ^ 32 - 1

/-- The number after an attempt number. -/
def nextAttempt (n : Nat) : Nat := min (n + 1) maxAttempt

/-- Delays that grow exponentially between two bounds. -/
structure Exponential where
  /-- How many retries are granted; without a limit, all. -/
  limit : Option Nat
  least : Span
  most : Span
  /-- The unit that is added in powers of two. -/
  growth : Span
  least_le_most : least ≤ most

namespace Exponential

/-- A schedule whose greatest delay is raised to the least one if necessary. -/
def ofBounds (limit : Option Nat) (least most growth : Span) : Exponential where
  limit := limit
  least := least
  most := Span.max most least
  growth := growth
  least_le_most := by rw [Span.le_def, Span.nanos_max]; omega

/-- Unlimited retries from 100 ms up to 10 s, growing by 100 ms. -/
def standard : Exponential :=
  ofBounds none (Span.ofMillis 100) (Span.ofSeconds 10) (Span.ofMillis 100)

/-- The delay of an attempt, whatever the limit. -/
def delay (x : Exponential) (attempt : Nat) : Span :=
  let factor := 2 ^ min attempt 31 - 1
  let grown := min (x.growth.millis % 2 ^ 64 * factor) (2 ^ 64 - 1)
  Span.min (x.least.add (Span.ofMillis grown)) x.most

end Exponential

/-- A backoff schedule. -/
inductive Backoff where
  | exponential (schedule : Exponential)
  /-- The same delay before every retry. -/
  | fixed (limit : Option Nat) (delay : Span)
  | never

namespace Backoff

/-- Whether a limit on the number of retries is reached. -/
def exhausted (limit : Option Nat) (attempt : Nat) : Bool :=
  match limit with
  | some l => l ≤ attempt
  | none => false

/-- The decision after `attempt` granted retries. -/
def decide (b : Backoff) (attempt : Nat) : Decision :=
  match b with
  | .exponential x => if exhausted x.limit attempt then .stop else .retry (x.delay attempt)
  | .fixed limit delay => if exhausted limit attempt then .stop else .retry delay
  | .never => .stop

end Backoff

/-- Which failures are worth another attempt, and the schedule of the attempts. -/
structure Policy where
  transient : ClientError → Bool
  decide : Nat → ClientError → Decision

namespace Policy

/-- The usual classification of failures with a schedule. -/
def ofBackoff (b : Backoff) : Policy := ⟨ClientError.transient, fun n _ => b.decide n⟩

/-- Unlimited exponential retries of transient failures. -/
def standard : Policy := ofBackoff (.exponential .standard)

end Policy

instance : Inhabited Policy := ⟨.standard⟩

end HubDevice.Retry
