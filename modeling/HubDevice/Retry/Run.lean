import HubDevice.Concurrent.Progress
import HubDevice.Retry.Backoff

/-!
# Running an action under a retry policy

A run repeats an action until it succeeds, fails for good, or the schedule grants no further attempt.
A token that fires ends the run at once, while the action works and while the run waits between two
attempts.
-/

namespace HubDevice.Retry

/-- An action that can be started any number of times, over a shared state. -/
structure Action (σ α β : Type) where
  start : α
  step : σ → α → Step σ α (Except ClientError β)
  /-- What becomes of the state when the action is given up on the way. -/
  abandon : σ → α → σ
  /-- What happens when a retry is granted: the failure, the attempt number and the delay. -/
  granted : σ → ClientError → Nat → Span → σ
  /-- The current time in milliseconds. -/
  now : σ → Nat

/-- Where a run stands. -/
inductive Phase (α : Type) where
  | acting (a : α)
  /-- Waits for a time before the next attempt. -/
  | pausing (deadline : Nat)

/-- A run: the policy it started with, how many retries were granted, and where it stands. -/
structure Run (α : Type) where
  policy : Policy
  attempt : Nat
  phase : Phase α

namespace Run

variable {σ α β : Type}

/-- A run that continues after `attempt` granted retries. -/
def ofPolicy (x : Action σ α β) (policy : Policy) (attempt : Nat) : Run α :=
  ⟨policy, attempt, .acting x.start⟩

/-- What follows a failure of the action. -/
def afterFailure (x : Action σ α β) (s : σ) (r : Run α) (e : ClientError) :
    σ × Progress (Run α) (Except ClientError β) :=
  if e = .cancelled ∨ r.policy.transient e = false then (s, .done (.error e))
  else match r.policy.decide r.attempt e with
    | .stop => (s, .done (.error e))
    | .retry delay =>
      let s := x.granted s e r.attempt delay
      let next := nextAttempt r.attempt
      if delay.isZero then (s, .more ⟨r.policy, next, .acting x.start⟩)
      else (s, .more ⟨r.policy, next, .pausing (delay.deadline (x.now s))⟩)

/-- One step of a run. -/
def step (x : Action σ α β) (cancelled : Bool) (s : σ) (r : Run α) :
    Step σ (Run α) (Except ClientError β) :=
  match r.phase with
  | .acting a =>
    if cancelled then some (x.abandon s a, .done (.error .cancelled))
    else match x.step s a with
      | none => none
      | some (s, .more a) => some (s, .more { r with phase := .acting a })
      | some (s, .done (.ok v)) => some (s, .done (.ok v))
      | some (s, .done (.error e)) => some (afterFailure x s r e)
  | .pausing deadline =>
    if cancelled then some (s, .done (.error .cancelled))
    else if deadline ≤ x.now s then some (s, .more { r with phase := .acting x.start })
    else none

/-- Gives a run up. -/
def abandon (x : Action σ α β) (s : σ) (r : Run α) : σ :=
  match r.phase with
  | .acting a => x.abandon s a
  | .pausing _ => s

end Run

end HubDevice.Retry
