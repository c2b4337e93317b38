import HubDevice.Bench.Clock
import HubDevice.Retry.Run

/-!
# Rehearsing retries

An action whose calls take a fixed time and then fail or succeed as prepared, under a retry policy and a
token that may fire.
-/

namespace HubDevice.Bench

/-- An action with prepared outcomes, and what became of it. -/
structure Attempts where
  /-- How the calls fail; a call beyond them succeeds. -/
  outcomes : List (Option ClientError)
  /-- How many milliseconds a call takes. -/
  duration : Nat
  cancelled : Bool
  /-- When the token fires. -/
  cancelAt : Option Nat
  now : Nat := 0
  calls : Nat := 0
  /-- The retries that were granted, newest first: the failure, the attempt and the delay. -/
  granted : List (ClientError × Nat × Span) := []

namespace Attempts

/-- A call of the action: not begun, or due at a time. -/
inductive Call where
  | begin
  | due (number time : Nat)

/-- The outcome of a call. -/
def outcome (a : Attempts) (number : Nat) : Except ClientError Nat :=
  match a.outcomes[number]?.join with
  | some e => .error e
  | none => .ok number

/-- The action. -/
def action : Retry.Action Attempts Call Nat where
  start := .begin
  step a c := match c with
    | .begin => some ({ a with calls := a.calls + 1 },
        .more (.due a.calls (a.now + min a.duration longestWait)))
    | .due number time => if time ≤ a.now then some (a, .done (a.outcome number)) else none
  abandon a _ := a
  granted a e n delay := { a with granted := (e, n, delay) :: a.granted }
  now a := a.now

/-- What a run of the action waits for, besides the token. -/
def deadline? (r : Retry.Run Call) : Option Nat :=
  match r.phase with
  | .pausing d => some d
  | .acting (.due _ time) => some time
  | .acting .begin => none

/-- Whether the token has fired. -/
def fired (a : Attempts) : Bool := a.cancelled || a.cancelAt.any (· ≤ a.now)

/-- Takes a run to its end. -/
def run : Nat → Attempts → Retry.Run Call → Option (Attempts × Except ClientError Nat)
  | 0, _, _ => none
  | fuel + 1, a, r =>
    match r.step action a.fired a with
    | some (a, .more r) => run fuel a r
    | some (a, .done result) => some (a, result)
    | none =>
      let r := capRun (a.now + longestWait) r
      match ((deadline? r).toList ++ (a.cancelAt.filter (a.now < ·)).toList).min? with
      | none => none
      | some d => run fuel { a with now := d } r

/-- Runs the action under a policy, after a number of retries. -/
def perform (a : Attempts) (policy : Retry.Policy) (attempt : Nat) :
    Option (Attempts × Except ClientError Nat) :=
  run patience { a with cancelAt := a.cancelAt.map (min longestWait) }
    (.ofPolicy action policy attempt)

end Attempts

end HubDevice.Bench
