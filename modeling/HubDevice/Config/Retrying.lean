import HubDevice.Config.Payload
import HubDevice.Retry.Backoff

/-!
# Retry settings

The settings of a backoff schedule, in milliseconds.
-/

namespace HubDevice.Config

/-- The kind of a backoff schedule. -/
inductive Strategy where
  | exponential
  | fixed
  | none
  deriving DecidableEq, Repr

namespace Strategy

def name : Strategy → String
  | .exponential => "exponential"
  | .fixed => "fixed"
  | .none => "none"

def ofName? (s : String) : Option Strategy :=
  [exponential, fixed, none].find? fun x => x.name = s

end Strategy

/-- Retry settings. -/
structure Retrying where
  strategy : Strategy := .exponential
  /-- The number of retries; unlimited when there is none. -/
  maxRetries : Option Nat := Option.none
  minBackoff : Nat := 100
  maxBackoff : Nat := 10000
  deltaBackoff : Nat := 100
  fixedDelay : Nat := 1000
  deriving DecidableEq, Repr, Inhabited

namespace Retrying

/-- The schedule that the settings describe. -/
def backoff (r : Retrying) : Retry.Backoff :=
  match r.strategy with
  | .exponential => .exponential (.ofBounds r.maxRetries (Span.ofMillis r.minBackoff)
      (Span.ofMillis r.maxBackoff) (Span.ofMillis r.deltaBackoff))
  | .fixed => .fixed r.maxRetries (Span.ofMillis r.fixedDelay)
  | .none => .never

/-- The policy that the settings describe. -/
def policy (r : Retrying) : Retry.Policy := .ofBackoff r.backoff

def ofDatum? (d : Datum) : Option Retrying := do
  let fs ← d.fields? ["strategy", "max_retries", "min_backoff_ms", "max_backoff_ms",
    "delta_backoff_ms", "fixed_delay_ms"]
  let millis (name : String) (default : Nat) := fs.defaulted name default (Datum.natBelow? (2 ^ 64))
  return {
    strategy := ← fs.defaulted "strategy" .exponential (Datum.choice? Strategy.ofName?)
    maxRetries := ← fs.defaulted "max_retries" Option.none (Datum.orNull (Datum.natBelow? (2 ^ 32)))
    minBackoff := ← millis "min_backoff_ms" 100
    maxBackoff := ← millis "max_backoff_ms" 10000
    deltaBackoff := ← millis "delta_backoff_ms" 100
    fixedDelay := ← millis "fixed_delay_ms" 1000 }

def toJson (r : Retrying) : Json :=
  .obj [("delta_backoff_ms", .int r.deltaBackoff), ("fixed_delay_ms", .int r.fixedDelay),
    ("max_backoff_ms", .int r.maxBackoff),
    ("max_retries", match r.maxRetries with
      | Option.none => .null
      | some n => .int n),
    ("min_backoff_ms", .int r.minBackoff), ("strategy", .str r.strategy.name)]

def failures (r : Retrying) : List Failure :=
  checkSection
    (checkRange r.minBackoff 0 600000 "min_backoff_ms" "Minimum backoff must not exceed 10 minutes" ++
      checkRange r.maxBackoff 1 3600000 "max_backoff_ms"
        "Maximum backoff must be between 1ms and 1 hour" ++
      checkRange r.deltaBackoff 0 600000 "delta_backoff_ms" "Delta backoff must not exceed 10 minutes" ++
      checkRange r.fixedDelay 0 3600000 "fixed_delay_ms" "Fixed delay must not exceed 1 hour")
    (check (r.minBackoff ≤ r.maxBackoff) "__all__" "backoff_bounds"
      "min_backoff_ms must not exceed max_backoff_ms")

end Retrying

end HubDevice.Config
