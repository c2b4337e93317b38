import HubDevice.Kernel.State

/-!
# Bringing the connection up

One attempt opens a new session and then subscribes to the channels of all enabled features at once.
The first subscription that fails ends the attempt, and the others are given up.
-/

namespace HubDevice.Kernel

namespace Recovery

/-- The attempts to subscribe to the channels of the enabled features. -/
def replay (fs : Features) : List (Option Subscribing) :=
  fs.channels.map fun c => some (.start true c)

/-- An attempt whose session is open: over as soon as no subscription is pending. -/
def settle (pending : List (Option Subscribing)) : Progress Recovery (Except ClientError Unit) :=
  if pending.all Option.isNone then .done (.ok ()) else .more (.replaying pending)

/-- What a step of one of the pending subscriptions leaves of all of them. -/
structure Replayed where
  handler : Handler
  pending : List (Option Subscribing)
  failure : Option ClientError := none

/-- Takes a step of the first pending subscription that need not wait. -/
def stepFirst (h : Handler) : List (Option Subscribing) → Option Replayed
  | [] => none
  | none :: rest => (stepFirst h rest).map fun r => { r with pending := none :: r.pending }
  | some g :: rest =>
    match g.step h with
    | some (h, .more g) => some { handler := h, pending := some g :: rest }
    | some (h, .done (.ok ())) => some { handler := h, pending := none :: rest }
    | some (h, .done (.error e)) => some { handler := h, pending := none :: rest, failure := some e }
    | none => (stepFirst h rest).map fun r => { r with pending := some g :: r.pending }

/-- Gives all pending subscriptions up. -/
def abandonAll (h : Handler) (pending : List (Option Subscribing)) : Handler :=
  pending.foldl (fun h g => match g with
    | none => h
    | some g => g.abandon h) h

/-- One step of an attempt. -/
def step (fs : Features) (cancelled : Bool) (h : Handler) :
    Recovery → Step Handler Recovery (Except ClientError Unit)
  | .opening o =>
    match o.step cancelled h with
    | none => none
    | some (h, .more o) => some (h, .more (.opening o))
    | some (h, .done (.ok ())) => some (h, settle (replay fs))
    | some (h, .done (.error e)) => some (h, .done (.error e))
  | .replaying pending =>
    match stepFirst h pending with
    | none => none
    | some ⟨h, pending, none⟩ => some (h, settle pending)
    | some ⟨h, pending, some e⟩ => some (abandonAll h pending, .done (.error e))

/-- Gives an attempt up. -/
def abandon (h : Handler) : Recovery → Handler
  | .opening o => o.abandon h
  | .replaying pending => abandonAll h pending

end Recovery

/-- Bringing the connection up, as an action that can be retried. -/
def recovery (fs : Features) (cancelled : Bool) (granted : Kernel → ClientError → Kernel) :
    Retry.Action Kernel Recovery Unit where
  start := .opening .start
  step k a := k.liftHandler (a.step fs cancelled k.handler)
  abandon k a := { k with handler := a.abandon k.handler }
  granted k e _ _ := granted k e
  now k := k.handler.now

end HubDevice.Kernel
