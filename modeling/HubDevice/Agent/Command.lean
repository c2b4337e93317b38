import HubDevice.Agent.Interval
import HubDevice.Json.Parser
import HubDevice.Session.Wire

/-!
# Commands from the cloud

The agent knows one direct method and one desired property, and both set the telemetry interval, to a
whole number of seconds from 1 to 86400. A method is always answered; a desired property is answered by
reporting it, when it is accepted; module inputs are ignored.
-/

namespace HubDevice.Command

def methodName : String := "SetTelemetryInterval"

def propertyName : String := "telemetryInterval"

/-- The bounds of an interval in seconds. -/
def minSeconds : Nat := 1

def maxSeconds : Nat := 86400

/-- The seconds that a JSON value asks for, when they are in bounds. -/
def seconds? : Json → Option Nat
  | .int n => if minSeconds ≤ n ∧ n ≤ maxSeconds then some n.toNat else none
  | _ => none

/-- What a request leads to: the interval to apply, and a call to make. -/
structure Reaction where
  seconds : Option Nat := none
  call : Option DataCall := none

/-- An answer to a method, with a body that has one member. -/
def answer (m : MethodRequest) (status : Nat) (key : String) (value : Json) : DataCall :=
  .respond (.ofJson m.requestId status (.obj [(key, value)]))

/-- The reaction to a direct method. -/
def onMethod (m : MethodRequest) : Reaction :=
  if m.name = methodName then
    match (Json.parse? m.payload).bind seconds? with
    | some n => { seconds := some n, call := some (answer m 200 "interval" (.int n)) }
    | none => { call := some (answer m 400 "error"
        (.str s!"expected whole seconds between {minSeconds} and {maxSeconds}")) }
  else { call := some (answer m 404 "error" (.str ("unknown method " ++ m.name))) }

/-- The reaction to a patch of desired properties. -/
def onDesired (patch : TwinCollection) : Reaction :=
  match (patch.find? fun p => p.1 = propertyName).bind fun p => seconds? p.2 with
  | some n => { seconds := some n, call := some (.patchTwin [(propertyName, .int n)]) }
  | none => {}

/-- The reaction to a request. -/
def reaction : IncomingRequest → Reaction
  | .method m => onMethod m
  | .desired _ patch => onDesired patch
  | .input _ _ => {}

/-- The interval after a reaction. -/
def Reaction.apply (r : Reaction) (i : Interval) : Interval :=
  match r.seconds with
  | none => i
  | some n => i.change (Span.ofSeconds n)

/-- Handles a request with a responder that makes calls: the interval changes first, and a call that fails is neither
taken back nor made again. -/
def handle {σ : Type} (make : σ → DataCall → σ × Except ClientError Reply) (i : Interval) (s : σ)
    (r : IncomingRequest) : Interval × σ × Except ClientError Unit :=
  let x := reaction r
  match x.call with
  | none => (x.apply i, s, .ok ())
  | some c =>
    let (s, o) := make s c
    (x.apply i, s, o.map fun _ => ())

end HubDevice.Command
