import HubDevice.Text.Whole
import HubDevice.Topic.Bag

/-!
# Topics

The topics on which a device and its hub talk to each other: what a device publishes on, what it subscribes
to, and what a topic says about a message that arrives on it.
-/

namespace HubDevice

/-- The device, or the module of a device, that a session speaks for. -/
structure Identity where
  deviceId : String
  moduleId : Option String := none
  deriving DecidableEq, Repr, Inhabited

namespace Identity

def display (x : Identity) : String :=
  match x.moduleId with
  | some m => x.deviceId ++ "/" ++ m
  | none => x.deviceId

/-- What the topics of an identity start with. -/
def base (x : Identity) : String :=
  match x.moduleId with
  | some m => "devices/" ++ x.deviceId ++ "/modules/" ++ m
  | none => "devices/" ++ x.deviceId

/-- The topic of a telemetry message. -/
def telemetryTopic (x : Identity) (m : Message) : String :=
  x.base ++ "/messages/events/" ++ Topic.Bag.encode m

/-- What the topics of messages from the cloud start with. -/
def c2dStart (x : Identity) : String := "devices/" ++ x.deviceId ++ "/messages/devicebound/"

def c2dFilter (x : Identity) : String := x.c2dStart ++ "#"

/-- What the topics of module inputs start with. -/
def inputsStart? (x : Identity) : Option String :=
  x.moduleId.map fun m => "devices/" ++ x.deviceId ++ "/modules/" ++ m ++ "/inputs/"

def inputsFilter? (x : Identity) : Option String := x.inputsStart?.map (· ++ "#")

/-- The message from the cloud that arrived on a topic. -/
def c2d? (x : Identity) (topic : String) (payload : Octets) : Option Message :=
  (Text.after? x.c2dStart.toList topic.toList).map fun bag => Topic.Bag.apply { payload } bag

/-- The module input that arrived on a topic. -/
def moduleInput? (x : Identity) (topic : String) (payload : Octets) : Option IncomingRequest := do
  let rest ← Text.after? (← x.inputsStart?).toList topic.toList
  let (input, bag) := (Text.cut? ['/'] rest).getD (rest, [])
  if input.isEmpty then none
  else
    let input := String.ofList input
    return .input input { Topic.Bag.apply { payload } bag with inputName := some input }

end Identity

namespace Topic

def methodsStart : String := "$iothub/methods/POST/"

def twinResponseStart : String := "$iothub/twin/res/"

def desiredStart : String := "$iothub/twin/PATCH/properties/desired/"

def methodsFilter : String := methodsStart ++ "#"

def twinResponseFilter : String := twinResponseStart ++ "#"

def desiredFilter : String := desiredStart ++ "#"

/-- The topic of the answer to a method. -/
def methodResponse (status : Nat) (requestId : String) : String :=
  "$iothub/methods/res/" ++ toString status ++ "/?$rid=" ++ requestId

/-- The topic that asks for the twin. -/
def twinGet (requestId : String) : String := "$iothub/twin/GET/?$rid=" ++ requestId

/-- The topic that reports properties. -/
def twinPatch (requestId : String) : String := "$iothub/twin/PATCH/properties/reported/?$rid=" ++ requestId

/-- The value of the first pair of a query with this name. -/
def queryValue? (query : List Char) (key : String) : Option (List Char) :=
  (((Text.parts '&' query).filterMap (Text.cut? ['='])).find? fun p => p.1 = key.toList).map (·.2)

/-- The method call that arrived on a topic. -/
def method? (topic : String) (payload : Octets) : Option MethodRequest := do
  let rest ← Text.after? methodsStart.toList topic.toList
  let (name, query) ← Text.cut? ['/', '?'] rest
  let requestId ← queryValue? query "$rid"
  if name.isEmpty then none else return ⟨String.ofList name, String.ofList requestId, payload⟩

/-- An answer about the twin. -/
structure TwinResponse where
  status : Nat
  requestId : String
  version : Option Int
  deriving DecidableEq, Repr

/-- The answer about the twin that a topic announces. -/
def twinResponse? (topic : String) : Option TwinResponse := do
  let rest ← Text.after? twinResponseStart.toList topic.toList
  let (status, query) ← Text.cut? ['/', '?'] rest
  let status ← Text.unsigned? (2 ^ 16) status
  let requestId ← queryValue? query "$rid"
  return ⟨status, String.ofList requestId, (queryValue? query "$version").bind Text.signed?⟩

/-- The version that a topic of a patch of desired properties carries, if it carries one. -/
def desired? (topic : String) : Option (Option Int) := do
  let rest ← Text.after? desiredStart.toList topic.toList
  let query := (Text.after? ['?'] rest).getD rest
  return (queryValue? query "$version").bind Text.signed?

end Topic

end HubDevice
