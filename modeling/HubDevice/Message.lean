import HubDevice.Json.Printer

/-!
# Messages, methods and twins

The data that a device and its hub exchange: telemetry and cloud-to-device messages, direct method
calls and their responses, twin documents, and what the hub pushes for the application to handle.
-/

namespace HubDevice

/-- Text properties sorted by name, each name once. -/
abbrev Properties := List (String × String)

/-- A message to or from the hub. -/
structure Message where
  payload : Octets := []
  /-- Application properties. -/
  properties : Properties := []
  messageId : Option String := none
  correlationId : Option String := none
  contentType : Option String := none
  contentEncoding : Option String := none
  /-- Set by transports that lock received messages. -/
  lockToken : Option String := none
  /-- The module input that the message arrived on. -/
  inputName : Option String := none
  deriving DecidableEq, Inhabited

namespace Message

/-- Sets an application property. -/
def withProperty (m : Message) (key value : String) : Message :=
  { m with properties := Json.insertSorted key value m.properties }

/-- The value of an application property. -/
def property? (m : Message) (key : String) : Option String :=
  (m.properties.find? fun p => p.1 = key).map (·.2)

/-- A message whose payload is a JSON text. -/
def ofJson (v : Json) : Message :=
  { payload := Octets.ofText v.compact
    contentType := some "application/json"
    contentEncoding := some "utf-8" }

end Message

/-- A direct method call. -/
structure MethodRequest where
  name : String
  /-- The response carries the same one. -/
  requestId : String
  payload : Octets
  deriving DecidableEq, Inhabited

/-- The answer to a direct method call. -/
structure MethodResponse where
  requestId : String
  status : Nat
  payload : Octets
  deriving DecidableEq, Inhabited

/-- A response with a JSON body. -/
def MethodResponse.ofJson (requestId : String) (status : Nat) (body : Json) : MethodResponse :=
  ⟨requestId, status, Octets.ofText body.compact⟩

/-- Twin properties, sorted by name. -/
abbrev TwinCollection := List (String × Json)

/-- The twin document of a device. -/
structure Twin where
  desired : TwinCollection := []
  reported : TwinCollection := []
  deriving Inhabited

namespace Twin

/-- The `$version` of a collection, when it is a signed 64-bit integer. -/
def version? (c : TwinCollection) : Option Int :=
  match c.find? fun p => p.1 = "$version" with
  | some (_, .int n) => if n < 2 ^ 63 then some n else none
  | _ => none

/-- The document with both collections. -/
def toJson (t : Twin) : Json := .obj [("desired", .obj t.desired), ("reported", .obj t.reported)]

end Twin

/-- Something the hub pushed to the device. -/
inductive IncomingRequest where
  | method (call : MethodRequest)
  | desired (version : Option Int) (patch : TwinCollection)
  | input (name : String) (message : Message)

instance : Inhabited IncomingRequest := ⟨.method default⟩

end HubDevice
