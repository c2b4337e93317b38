import HubDevice.Session.Wire

/-!
# Written records of what the transport carries

The JSON forms in which a test bench writes messages, responses and calls into its log.
-/

namespace HubDevice

/-- A member that is left out when there is no value. -/
def Json.optional (key : String) (v : Option String) : List (String × Json) :=
  match v with
  | none => []
  | some s => [(key, .str s)]

/-- A message, with its payload in hexadecimal. -/
def Message.record (m : Message) : Json :=
  Json.canonical <| .obj <|
    [("payload", .str (Octets.toHex m.payload)),
     ("properties", .obj (m.properties.map fun p => (p.1, .str p.2)))] ++
    Json.optional "message_id" m.messageId ++
    Json.optional "correlation_id" m.correlationId ++
    Json.optional "content_type" m.contentType ++
    Json.optional "content_encoding" m.contentEncoding ++
    Json.optional "lock_token" m.lockToken ++
    Json.optional "input_name" m.inputName

/-- A method response, with its payload in hexadecimal. -/
def MethodResponse.record (r : MethodResponse) : Json :=
  .obj [("payload", .str (Octets.toHex r.payload)), ("request_id", .str r.requestId),
    ("status", .int r.status)]

/-- Something that the hub pushed. -/
def IncomingRequest.record : IncomingRequest → Json
  | .method call => .obj [("method", .obj [("name", .str call.name),
      ("payload", .str (Octets.toHex call.payload)), ("request_id", .str call.requestId)])]
  | .desired version patch => .obj [("desired", .obj [
      ("patch", .str (Json.compact (.obj patch))),
      ("version", match version with
        | none => .null
        | some n => .int n)])]
  | .input name message => .obj [("input", .obj [("message", message.record), ("name", .str name)])]

namespace Settlement

def name : Settlement → String
  | .complete => "complete"
  | .abandon => "abandon"
  | .reject => "reject"

end Settlement

namespace Request

/-- The session that a call is made on. -/
def session? : Request → Option SessionId
  | .create => none
  | .connect s _ | .close s | .refresh s | .subscribe s _ | .unsubscribe s _ | .data s _ => some s

/-- The kind of a call. -/
def kind : Request → String
  | .create => "create"
  | .connect _ _ => "open"
  | .close _ => "close"
  | .refresh _ => "refresh"
  | .subscribe _ c => "sub:" ++ c.name
  | .unsubscribe _ c => "unsub:" ++ c.name
  | .data _ (.send _) => "send"
  | .data _ .receive => "receive"
  | .data _ (.respond _) => "respond"
  | .data _ .getTwin => "get_twin"
  | .data _ (.patchTwin _) => "patch_twin"
  | .data _ (.settle how _) => how.name

/-- What a call carries. -/
def detail : Request → String
  | .connect _ true => "cancelled"
  | .data _ (.send m) => m.record.compact
  | .data _ (.respond r) => r.record.compact
  | .data _ (.patchTwin p) => Json.compact (.obj p)
  | .data _ (.settle _ token) => token
  | _ => ""

/-- The line of a call in the log. -/
def line (r : Request) : String :=
  let head := match r.session? with
    | none => r.kind
    | some s => s!"s{s + 1}." ++ r.kind
  if r.detail.isEmpty then head else head ++ " " ++ r.detail

end Request

/-- The line of an event in the log, if it has one. -/
def Event.line? : Event → Option String
  | .called _ r => some r.line
  | .answered _ _ _ => none
  | .reported s => some ("status " ++ s.display)

end HubDevice
