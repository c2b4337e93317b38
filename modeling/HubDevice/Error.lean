import HubDevice.Feature

/-!
# Failures

A `TransportError` is what went wrong on the wire, a `ClientError` what a caller of the client sees:
a transport failure, a misuse of the client, a cancellation or a local failure. Each has one text, and
each is either transient, so that the same operation may succeed later, or permanent.
-/

namespace HubDevice

/-- A failure of a transport session. -/
inductive TransportError where
  /-- The connection was refused, reset or never came about. -/
  | network (detail : String)
  /-- The hub did not answer in time. -/
  | timeout (detail : String)
  /-- The hub cannot serve the request right now. -/
  | serverBusy (detail : String)
  /-- The hub limits the rate of requests. -/
  | throttled (detail : String)
  /-- The hub failed internally. -/
  | serverError (detail : String)
  /-- The session ended while the operation was pending. -/
  | sessionClosed (detail : String)
  /-- The hub rejected the credentials. -/
  | unauthorized (detail : String)
  /-- The device does not exist or was disabled. -/
  | deviceNotFound (detail : String)
  /-- The daily quota is used up. -/
  | quotaExceeded (detail : String)
  /-- The payload is larger than the limit. -/
  | messageTooLarge (size limit : Nat)
  /-- The lock token no longer refers to a locked message. -/
  | lockLost (detail : String)
  /-- An unexpected or malformed reply. -/
  | protocol (detail : String)
  /-- The session cannot be built from its configuration. -/
  | configuration (detail : String)
  /-- The operation has no meaning on this transport. -/
  | unsupported (detail : String)
  deriving DecidableEq, Repr

namespace TransportError

/-- The name of the kind of a failure. -/
def kind : TransportError → String
  | .network _ => "Network"
  | .timeout _ => "Timeout"
  | .serverBusy _ => "ServerBusy"
  | .throttled _ => "Throttled"
  | .serverError _ => "ServerError"
  | .sessionClosed _ => "SessionClosed"
  | .unauthorized _ => "Unauthorized"
  | .deviceNotFound _ => "DeviceNotFound"
  | .quotaExceeded _ => "QuotaExceeded"
  | .messageTooLarge _ _ => "MessageTooLarge"
  | .lockLost _ => "LockLost"
  | .protocol _ => "Protocol"
  | .configuration _ => "Configuration"
  | .unsupported _ => "Unsupported"

def message : TransportError → String
  | .network d => "Network error: " ++ d
  | .timeout d => "Operation timed out: " ++ d
  | .serverBusy d => "Server busy: " ++ d
  | .throttled d => "Throttled by hub: " ++ d
  | .serverError d => "Hub server error: " ++ d
  | .sessionClosed d => "Session closed: " ++ d
  | .unauthorized d => "Unauthorized: " ++ d
  | .deviceNotFound d => "Device not found: " ++ d
  | .quotaExceeded d => "Quota exceeded: " ++ d
  | .messageTooLarge size limit => s!"Message too large: {size} bytes (limit {limit})"
  | .lockLost d => "Message lock lost: " ++ d
  | .protocol d => "Protocol error: " ++ d
  | .configuration d => "Transport configuration error: " ++ d
  | .unsupported d => "Operation not supported by this transport: " ++ d

/-- The failure of a kind that has nothing but a detail. -/
def ofKind? (kind detail : String) : Option TransportError :=
  ([network, timeout, serverBusy, throttled, serverError, sessionClosed, unauthorized, deviceNotFound,
    quotaExceeded, lockLost, protocol, configuration, unsupported].map (· detail)).find? (·.kind = kind)

/-- Whether the same operation may succeed later. -/
def transient : TransportError → Bool
  | .network _ | .timeout _ | .serverBusy _ | .throttled _ | .serverError _ | .sessionClosed _ => true
  | _ => false

/-- The failure that a status code of the hub stands for; codes from 200 to 299 stand for none. -/
def ofStatus? (status : Nat) (context : String) : Option TransportError :=
  if 200 ≤ status ∧ status ≤ 299 then none
  else if status = 401 then some (.unauthorized context)
  else if status = 403 then some (.quotaExceeded context)
  else if status = 404 then some (.deviceNotFound context)
  else if status = 408 ∨ status = 504 then some (.timeout context)
  else if status = 429 then some (.throttled context)
  else if status = 503 then some (.serverBusy context)
  else if 500 ≤ status ∧ status ≤ 599 then some (.serverError context)
  else some (.protocol s!"status {status}: {context}")

end TransportError

/-- A failure of a client operation. -/
inductive ClientError where
  /-- No open has succeeded yet. -/
  | notOpened
  /-- The connection is being recovered. -/
  | reconnecting
  /-- Recovery has given up. -/
  | connectionLost
  /-- The client was closed. -/
  | disposed
  /-- The caller's token fired. -/
  | cancelled
  /-- The feature already is as asked. -/
  | featureState (feature : Feature) (enabled : Bool)
  | transport (cause : TransportError)
  /-- The client cannot be assembled. -/
  | clientSetup (detail : String)
  /-- The configuration is not valid. -/
  | config (detail : String)
  /-- A payload cannot be written. -/
  | serialization (detail : String)
  /-- A payload cannot be read. -/
  | deserialization (detail : String)
  /-- A local file or stream failed. -/
  | io (detail : String)
  deriving DecidableEq, Repr

namespace ClientError

/-- The name of the kind of a failure. -/
def kind : ClientError → String
  | .notOpened => "NotOpened"
  | .reconnecting => "Reconnecting"
  | .connectionLost => "ConnectionLost"
  | .disposed => "Disposed"
  | .cancelled => "Cancelled"
  | .featureState _ _ => "FeatureState"
  | .transport cause => cause.kind
  | .clientSetup _ => "ClientSetup"
  | .config _ => "Config"
  | .serialization _ => "Serialization"
  | .deserialization _ => "Deserialization"
  | .io _ => "Io"

def message : ClientError → String
  | .notOpened => "The client must be opened before performing operations"
  | .reconnecting => "The transport is reconnecting"
  | .connectionLost => "The transport has disconnected; call open to reconnect"
  | .disposed => "The client has been closed and cannot be used"
  | .cancelled => "Operation cancelled"
  | .featureState f enabled =>
    "Feature " ++ f.name ++ " is already " ++ (if enabled then "enabled" else "disabled")
  | .transport cause => cause.message
  | .clientSetup d => "Client setup error: " ++ d
  | .config d => "Configuration error: " ++ d
  | .serialization d => "Serialization error: " ++ d
  | .deserialization d => "Deserialization error: " ++ d
  | .io d => "I/O error: " ++ d

/-- The failure of a kind that has at most a detail. -/
def ofKind? (kind detail : String) : Option ClientError :=
  match ([notOpened, reconnecting, connectionLost, disposed, cancelled, clientSetup detail, config detail,
      serialization detail, deserialization detail, io detail].find? (·.kind = kind)) with
  | some e => some e
  | none => (TransportError.ofKind? kind detail).map transport

/-- Whether the failure may clear up on its own. Waiting for a recovery is worth another attempt;
misuse of the client is not. -/
def transient : ClientError → Bool
  | .reconnecting => true
  | .transport cause => cause.transient
  | _ => false

/-- Whether the failure is a misuse of the client. -/
def usage : ClientError → Bool
  | .notOpened | .connectionLost | .disposed | .featureState _ _ => true
  | _ => false

end ClientError

end HubDevice
