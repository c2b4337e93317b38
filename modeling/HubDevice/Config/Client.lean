import HubDevice.Config.Retrying
import HubDevice.Config.Tls

/-!
# Client settings

The settings of one device identity and its connection.
-/

namespace HubDevice.Config

/-- Connection settings for one device or module identity. -/
structure Client where
  host : String := "localhost"
  port : Nat := 8883
  deviceId : String := "skylink-device"
  /-- Set when running as a module of the device. -/
  moduleId : Option String := none
  auth : Auth := {}
  /-- Seconds to wait for the connection to be accepted. -/
  connectionTimeout : Nat := 30
  /-- Seconds to wait for a twin response. -/
  operationTimeout : Nat := 60
  /-- The keep-alive interval in seconds. -/
  keepAlive : Nat := 230
  cleanSession : Bool := false
  maxInflight : Nat := 100
  /-- How many inbound requests are queued. -/
  requestChannelCapacity : Nat := 32
  /-- The largest packet in octets. -/
  maxPacketSize : Nat := 262144
  /-- Seconds between credential refreshes; zero turns them off. -/
  credentialRefreshInterval : Nat := 0
  useTls : Bool := true
  tls : Option Tls := none
  retry : Retrying := {}
  payload : Payload := {}
  deriving DecidableEq, Repr, Inhabited

namespace Client

/-- The client id: the device, or the device and its module. -/
def clientId (c : Client) : String :=
  match c.moduleId with
  | some m => c.deviceId ++ "/" ++ m
  | none => c.deviceId

/-- How often credentials are refreshed. -/
def refreshInterval (c : Client) : Option Span :=
  if c.credentialRefreshInterval = 0 then none else some (Span.ofSeconds c.credentialRefreshInterval)

/-- The names of the settings, in order. -/
def names : List String :=
  ["host", "port", "device_id", "module_id", "auth", "connection_timeout", "operation_timeout",
   "keep_alive", "clean_session", "max_inflight", "request_channel_capacity", "max_packet_size",
   "credential_refresh_interval", "use_tls", "tls", "retry", "serialization"]

def ofDatum? (d : Datum) : Option Client := do
  let fs ← d.fields? names
  let std : Client := {}
  let word (bound : Nat) (name : String) (default : Nat) :=
    fs.defaulted name default (Datum.natBelow? bound)
  return {
    host := ← fs.defaulted "host" std.host Datum.text?
    port := ← word (2 ^ 16) "port" std.port
    deviceId := ← fs.defaulted "device_id" std.deviceId Datum.text?
    moduleId := ← fs.defaulted "module_id" none (Datum.orNull Datum.text?)
    auth := ← fs.defaulted "auth" {} Auth.ofDatum?
    connectionTimeout := ← word (2 ^ 64) "connection_timeout" std.connectionTimeout
    operationTimeout := ← word (2 ^ 64) "operation_timeout" std.operationTimeout
    keepAlive := ← word (2 ^ 64) "keep_alive" std.keepAlive
    cleanSession := ← fs.defaulted "clean_session" std.cleanSession Datum.bool?
    maxInflight := ← word (2 ^ 16) "max_inflight" std.maxInflight
    requestChannelCapacity := ← word (2 ^ 64) "request_channel_capacity" std.requestChannelCapacity
    maxPacketSize := ← word (2 ^ 64) "max_packet_size" std.maxPacketSize
    credentialRefreshInterval :=
      ← word (2 ^ 64) "credential_refresh_interval" std.credentialRefreshInterval
    useTls := ← fs.defaulted "use_tls" std.useTls Datum.bool?
    tls := ← fs.defaulted "tls" none (Datum.orNull Tls.ofDatum?)
    retry := ← fs.defaulted "retry" {} Retrying.ofDatum?
    payload := ← fs.defaulted "serialization" {} Payload.ofDatum? }

def toJson (c : Client) : Json :=
  .obj [("auth", c.auth.toJson), ("clean_session", .bool c.cleanSession),
    ("connection_timeout", .int c.connectionTimeout),
    ("credential_refresh_interval", .int c.credentialRefreshInterval),
    ("device_id", .str c.deviceId), ("host", .str c.host), ("keep_alive", .int c.keepAlive),
    ("max_inflight", .int c.maxInflight), ("max_packet_size", .int c.maxPacketSize),
    ("module_id", Auth.settingJson c.moduleId), ("operation_timeout", .int c.operationTimeout),
    ("port", .int c.port), ("request_channel_capacity", .int c.requestChannelCapacity),
    ("retry", c.retry.toJson), ("serialization", c.payload.toJson),
    ("tls", match c.tls with
      | none => .null
      | some t => t.toJson),
    ("use_tls", .bool c.useTls)]

/-- The settings that are out of bounds. -/
def failures (fs : Files) (c : Client) : List Failure :=
  Failure.sort <|
    checkLength c.host 1 (some 255) "host" "Host must be between 1 and 255 characters" ++
    checkRange c.port 1 65535 "port" "Port must be between 1 and 65535" ++
    checkLength c.deviceId 1 (some 128) "device_id" "Device id must be between 1 and 128 characters" ++
    (match c.moduleId with
      | none => []
      | some m => checkLength m 1 (some 128) "module_id"
          "Module id must be between 1 and 128 characters") ++
    c.auth.failures.map (·.within "auth") ++
    checkRange c.connectionTimeout 1 300 "connection_timeout"
      "Connection timeout must be between 1 and 300 seconds" ++
    checkRange c.operationTimeout 1 300 "operation_timeout"
      "Operation timeout must be between 1 and 300 seconds" ++
    checkRange c.keepAlive 5 1740 "keep_alive" "Keep alive must be between 5 and 1740 seconds" ++
    checkRange c.maxInflight 1 1000 "max_inflight" "Max inflight must be between 1 and 1000" ++
    checkRange c.requestChannelCapacity 1 1024 "request_channel_capacity"
      "Request channel capacity must be between 1 and 1024" ++
    checkRange c.maxPacketSize 64 262144 "max_packet_size"
      "Max packet size must be between 64 and 262144 bytes" ++
    (match c.tls with
      | none => []
      | some t => (t.failures fs).map (·.within "tls")) ++
    c.retry.failures.map (·.within "retry") ++
    c.payload.failures.map (·.within "serialization")

/-- Why settings are not valid: settings out of bounds, or a problem with the TLS files together. -/
inductive Invalid where
  | settings (failures : List Failure)
  | tls (cause : TlsError)
  deriving DecidableEq, Repr

namespace Invalid

def failures : Invalid → List Failure
  | .settings fs => fs
  | .tls _ => []

/-- What is wrong, one line for each failure. -/
def detail : Invalid → String
  | .settings fs => "\n".intercalate (fs.map Failure.display)
  | .tls cause => "tls: " ++ cause.message

end Invalid

/-- Checks the settings and the files that they refer to. -/
def invalid? (fs : Files) (c : Client) : Option Invalid :=
  match c.failures fs with
  | [] => (c.tls.bind (Tls.error? fs)).map .tls
  | failures => some (.settings failures)

end Client

end HubDevice.Config
