/-!
# Connection status

What an application is told about its connection: a state and the reason of the last change.
-/

namespace HubDevice

/-- The state of the connection as an application sees it. -/
inductive ConnectionState where
  /-- Never opened, or recovery gave up. -/
  | disconnected
  /-- Up, with every enabled subscription in place. -/
  | connected
  /-- Lost, and being restored. -/
  | retrying
  /-- Closed by the application. -/
  | disabled
  deriving DecidableEq, Repr

/-- Why the connection state changed. -/
inductive StatusReason where
  | connectionOk
  | communicationError
  | retryExpired
  | clientClosed
  | badCredential
  | deviceDisabled
  deriving DecidableEq, Repr

def ConnectionState.name : ConnectionState → String
  | .disconnected => "Disconnected"
  | .connected => "Connected"
  | .retrying => "DisconnectedRetrying"
  | .disabled => "Disabled"

def ConnectionState.all : List ConnectionState := [.disconnected, .connected, .retrying, .disabled]

def ConnectionState.ofName? (s : String) : Option ConnectionState :=
  ConnectionState.all.find? fun x => x.name = s

def StatusReason.name : StatusReason → String
  | .connectionOk => "ConnectionOk"
  | .communicationError => "CommunicationError"
  | .retryExpired => "RetryExpired"
  | .clientClosed => "ClientClosed"
  | .badCredential => "BadCredential"
  | .deviceDisabled => "DeviceDisabled"

def StatusReason.all : List StatusReason :=
  [.connectionOk, .communicationError, .retryExpired, .clientClosed, .badCredential, .deviceDisabled]

def StatusReason.ofName? (s : String) : Option StatusReason :=
  StatusReason.all.find? fun x => x.name = s

/-- A status notification. A client that was never opened is disconnected and closed. -/
structure Status where
  state : ConnectionState := .disconnected
  reason : StatusReason := .clientClosed
  deriving DecidableEq, Repr, Inhabited

namespace Status

def display (s : Status) : String := s.state.name ++ " (" ++ s.reason.name ++ ")"

def isConnected (s : Status) : Bool := s.state = .connected

end Status

end HubDevice
