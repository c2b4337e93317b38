import HubDevice.Error

/-!
# Why a connection fails

The ways in which an MQTT connection can fail, and what each of them means to a client.
-/

namespace HubDevice.Mqtt

/-- How a broker answers a request to connect. -/
inductive ReturnCode where
  | success
  | refusedProtocolVersion
  | badClientId
  | serviceUnavailable
  | badUserNamePassword
  | notAuthorized
  deriving DecidableEq, Repr

namespace ReturnCode

def all : List ReturnCode :=
  [success, refusedProtocolVersion, badClientId, serviceUnavailable, badUserNamePassword, notAuthorized]

def name : ReturnCode → String
  | success => "Success"
  | refusedProtocolVersion => "RefusedProtocolVersion"
  | badClientId => "BadClientId"
  | serviceUnavailable => "ServiceUnavailable"
  | badUserNamePassword => "BadUserNamePassword"
  | notAuthorized => "NotAuthorized"

def ofName? (s : String) : Option ReturnCode := all.find? fun c => c.name = s

end ReturnCode

/-- How a connection failed. -/
inductive Failure where
  /-- The broker refused it. -/
  | refused (code : ReturnCode)
  /-- Reading or writing failed. -/
  | io (timedOut : Bool) (detail : String)
  /-- The rules of the protocol were broken. -/
  | state (detail : String)
  /-- It could not be secured. -/
  | tls (detail : String)
  | networkTimeout
  | flushTimeout
  /-- Nobody can ask for anything any more. -/
  | requestsDone
  /-- The broker did not begin by answering the request to connect. -/
  | notAcknowledged
  deriving DecidableEq, Repr

namespace Failure

/-- A text without the quotation marks at its ends. -/
def unquoted (s : String) : String :=
  String.ofList ((s.toList.dropWhile (· = '"')).reverse.dropWhile (· = '"')).reverse

/-- What a failure means to the client. -/
def classify : Failure → TransportError
  | .refused code =>
    let detail := "connection refused: " ++ code.name
    match code with
    | .badUserNamePassword | .notAuthorized => .unauthorized detail
    | .badClientId => .deviceNotFound detail
    | .serviceUnavailable => .serverBusy detail
    | .refusedProtocolVersion => .protocol detail
    | .success => .network detail
  | .tls detail => .protocol (unquoted detail)
  | .io true detail => .timeout (unquoted detail)
  | .io false detail => .network (unquoted detail)
  | .networkTimeout => .timeout "Network timeout"
  | .flushTimeout => .timeout "Flush timeout"
  | .state detail => .network (unquoted detail)
  | .notAcknowledged => .protocol "Expected an acknowledgement of the connection"
  | .requestsDone => .sessionClosed "Requests done"

end Failure

end HubDevice.Mqtt
