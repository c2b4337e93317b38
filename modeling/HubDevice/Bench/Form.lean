import HubDevice.Bench.Files
import HubDevice.Bench.Rehearsal
import HubDevice.Credential.Token
import HubDevice.Json.Parser
import HubDevice.Mqtt.Failure
import HubDevice.Mqtt.Options

/-!
# Written forms of what a rehearsal is given

The JSON forms in which a test bench is given octets, texts, durations, messages, failures, policies,
operations and settings. A form is read leniently: a member that is missing or of another kind counts as its
plainest value, and members that are not known are skipped.
-/

namespace HubDevice.Bench.Form

/-! ## Parts of a form -/

/-- A member of an object, or null. -/
def field (j : Json) (key : String) : Json := (j.get? key).getD .null

def has (j : Json) (key : String) : Bool := (j.get? key).isSome

def items : Json → List Json
  | .arr xs => xs
  | _ => []

def members : Json → List (String × Json)
  | .obj ms => ms
  | _ => []

def int : Json → Int
  | .int n => n
  | _ => 0

def nat (j : Json) : Nat := (int j).toNat

def nat? : Json → Option Nat
  | .null => none
  | j => some (nat j)

def flag : Json → Bool
  | .bool b => b
  | _ => false

def str : Json → String
  | .str s => s
  | _ => ""

/-- Octets: those of a text, some in hexadecimal, or a text that is repeated. -/
def octets : Json → Octets
  | .str s => Octets.ofText s
  | j =>
    match j.get? "hex", j.get? "rep" with
    | some h, _ => (Octets.ofHex? (str h)).getD []
    | _, some (.arr [s, n]) => Octets.ofText (String.join (List.replicate (nat n) (str s)))
    | _, _ => []

def text (j : Json) : String := ((octets j).text?).getD ""

def text? : Json → Option String
  | .null => none
  | j => some (text j)

/-- A duration: seconds and nanoseconds, or milliseconds. -/
def span : Json → Span
  | .arr [s, n] => .ofParts (nat s) (nat n)
  | j => .ofMillis (nat j)

/-- A time since the epoch. -/
def time : Json → Credential.Time
  | .arr [s, n] => int s * 10 ^ 9 + int n
  | j => int j * 10 ^ 6

/-- A JSON value that is given as its text. -/
def parsed (j : Json) : Json := (Json.parse? (octets j)).getD .null

/-- A value of a type, given as the text of a JSON document. -/
def document? {α : Type} (read : Datum → Option α) (j : Json) : Option α := do
  read (← Json.document? (octets j))

/-- A value of a type, given as it is; null counts as empty. -/
def section? {α : Type} (read : Datum → Option α) (j : Json) : Option α :=
  read (.ofJson (match j with
    | .null => .obj []
    | j => j.canonical))

/-- The members of two objects; those of the second win. -/
def overlay (base j : Json) : Json := .obj (members base ++ members j)

/-! ## Failures and policies -/

def feature (j : Json) : Feature := (Feature.ofName? (str j)).getD .methods

def channel (j : Json) : Channel := (Channel.ofName? (str j)).getD .methods

def status (state reason : Json) : Status :=
  ⟨(ConnectionState.ofName? (str state)).getD .disconnected, (StatusReason.ofName? (str reason)).getD .clientClosed⟩

def readiness : Json → Readiness
  | .str "ready" => .ready
  | .str "unknown" => .unknown
  | j => .waiting (text (field j "waiting"))

def clientError (j : Json) : ClientError :=
  match str (field j "kind") with
  | "FeatureState" => .featureState (feature (field j "feature")) (flag (field j "enabled"))
  | "MessageTooLarge" => .transport (.messageTooLarge (nat (field j "size")) (nat (field j "limit")))
  | kind => (ClientError.ofKind? kind (text (field j "msg"))).getD (.transport (.network (text (field j "msg"))))

/-- Transport failures, as many as the form says. -/
def transportErrors (j : Json) : List TransportError :=
  match clientError j with
  | .transport e => List.replicate ((nat? (field j "times")).getD 1) e
  | _ => []

def backoff (j : Json) : Retry.Backoff :=
  let limit := nat? (field j "max_retries")
  match str (field j "kind") with
  | "exponential" =>
    .exponential (.ofBounds limit (span (field j "min")) (span (field j "max")) (span (field j "delta")))
  | "fixed" => .fixed limit (span (field j "delay"))
  | "none" => .never
  | _ => .exponential .standard

def policy (j : Json) : Retry.Policy :=
  let p := Retry.Policy.ofBackoff (backoff j)
  match field j "transient" with
  | .arr kinds => { p with transient := fun e => kinds.any fun k => str k = e.kind }
  | _ => p

def connectionFailure (j : Json) : Mqtt.Failure :=
  match str (field j "kind") with
  | "refused" => .refused ((Mqtt.ReturnCode.ofName? (str (field j "code"))).getD .success)
  | "io" => .io (str (field j "io") = "TimedOut") (text (field j "msg"))
  | "tls_io" => .tls ""
  | "network_timeout" => .networkTimeout
  | "flush_timeout" => .flushTimeout
  | "requests_done" => .requestsDone
  | "not_connack" => .notAcknowledged
  | _ => .state ""

/-! ## Messages -/

def message (j : Json) : Message :=
  let base : Message := {
    payload := octets (field j "payload")
    messageId := text? (field j "message_id")
    correlationId := text? (field j "correlation_id")
    contentType := text? (field j "content_type")
    contentEncoding := text? (field j "content_encoding")
    lockToken := text? (field j "lock_token")
    inputName := text? (field j "input_name") }
  (items (field j "properties")).foldl (fun m p => match p with
    | .arr [k, v] => m.withProperty (text k) (text v)
    | _ => m) base

def response (j : Json) : MethodResponse :=
  ⟨text (field j "request_id"), nat (field j "status"), octets (field j "payload")⟩

def request (j : Json) : IncomingRequest :=
  match j.get? "method", j.get? "desired" with
  | some m, _ => .method ⟨text (field m "name"), text (field m "request_id"), octets (field m "payload")⟩
  | _, some d =>
    .desired (match field d "version" with
      | .null => none
      | v => some (int v)) (members (parsed (field d "patch")))
  | _, _ =>
    let i := field j "input"
    .input (text (field i "name")) (message (field i "message"))

def format (j : Json) : Format := (Format.ofName? (str j)).getD .json

def compression (j : Json) : Compression := (Compression.ofName? (str j)).getD .none

/-! ## Operations -/

/-- The operation on the data of a session that a form asks for. -/
def dataCall? (j : Json) : Option DataCall :=
  match str (field j "do") with
  | "send" => some (.send (message (field j "message")))
  | "receive" => some .receive
  | "respond" => some (.respond (response (field j "response")))
  | "get_twin" => some .getTwin
  | "patch_twin" => some (.patchTwin (members (parsed (field j "patch"))))
  | "complete" => some (.settle .complete (text (field j "token")))
  | "abandon" => some (.settle .abandon (text (field j "token")))
  | "reject" => some (.settle .reject (text (field j "token")))
  | _ => none

/-- The operation that a form asks for, on the device or directly on the session slot. -/
def operation? (direct : Bool) (j : Json) : Option Ask :=
  let exchange (x : Exchange) : Ask := if direct then .directExchange x else .kernel (.run x)
  let toggle (on : Bool) : Ask :=
    let f := feature (field j "feature")
    let edge := flag (field j "edge")
    if direct then .directToggle on (f.channel edge) else .kernel (.toggle f on edge)
  match str (field j "do") with
  | "open" => some (if direct then .directOpen else .kernel .open)
  | "close" => some (if direct then .directClose else .kernel .close)
  | "send_many" => some (exchange (.sendMany ((items (field j "messages")).map message)))
  | "enable" => some (toggle true)
  | "disable" => some (toggle false)
  | "next_request" => some .nextRequest
  | "device_send" => some (.deviceSend (message (field j "message")))
  | "shutdown" => some .shutdown
  | _ => (dataCall? j).map fun c => exchange (.one c)

/-! ## Settings -/

/-- Files by their paths; null stands for a directory. -/
def files (j : Json) : Config.Files :=
  Tree.files ⟨(members j).map fun (name, v) => (name, match v with
    | .null => .directory
    | v => .file (octets v))⟩

/-- A setup after the setting that a form names; nothing when the setting is out of the question. -/
def setting (s : Mqtt.Setup) (j : Json) : Option Mqtt.Setup :=
  let on (o : Option Mqtt.Options) : Option Mqtt.Setup := o.map fun options => { s with options }
  match items j with
  | [.str "keep_alive", d] => on (s.options.withKeepAlive (span d))
  | [.str "max_packet_size", i, o] => some { s with options := s.options.withMaxPacket (nat i) (nat o) }
  | [.str "clean_session", b] => on (s.options.withCleanSession (flag b))
  | [.str "max_inflight", n] => on (s.options.withInflight (nat n))
  | [.str "credentials", u, p] => some { s with options := s.options.withCredentials (text u) (text p) }
  | [.str "tls", t] => (section? Config.Tls.ofDatum? t).map s.withTls
  | [.str "no_tls"] => some s.withoutTls
  | _ => some s

end HubDevice.Bench.Form
