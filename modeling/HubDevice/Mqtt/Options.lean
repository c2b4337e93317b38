import HubDevice.Config.Client
import HubDevice.Error

/-!
# Connection options

What an MQTT connection is set up with. Some settings are out of the question whatever the hub says: a
keep-alive interval below a second, no messages in flight at all, or a lasting session without a client id.
Such a setter has no result.
-/

namespace HubDevice.Mqtt

/-- The version of the hub's interface. -/
def apiVersion : String := "2021-04-12"

/-- The user name of a client. -/
def username (host clientId : String) : String := host ++ "/" ++ clientId ++ "/?api-version=" ++ apiVersion

/-- The settings of a connection. -/
structure Options where
  clientId : String
  host : String
  port : Nat
  keepAlive : Span := Span.ofSeconds 60
  cleanSession : Bool := true
  /-- How many messages may be in flight. -/
  inflight : Nat := 100
  /-- The largest packet to accept. -/
  maxIncoming : Nat := 10240
  /-- The largest packet to send. -/
  maxOutgoing : Nat := 10240
  /-- The user name and the password. -/
  credentials : Option (String × String) := none
  deriving DecidableEq

namespace Options

def withKeepAlive (o : Options) (interval : Span) : Option Options :=
  if interval.nanos = 0 ∨ 10 ^ 9 ≤ interval.nanos then some { o with keepAlive := interval } else none

def withCleanSession (o : Options) (clean : Bool) : Option Options :=
  if clean ∨ o.clientId ≠ "" then some { o with cleanSession := clean } else none

def withInflight (o : Options) (n : Nat) : Option Options :=
  if n = 0 then none else some { o with inflight := n }

def withMaxPacket (o : Options) (incoming outgoing : Nat) : Options :=
  { o with maxIncoming := incoming, maxOutgoing := outgoing }

def withCredentials (o : Options) (user password : String) : Options :=
  { o with credentials := some (user, password) }

end Options

/-- How octets travel. -/
inductive Transport where
  | plain
  /-- Secured, and the hub is verified by the platform's authorities. -/
  | platformRoots
  /-- Secured, with an authority of one's own and perhaps a certificate and its key. -/
  | ownRoot (ca : Octets) (clientAuth : Option (Octets × Octets))
  deriving DecidableEq

/-- Options together with how the connection is to be secured. -/
structure Setup where
  options : Options
  useTls : Bool := true
  tls : Option Config.Tls := none
  deriving DecidableEq

namespace Setup

/-- The setup of a client, before its password is known. -/
def ofConfig (c : Config.Client) : Option Setup := do
  let o : Options := { clientId := c.clientId, host := c.host, port := c.port }
  let o ← o.withKeepAlive (Span.ofSeconds c.keepAlive)
  let o ← o.withCleanSession c.cleanSession
  let o ← o.withInflight c.maxInflight
  let o := o.withMaxPacket c.maxPacketSize c.maxPacketSize
  return {
    options := o.withCredentials (username c.host c.clientId) ""
    useTls := c.useTls
    tls := c.tls }

def withTls (s : Setup) (tls : Config.Tls) : Setup := { s with useTls := true, tls := some tls }

def withoutTls (s : Setup) : Setup := { s with useTls := false, tls := none }

/-- The content of a file. -/
def file (fs : Config.Files) (path : String) : Except TransportError Octets :=
  match fs.read? path with
  | some bs => .ok bs
  | none => .error (.configuration ("Cannot read " ++ path))

/-- The certificate of the client and its key, if both are set. -/
def clientAuth (fs : Config.Files) (t : Config.Tls) : Except TransportError (Option (Octets × Octets)) :=
  match t.clientCertPath, t.clientKeyPath with
  | some cert, some key => do return some (← file fs cert, ← file fs key)
  | _, _ => .ok none

/-- How the octets of the connection travel. -/
def transport (fs : Config.Files) (s : Setup) : Except TransportError Transport :=
  if s.useTls then
    match s.tls with
    | none => .ok .platformRoots
    | some t =>
      match t.error? fs with
      | some e => .error (.configuration ("Invalid TLS configuration: " ++ e.message))
      | none => do
        let auth ← clientAuth fs t
        match t.caCertPath, auth with
        | some ca, auth => return .ownRoot (← file fs ca) auth
        | none, some _ => .error (.configuration "A client certificate requires tls.ca_cert_path")
        | none, none => return .platformRoots
  else .ok .plain

end Setup

end HubDevice.Mqtt
