import HubDevice.Config.Files
import HubDevice.Config.Auth

/-!
# TLS settings

Certificate files. The paths are checked when the settings are validated, and read when a transport is
built.
-/

namespace HubDevice.Config

/-- The files that secure a connection. -/
structure Tls where
  /-- The authority that is trusted in place of the platform's. -/
  caCertPath : Option String := none
  clientCertPath : Option String := none
  clientKeyPath : Option String := none
  deriving DecidableEq, Repr, Inhabited

/-- What can be wrong with TLS files. -/
inductive TlsError where
  | emptyPath
  | fileNotFound (path : String)
  | notAFile (path : String)
  /-- A client certificate without its key, or a key without its certificate. -/
  | incompleteClientAuth
  deriving DecidableEq, Repr

namespace TlsError

def code : TlsError → String
  | .emptyPath => "empty_path"
  | .fileNotFound _ => "file_not_found"
  | .notAFile _ => "not_a_file"
  | .incompleteClientAuth => "incomplete_client_auth"

def message : TlsError → String
  | .emptyPath => "File path cannot be empty"
  | .fileNotFound path => "File does not exist: " ++ path
  | .notAFile path => "Path is not a file: " ++ path
  | .incompleteClientAuth => "Both client certificate and key must be provided or neither"

end TlsError

namespace Tls

/-- Whether the device presents a certificate of its own. -/
def hasClientAuth (t : Tls) : Bool := t.clientCertPath.isSome && t.clientKeyPath.isSome

/-- What is wrong with a path, if anything. -/
def pathError? (fs : Files) (path : String) : Option TlsError :=
  if path = "" then some .emptyPath
  else if ¬ fs.exists path then some (.fileNotFound path)
  else if ¬ fs.isFile path then some (.notAFile path)
  else none

/-- The first thing that is wrong with the settings, if anything. -/
def error? (fs : Files) (t : Tls) : Option TlsError :=
  match ([t.caCertPath, t.clientCertPath, t.clientKeyPath].filterMap id).findSome? (pathError? fs) with
  | some e => some e
  | none =>
    if t.clientCertPath.isSome ≠ t.clientKeyPath.isSome then some .incompleteClientAuth else none

/-- The failure of one path setting. -/
def pathFailures (fs : Files) (path : Option String) (name message : String) : List Failure :=
  match path.bind (pathError? fs) with
  | none => []
  | some e => [⟨name, e.code, message⟩]

def failures (fs : Files) (t : Tls) : List Failure :=
  pathFailures fs t.caCertPath "ca_cert_path" "CA certificate file does not exist" ++
    pathFailures fs t.clientCertPath "client_cert_path" "Client certificate file does not exist" ++
    pathFailures fs t.clientKeyPath "client_key_path" "Client key file does not exist"

def ofDatum? (d : Datum) : Option Tls := do
  let fs ← d.fields? ["ca_cert_path", "client_cert_path", "client_key_path"]
  let setting (name : String) := fs.defaulted name none (Datum.orNull Datum.text?)
  return {
    caCertPath := ← setting "ca_cert_path"
    clientCertPath := ← setting "client_cert_path"
    clientKeyPath := ← setting "client_key_path" }

def toJson (t : Tls) : Json :=
  .obj [("ca_cert_path", Auth.settingJson t.caCertPath),
    ("client_cert_path", Auth.settingJson t.clientCertPath),
    ("client_key_path", Auth.settingJson t.clientKeyPath)]

end Tls

end HubDevice.Config
