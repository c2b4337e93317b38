import HubDevice.Config.Failure
import HubDevice.Data.Datum
import HubDevice.Text.Blank
import HubDevice.Text.Escaped

/-!
# Authentication settings

A device signs its own tokens with a shared access key, or presents one that was made elsewhere.
-/

namespace HubDevice.Config

/-- How the device authenticates. -/
structure Auth where
  /-- The key that signs tokens, in Base64. -/
  sharedAccessKey : Option String := none
  /-- A token that is used as it is. -/
  sasToken : Option String := none
  /-- The shared access policy that the key belongs to. -/
  keyName : Option String := none
  /-- The lifetime of signed tokens in seconds. -/
  tokenTtl : Nat := 3600
  deriving DecidableEq, Repr, Inhabited

namespace Auth

/-- What a ready-made token starts with. -/
def tokenStart : String := "SharedAccessSignature "

/-- An optional setting as JSON. -/
def settingJson : Option String → Json
  | none => .null
  | some s => .str s

def ofDatum? (d : Datum) : Option Auth := do
  let fs ← d.fields? ["shared_access_key", "sas_token", "key_name", "token_ttl"]
  let setting (name : String) := fs.defaulted name none (Datum.orNull Datum.text?)
  return {
    sharedAccessKey := ← setting "shared_access_key"
    sasToken := ← setting "sas_token"
    keyName := ← setting "key_name"
    tokenTtl := ← fs.defaulted "token_ttl" 3600 (Datum.natBelow? (2 ^ 64)) }

def toJson (a : Auth) : Json :=
  .obj [("key_name", settingJson a.keyName), ("sas_token", settingJson a.sasToken),
    ("shared_access_key", settingJson a.sharedAccessKey), ("token_ttl", .int a.tokenTtl)]

/-- The check that exactly one kind of credentials is set, and that it can be one. -/
def spanning (a : Auth) : List Failure :=
  match a.sharedAccessKey, a.sasToken with
  | some _, some _ => [⟨"__all__", "ambiguous_credentials",
      "Set either shared_access_key or sas_token, not both"⟩]
  | none, none => [⟨"__all__", "missing_credentials",
      "Either shared_access_key or sas_token is required"⟩]
  | some key, none => check (!(Text.trim key).isEmpty) "__all__" "empty_key"
      "shared_access_key must not be empty"
  | none, some token => check (token.startsWith tokenStart) "__all__" "malformed_token"
      "sas_token must start with 'SharedAccessSignature '"

def failures (a : Auth) : List Failure :=
  checkSection
    (checkRange a.tokenTtl 60 2592000 "token_ttl" "Token TTL must be between 60 seconds and 30 days")
    a.spanning

/-- The settings for a log, without the secrets. -/
def redacted (a : Auth) : String :=
  let shown (s : Option String) : String :=
    match s with
    | none => "None"
    | some s => "Some(" ++ Text.quoted s ++ ")"
  let hidden (s : Option String) : String := shown (s.map fun _ => "<redacted>")
  "AuthConfig \x7b shared_access_key: " ++ hidden a.sharedAccessKey ++ ", sas_token: " ++
    hidden a.sasToken ++ ", key_name: " ++ shown a.keyName ++ ", token_ttl: " ++
    toString a.tokenTtl ++ " \x7d"

end Auth

end HubDevice.Config
