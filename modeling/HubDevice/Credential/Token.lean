import HubDevice.Config.Client
import HubDevice.Credential.Sha256
import HubDevice.Text.Base64
import HubDevice.Text.Percent

/-!
# Tokens

A device proves its identity by a token. A token that was made elsewhere is used as it is; a signer makes
tokens from a shared access key: the resource and the expiry are signed, and everything that is not plain is
percent-encoded. Times are nanoseconds since the epoch, and the clock ends at `2 ^ 63` seconds.
-/

namespace HubDevice.Credential

/-- A time, in nanoseconds since the epoch. -/
abbrev Time := Int

/-- A time and a length of time after it, while the clock goes that far. -/
def Time.add? (t : Time) (s : Span) : Option Time :=
  if t + s.nanos < 2 ^ 63 * 10 ^ 9 then some (t + s.nanos) else none

/-- A token and when it expires, if it does. -/
structure Token where
  value : String
  expiresAt : Option Time := none
  deriving DecidableEq, Repr, Inhabited

namespace Token

/-- Whether a token expires within a margin of a time. A token that does not expire has no need of the
clock; otherwise nothing when the clock ends before the margin does. -/
def expiresWithin? (t : Token) (now : Time) (margin : Span) : Option Bool :=
  match t.expiresAt with
  | none => some false
  | some expiry => (now.add? margin).map fun limit => expiry ≤ limit

/-- The token for a log, without its value. -/
def redacted (t : Token) : String :=
  "AuthToken \x7b value: \"<redacted>\", expires_at: " ++
    (match t.expiresAt with
      | none => "None"
      | some at_ => "Some(" ++ toString at_ ++ ")") ++ " \x7d"

end Token

/-- Signs tokens for one identity. -/
structure Signer where
  resource : String
  key : Octets
  /-- The shared access policy that the key belongs to. -/
  keyName : Option String := none
  /-- How long a token is good for. -/
  lifetime : Span
  deriving DecidableEq

namespace Signer

/-- What an identity signs for. -/
def resourceOf (host deviceId : String) (moduleId : Option String) : String :=
  host ++ "/devices/" ++ deviceId ++
    (match moduleId with
      | none => ""
      | some m => "/modules/" ++ m)

/-- A signer with a key in Base64, around which blanks do not matter. -/
def ofKey (host deviceId : String) (moduleId : Option String) (key : String) (lifetime : Span) :
    Except ClientError Signer :=
  match Text.Base64.decode? (Text.trim key).toList with
  | some key => .ok { resource := resourceOf host deviceId moduleId, key, lifetime }
  | none => .error (.clientSetup "Invalid shared access key")

/-- What is signed: the encoded resource and the second of the expiry, on two lines. -/
def signedText (encodedResource : String) (expiry : Nat) : String :=
  encodedResource ++ "\n" ++ toString expiry

/-- The token that expires at a second. -/
def tokenText (s : Signer) (expiry : Nat) : String :=
  let resource := String.ofList (Text.Percent.encode s.resource)
  let signature := Sha256.authenticate s.key (Octets.ofText (signedText resource expiry))
  let encoded := Text.Percent.encode (String.ofList (Text.Base64.encode signature))
  "SharedAccessSignature sr=" ++ resource ++ "&sig=" ++ String.ofList encoded ++ "&se=" ++
    toString expiry ++
    (match s.keyName with
      | none => ""
      | some name => "&skn=" ++ String.ofList (Text.Percent.encode name))

/-- The token made at a time; nothing when the clock ends before its expiry. -/
def tokenAt? (s : Signer) (now : Time) : Option (Except TransportError Token) :=
  (now.add? s.lifetime).map fun expiry =>
    if expiry < 0 then
      .error (.configuration "Clock before epoch: second time provided was later than self")
    else .ok ⟨s.tokenText (expiry.toNat / 10 ^ 9), some expiry⟩

end Signer

/-- How a device comes by its tokens. -/
inductive Source where
  | fixed (token : String)
  | signer (s : Signer)
  deriving DecidableEq

/-- The token at a time. -/
def Source.token? (s : Source) (now : Time) : Option (Except TransportError Token) :=
  match s with
  | .fixed token => some (.ok ⟨token, none⟩)
  | .signer s => s.tokenAt? now

/-- The source that settings describe. A ready-made token wins over a key. -/
def ofConfig (c : Config.Client) : Except ClientError Source :=
  match c.auth.sasToken, c.auth.sharedAccessKey with
  | some token, _ => .ok (.fixed token)
  | none, none => .error (.config "either auth.shared_access_key or auth.sas_token is required")
  | none, some key => do
    let s ← Signer.ofKey c.host c.deviceId c.moduleId key (Span.ofSeconds c.auth.tokenTtl)
    return .signer { s with keyName := c.auth.keyName }

end HubDevice.Credential
