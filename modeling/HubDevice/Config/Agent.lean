import HubDevice.Config.Client
import HubDevice.Config.Logging
import HubDevice.Config.Telemetry
import HubDevice.Toml.Document

/-!
# Agent settings

The settings of the agent are a TOML document with sections for logging, for the device and for telemetry.
They are read from the file that the environment names, or else from the standard place.
-/

namespace HubDevice.Config

/-- The settings of the agent. -/
structure Agent where
  logging : Logging := {}
  device : Client := {}
  telemetry : Telemetry := {}
  deriving Inhabited

/-- Why settings cannot be loaded. -/
inductive LoadError where
  /-- There is no file to read. -/
  | missing (detail : String)
  /-- The file cannot be read, or is not text. -/
  | unreadable
  /-- The file is no TOML document, or not one of settings. -/
  | malformed
  | invalid (cause : Client.Invalid)
  deriving DecidableEq, Repr

namespace LoadError

def kind : LoadError → String
  | .missing _ => "Config"
  | .unreadable => "IoError"
  | .malformed => "ParseError"
  | .invalid _ => "ValidationError"

def message : LoadError → String
  | .missing detail => "Configuration error: " ++ detail
  | .unreadable => "Cannot read the configuration file"
  | .malformed => "Cannot parse the configuration file"
  | .invalid (.settings failures) => "Validation error: " ++ Client.Invalid.detail (.settings failures)
  | .invalid (.tls cause) => "Validation error: Configuration error: " ++ Client.Invalid.detail (.tls cause)

end LoadError

namespace Agent

/-- The environment variable that names the file. -/
def environmentVariable : String := "SKYLINK_CONFIG"

/-- The standard place of the file. -/
def standardPath : String := "/etc/skylink/config.toml"

def ofDatum? (d : Datum) : Option Agent := do
  let fs ← d.fields? ["logger", "device", "telemetry"]
  return {
    logging := ← fs.defaulted "logger" {} Logging.ofDatum?
    device := ← fs.defaulted "device" {} Client.ofDatum?
    telemetry := ← fs.defaulted "telemetry" {} Telemetry.ofDatum? }

def toJson (a : Agent) : Json :=
  .obj [("device", a.device.toJson), ("logger", a.logging.toJson), ("telemetry", a.telemetry.toJson)]

/-- The settings that are out of bounds. -/
def failures (fs : Files) (a : Agent) : List Failure :=
  Failure.sort <|
    a.logging.failures.map (·.within "logger") ++ (a.device.failures fs).map (·.within "device") ++
      a.telemetry.failures.map (·.within "telemetry")

/-- Checks all settings, and last the files of the device together. -/
def invalid? (fs : Files) (a : Agent) : Option Client.Invalid :=
  match a.failures fs with
  | [] => a.device.invalid? fs
  | failures => some (.settings failures)

/-- Reads settings from a TOML text. -/
def parse (fs : Files) (text : String) : Except LoadError Agent :=
  match (Toml.parse? text).bind ofDatum? with
  | none => .error .malformed
  | some a =>
    match a.invalid? fs with
    | some cause => .error (.invalid cause)
    | none => .ok a

/-- Reads settings from a file. -/
def load (fs : Files) (path : String) : Except LoadError Agent :=
  if fs.exists path then
    match (fs.read? path).bind Octets.text? with
    | some text => parse fs text
    | none => .error .unreadable
  else .error (.missing (path ++ " does not exist"))

/-- Reads settings from the file that the environment names, or from the standard place. -/
def find (fs : Files) (environment : Option String) : Except LoadError Agent :=
  match environment with
  | some path => load fs path
  | none =>
    if fs.exists standardPath then load fs standardPath
    else .error (.missing
      ("No configuration file found. Set " ++ environmentVariable ++ " or create " ++ standardPath))

end Agent

end HubDevice.Config
