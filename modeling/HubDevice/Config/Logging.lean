import HubDevice.Config.Payload

/-!
# Logging settings

The level of the log and its two outputs, the console and the journal. `Logging.outputs` are the outputs that
come up where it is known whether a journal is there.
-/

namespace HubDevice.Config

/-- How the console shows events. -/
inductive LogFormat where
  | compact
  | pretty
  | json
  deriving DecidableEq, Repr

namespace LogFormat

def name : LogFormat → String
  | .compact => "compact"
  | .pretty => "pretty"
  | .json => "json"

def ofName? (s : String) : Option LogFormat := [compact, pretty, json].find? fun f => f.name = s

end LogFormat

/-- The console output. -/
structure Console where
  enabled : Bool := true
  format : LogFormat := .compact
  showTarget : Bool := false
  showThreadIds : Bool := false
  showSpans : Bool := false
  ansiColors : Bool := true
  deriving DecidableEq, Repr, Inhabited

namespace Console

def ofDatum? (d : Datum) : Option Console := do
  let fs ← d.fields? ["enabled", "format", "show_target", "show_thread_ids", "show_spans", "ansi_colors"]
  let switch (name : String) (default : Bool) := fs.defaulted name default Datum.bool?
  return {
    enabled := ← switch "enabled" true
    format := ← fs.defaulted "format" .compact (Datum.choice? LogFormat.ofName?)
    showTarget := ← switch "show_target" false
    showThreadIds := ← switch "show_thread_ids" false
    showSpans := ← switch "show_spans" false
    ansiColors := ← switch "ansi_colors" true }

def toJson (c : Console) : Json :=
  .obj [("ansi_colors", .bool c.ansiColors), ("enabled", .bool c.enabled), ("format", .str c.format.name),
    ("show_spans", .bool c.showSpans), ("show_target", .bool c.showTarget),
    ("show_thread_ids", .bool c.showThreadIds)]

end Console

/-- The output to the system's journal. -/
structure Journal where
  enabled : Bool := false
  identifier : String := "skylink"
  deriving DecidableEq, Repr, Inhabited

namespace Journal

def ofDatum? (d : Datum) : Option Journal := do
  let fs ← d.fields? ["enabled", "identifier"]
  return {
    enabled := ← fs.defaulted "enabled" false Datum.bool?
    identifier := ← fs.defaulted "identifier" "skylink" Datum.text? }

def toJson (j : Journal) : Json := .obj [("enabled", .bool j.enabled), ("identifier", .str j.identifier)]

def failures (j : Journal) : List Failure :=
  checkLength j.identifier 1 none "identifier" "Journald identifier must not be empty"

end Journal

/-- Logging settings. -/
structure Logging where
  level : String := "info"
  console : Option Console := some {}
  journal : Option Journal := some {}
  deriving DecidableEq, Repr, Inhabited

/-- Where log events go. -/
inductive LogOutput where
  | console
  | journal
  deriving DecidableEq, Repr

/-- Why no log can be set up. -/
inductive LoggingError where
  | invalid (failures : List Failure)
  | noOutput
  /-- The journal was asked for beside the console and is not there. -/
  | journalFailed
  deriving DecidableEq, Repr

namespace LoggingError

def kind : LoggingError → String
  | .invalid _ => "ValidationError"
  | .noOutput => "NoLayersConfigured"
  | .journalFailed => "JournaldFailedWithConsoleEnabled"

def message : LoggingError → String
  | .invalid failures => "Invalid logger section: " ++ "\n".intercalate (failures.map Failure.display)
  | .noOutput => "Neither console nor journald output is enabled"
  | .journalFailed => "Failed to initialize the journald logger while console output is enabled"

end LoggingError

namespace Logging

def levels : List String := ["trace", "debug", "info", "warn", "error"]

def consoleEnabled (l : Logging) : Bool := l.console.any (·.enabled)

def journalEnabled (l : Logging) : Bool := l.journal.any (·.enabled)

def ofDatum? (d : Datum) : Option Logging := do
  let fs ← d.fields? ["level", "console", "journald"]
  return {
    level := ← fs.defaulted "level" "info" Datum.text?
    console := ← fs.defaulted "console" (some {}) (Datum.orNull Console.ofDatum?)
    journal := ← fs.defaulted "journald" (some {}) (Datum.orNull Journal.ofDatum?) }

def toJson (l : Logging) : Json :=
  .obj [("console", (l.console.map Console.toJson).getD .null),
    ("journald", (l.journal.map Journal.toJson).getD .null), ("level", .str l.level)]

/-- The settings that are out of bounds. A level counts in any case; the names of the levels have no letter
that only a letter outside ASCII has as its lower case. -/
def failures (l : Logging) : List Failure :=
  Failure.sort <|
    check (levels.contains (l.level.map Char.toLower)) "level" "invalid_log_level"
      ("Invalid log level: " ++ l.level) ++
    (match l.journal with
      | none => []
      | some j => j.failures.map (·.within "journald"))

/-- The outputs that come up, where the journal is there or not. -/
def outputs (journalThere : Bool) (l : Logging) : Except LoggingError (List LogOutput) :=
  if l.failures.isEmpty then
    if l.journalEnabled ∧ ¬journalThere ∧ l.consoleEnabled then .error .journalFailed
    else
      match (if l.consoleEnabled then [LogOutput.console] else []) ++
          (if l.journalEnabled && journalThere then [LogOutput.journal] else []) with
      | [] => .error .noOutput
      | outputs => .ok outputs
  else .error (.invalid l.failures)

end Logging

end HubDevice.Config
