import HubDevice.Config.Failure
import HubDevice.Data.Datum
import HubDevice.Span

/-!
# Telemetry settings

How readings are simulated and how often they are published. The bounds of a setting are checked by what is
outside of them, so that a setting that is not a number passes.
-/

namespace HubDevice.Config

/-- How readings are simulated and when they are published. -/
structure Telemetry where
  /-- Seconds between two readings. -/
  interval : Nat := 10
  temperatureBaseline : Float := 20
  temperatureSpread : Float := 15
  humidityBaseline : Float := 60
  humiditySpread : Float := 20
  /-- Temperatures above this one raise an alert. -/
  temperatureAlert : Float := 30
  deriving Inhabited

/-- A number must not be below a bound, nor above another one if there is one. -/
def checkBounds (x least : Float) (most : Option Float) (path message : String) : List Failure :=
  check (!(x < least || most.any fun m => x > m)) path "range" message

namespace Telemetry

/-- The time between two readings. -/
def period (t : Telemetry) : Span := Span.ofSeconds t.interval

def ofDatum? (d : Datum) : Option Telemetry := do
  let fs ← d.fields? ["interval", "temperature_baseline", "temperature_spread", "humidity_baseline",
    "humidity_spread", "temperature_alert"]
  let std : Telemetry := {}
  let number (name : String) (default : Float) := fs.defaulted name default Datum.float?
  return {
    interval := ← fs.defaulted "interval" std.interval (Datum.natBelow? (2 ^ 64))
    temperatureBaseline := ← number "temperature_baseline" std.temperatureBaseline
    temperatureSpread := ← number "temperature_spread" std.temperatureSpread
    humidityBaseline := ← number "humidity_baseline" std.humidityBaseline
    humiditySpread := ← number "humidity_spread" std.humiditySpread
    temperatureAlert := ← number "temperature_alert" std.temperatureAlert }

def toJson (t : Telemetry) : Json :=
  .obj [("humidity_baseline", .float t.humidityBaseline), ("humidity_spread", .float t.humiditySpread),
    ("interval", .int t.interval), ("temperature_alert", .float t.temperatureAlert),
    ("temperature_baseline", .float t.temperatureBaseline),
    ("temperature_spread", .float t.temperatureSpread)]

def failures (t : Telemetry) : List Failure :=
  checkSection
    (checkRange t.interval 1 86400 "interval" "Telemetry interval must be between 1 second and 1 day" ++
      checkBounds t.temperatureSpread 0 none "temperature_spread"
        "Temperature spread must not be negative" ++
      checkBounds t.humidityBaseline 0 (some 100) "humidity_baseline" "Humidity must be a percentage" ++
      checkBounds t.humiditySpread 0 none "humidity_spread" "Humidity spread must not be negative")
    (check (!(t.temperatureAlert ≤ t.temperatureBaseline - t.temperatureSpread)) "__all__"
      "alert_threshold" "temperature_alert is below every possible reading")

end Telemetry

end HubDevice.Config
