import HubDevice.Agent.Random
import HubDevice.Config.Telemetry

/-!
# Simulated readings

A simulator draws readings around configured baselines. It cannot draw from a spread that is negative,
not a number, or so wide that the scale of its samples is not finite.
-/

namespace HubDevice

/-- One reading. -/
structure Reading where
  temperature : Float
  humidity : Float
  deriving Inhabited

namespace Reading

def toDatum (r : Reading) : Datum :=
  .record [("temperature", .float r.temperature), ("humidity", .float r.humidity)]

def toJson (r : Reading) : Json :=
  .obj [("temperature", .float r.temperature), ("humidity", .float r.humidity)]

def ofDatum? (d : Datum) : Option Reading := do
  let fs ← d.fields? ["temperature", "humidity"]
  return ⟨← fs.required "temperature" Datum.float?, ← fs.required "humidity" Datum.float?⟩

end Reading

/-- Draws readings. -/
structure Simulator where
  settings : Config.Telemetry
  source : Random.Source

namespace Simulator

def ofSeed (settings : Config.Telemetry) (seed : UInt64) : Simulator := ⟨settings, .ofSeed seed⟩

/-- The nearest value from 0 to 100; what is not a number stays so. -/
def percentage (x : Float) : Float :=
  if x < 0.0 then 0.0 else if x > 100.0 then 100.0 else x

/-- The next reading; nothing when a spread cannot be drawn from. -/
def next? (s : Simulator) : Option (Reading × Simulator) := do
  let (t, source) ← Random.symmetric? s.settings.temperatureSpread s.source
  let (h, source) ← Random.symmetric? s.settings.humiditySpread source
  return (⟨s.settings.temperatureBaseline + t, percentage (s.settings.humidityBaseline + h)⟩,
    { s with source })

/-- Whether a reading raises an alert. -/
def alerts (s : Simulator) (r : Reading) : Bool := r.temperature > s.settings.temperatureAlert

/-- The next reading, with whether it raises an alert. -/
def draw? (s : Simulator) : Option ((Reading × Bool) × Simulator) := s.next?.map fun p => ((p.1, p.2.alerts p.1), p.2)

end Simulator

end HubDevice
