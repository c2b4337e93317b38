import HubDevice.Concurrent.Watched
import HubDevice.Span

/-!
# The telemetry interval

The time between two readings, shared between the loop that publishes and the commands that change it.
-/

namespace HubDevice

/-- The telemetry interval. -/
abbrev Interval := Watched Span

namespace Interval

/-- Sets the interval; watchers see a change only if it is another one. -/
def change (i : Interval) (s : Span) : Interval := if i.value = s then i else i.set s

end Interval

end HubDevice
