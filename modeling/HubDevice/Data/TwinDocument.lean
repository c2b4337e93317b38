import HubDevice.Data.Datum
import HubDevice.Message

/-!
# Reading twin documents

A twin document has two sections, desired and reported, each of them an object; a section that is missing is
empty.
-/

namespace HubDevice

/-- The properties that a datum holds, sorted by name. -/
def TwinCollection.ofDatum? (d : Datum) : Option TwinCollection := do
  return Json.sortMembers (Json.canonicalMembers (← d.members?))

/-- The twin document that a datum holds. -/
def Twin.ofDatum? (d : Datum) : Option Twin := do
  let fs ← d.fields? ["desired", "reported"]
  return ⟨← fs.defaulted "desired" [] TwinCollection.ofDatum?, ← fs.defaulted "reported" [] TwinCollection.ofDatum?⟩

end HubDevice
