/-!
# Tasks that have ended

How a task of the agent can end, and what is left of it for whoever waited for it.
-/

namespace HubDevice

/-- How a task ended. -/
inductive TaskEnd (α : Type) where
  | finished (a : α)
  /-- It broke down. -/
  | failed
  | aborted

/-- What a task left. -/
def TaskEnd.output? {α : Type} : TaskEnd α → Option α
  | .finished a => some a
  | .failed | .aborted => none

end HubDevice
