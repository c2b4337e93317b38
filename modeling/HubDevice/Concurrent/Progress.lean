/-!
# Resumable computations

Everything that runs beside something else is written as a value that says how far it has come, with
a function that takes it one step further. A step reads and changes a shared state; where the
computation has to wait for another party, there is no step. An interleaving of several computations
is then a sequence of their steps in any order.
-/

namespace HubDevice

/-- What one step of a resumable computation leaves: more of it, or its result. -/
inductive Progress (α β : Type) where
  | more (rest : α)
  | done (result : β)

/-- A step over a shared state `σ`; nothing when the computation has to wait. -/
abbrev Step (σ α β : Type) := Option (σ × Progress α β)

end HubDevice
