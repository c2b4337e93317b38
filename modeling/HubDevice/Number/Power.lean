/-!
# Powers

Bounds of machine words and units of time are powers of natural numbers and of integers. They are meant to
be computed, so wherever more than one power can be found, the one of the numbers themselves is taken before
the power of a monoid.
-/

namespace HubDevice

/-- The power that numbers have of their own. -/
@[default_instance 20000]
instance (priority := 2000) ownPower {α : Type} [NatPow α] : Pow α Nat := instPowNat

end HubDevice
