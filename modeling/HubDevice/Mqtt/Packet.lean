import HubDevice.Octets

/-!
# Packets

What a client sends to its broker, and how many octets a PUBLISH packet has: a fixed header of one octet and
the length of the rest in groups of seven bits, the topic after its length in two octets, a packet id of two
octets when the packet is to be acknowledged, and the payload.
-/

namespace HubDevice.Mqtt

/-- Whether a packet is sent once and forgotten, or until it is acknowledged. -/
inductive Qos where
  | atMostOnce
  | atLeastOnce
  deriving DecidableEq, Repr

/-- A message on a topic. -/
structure Publish where
  topic : String
  payload : Octets
  qos : Qos := .atMostOnce
  deriving DecidableEq, Inhabited

/-- What a client asks to be sent. -/
inductive Outgoing where
  | subscribe (filter : String)
  | unsubscribe (filter : String)
  | publish (p : Publish)
  | disconnect
  deriving DecidableEq

/-- How many octets a length is written in. -/
def lengthOctets (n : Nat) : Nat := if n < 128 then 1 else 1 + lengthOctets (n / 128)
termination_by n
decreasing_by omega

namespace Publish

/-- The octets of a packet after its fixed header. -/
def remaining (p : Publish) : Nat :=
  2 + p.topic.utf8ByteSize + (if p.qos = .atLeastOnce then 2 else 0) + p.payload.length

/-- The octets of a packet. -/
def size (p : Publish) : Nat := 1 + lengthOctets p.remaining + p.remaining

end Publish

end HubDevice.Mqtt
