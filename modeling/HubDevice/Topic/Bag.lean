import HubDevice.Message
import HubDevice.Text.Percent
import HubDevice.Text.Split

/-!
# Property bags

The properties of a message travel in its topic, as pairs of a name and a value that are joined by
ampersands. Four names that begin with a mark of their own stand for fields of the message; the others are
application properties. Reading a bag passes over pairs that are not text and over marked names it does not
know.
-/

namespace HubDevice.Topic.Bag

/-- The fields of a message that travel under a marked name. -/
def systemFields (m : Message) : List (String × Option String) :=
  [("$.mid", m.messageId), ("$.cid", m.correlationId), ("$.ct", m.contentType), ("$.ce", m.contentEncoding)]

/-- All pairs of a message, in the order in which they are written. -/
def pairs (m : Message) : List (String × String) :=
  (systemFields m).filterMap (fun p => p.2.map fun v => (p.1, v)) ++ m.properties

/-- The written form of a pair. -/
def writePair (p : String × String) : List Char :=
  Text.Percent.encode p.1 ++ '=' :: Text.Percent.encode p.2

/-- Pairs joined by ampersands. -/
def join : List (List Char) → List Char
  | [] => []
  | [p] => p
  | p :: rest => p ++ '&' :: join rest

/-- The bag of a message. -/
def encode (m : Message) : String := String.ofList (join ((pairs m).map writePair))

/-- The pair that a part of a bag spells, if both its sides are text. -/
def readPair? (part : List Char) : Option (String × String) :=
  let (k, v) := (Text.cut? ['='] part).getD (part, [])
  match Text.Percent.decode? k, Text.Percent.decode? v with
  | some k, some v => some (k, v)
  | _, _ => none

/-- Sets what a pair stands for. -/
def set (m : Message) (p : String × String) : Message :=
  if p.1 = "$.mid" then { m with messageId := some p.2 }
  else if p.1 = "$.cid" then { m with correlationId := some p.2 }
  else if p.1 = "$.ct" then { m with contentType := some p.2 }
  else if p.1 = "$.ce" then { m with contentEncoding := some p.2 }
  else if p.1.startsWith "$." then m
  else m.withProperty p.1 p.2

/-- The pairs of a bag that can be read. -/
def read (bag : List Char) : List (String × String) :=
  ((Text.parts '&' bag).filter (!·.isEmpty)).filterMap readPair?

/-- Sets what a bag says on a message. -/
def apply (m : Message) (bag : List Char) : Message := (read bag).foldl set m

end HubDevice.Topic.Bag
