import HubDevice.Concurrent.Inbox
import HubDevice.Json.Parser
import HubDevice.Mqtt.Packet
import HubDevice.Session.Closed
import HubDevice.Topic.Name

/-!
# Routing what arrives

A message that arrives is an answer about the twin, a method call, a patch of desired properties, a module
input or a message from the cloud, as its topic says. Answers about the twin go to the request with the same
id; everything else goes into one of two bounded queues, and is lost when there is no room in it.
-/

namespace HubDevice.Mqtt

/-- An answer about the twin. -/
structure TwinReply where
  status : Nat
  version : Option Int
  payload : Octets
  deriving DecidableEq

/-- What a request about the twin is told in the end: the answer, or that there will be none. -/
inductive Letter where
  | reply (r : TwinReply)
  | abandoned
  deriving DecidableEq

/-- The end of a session, and the requests about the twin that were made on it. -/
structure Router where
  closed : ClosedNotice := .pending
  /-- The ids on which an answer is waited for, with the numbers of their requests. -/
  pending : List (String × Nat) := []
  /-- Letters, by the numbers of the requests that they are for. -/
  letters : List (Nat × Letter) := []

/-- The queues that all sessions of a device share. -/
structure Queues where
  requests : Inbox IncomingRequest
  c2d : Inbox Message

namespace Router

def isClosed (r : Router) : Bool := r.closed.isGiven

/-- Puts a letter out. -/
def tell (r : Router) (request : Nat) (l : Letter) : Router := { r with letters := r.letters ++ [(request, l)] }

/-- The request that waits on an id. -/
def waiting? (r : Router) (id : String) : Option Nat := (r.pending.find? fun p => p.1 = id).map (·.2)

/-- Nobody waits on an id any more. -/
def forget (r : Router) (id : String) : Router :=
  { r with pending := r.pending.filter fun p => p.1 ≠ id }

/-- Waits on an id; whoever waited on it before waits in vain. -/
def register (r : Router) (id : String) (request : Nat) : Router :=
  let r := match r.waiting? id with
    | none => r
    | some old => (r.forget id).tell old .abandoned
  { r with pending := r.pending ++ [(id, request)] }

/-- Ends the session and tells everybody who waits for an answer. -/
def close (r : Router) (cause : CloseCause) : Router :=
  { closed := (r.closed.notify cause).1
    pending := []
    letters := r.letters ++ r.pending.map fun p => (p.2, .abandoned) }

/-- The letter for a request, if there is one. -/
def letter? (r : Router) (request : Nat) : Option Letter :=
  (r.letters.find? fun p => p.1 = request).map (·.2)

/-- Hands an answer about the twin over. -/
def resolve (r : Router) (id : String) (reply : TwinReply) : Router :=
  match r.waiting? id with
  | none => r
  | some request => (r.forget id).tell request (.reply reply)

end Router

/-- What a message that arrived leads to. -/
inductive Routed where
  | twinReply (id : String) (reply : TwinReply)
  | request (r : IncomingRequest)
  | c2d (m : Message)
  /-- It is of no interest, or malformed. -/
  | ignored

/-- What a message on a topic is. -/
def Routed.ofPublish (x : Identity) (p : Publish) : Routed :=
  match Topic.twinResponse? p.topic with
  | some t => .twinReply t.requestId ⟨t.status, t.version, p.payload⟩
  | none =>
    match Topic.method? p.topic p.payload with
    | some call => .request (.method call)
    | none =>
      match Topic.desired? p.topic with
      | some version =>
        match Json.parse? p.payload with
        | some (.obj patch) => .request (.desired version patch)
        | _ => .ignored
      | none =>
        match x.moduleInput? p.topic p.payload with
        | some r => .request r
        | none =>
          match x.c2d? p.topic p.payload with
          | some m => .c2d m
          | none => .ignored

/-- Hands over what arrived. -/
def Routed.deliver (r : Router) (q : Queues) : Routed → Router × Queues
  | .twinReply id reply => (r.resolve id reply, q)
  | .request x => (r, { q with requests := (q.requests.offer x).1 })
  | .c2d m => (r, { q with c2d := (q.c2d.offer m).1 })
  | .ignored => (r, q)

/-- Routes a message that arrived. -/
def route (x : Identity) (r : Router) (q : Queues) (p : Publish) : Router × Queues :=
  (Routed.ofPublish x p).deliver r q

end HubDevice.Mqtt
