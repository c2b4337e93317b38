import HubDevice.Message
import HubDevice.Error
import HubDevice.Status
import HubDevice.Session.Cause

/-!
# The transport as seen from the client

The client asks its transport to create sessions and to do things on them, and the transport answers
each call when it likes. `Wire` records the sessions, the calls that are not settled yet and the
history of everything that happened. Who answers is left open: a script, a broker or any environment.
-/

namespace HubDevice

/-- Sessions are numbered in the order of their creation, from zero. -/
abbrev SessionId := Nat

/-- Calls are numbered in the order in which they were made, from zero. -/
abbrev CallId := Nat

/-- What can be done with a message that was locked on receipt. -/
inductive Settlement where
  | complete
  | abandon
  | reject
  deriving DecidableEq, Repr

/-- A call on an open session that exchanges data. -/
inductive DataCall where
  | send (message : Message)
  | receive
  | respond (response : MethodResponse)
  | getTwin
  | patchTwin (reported : TwinCollection)
  | settle (how : Settlement) (lockToken : String)

/-- A call of the transport. -/
inductive Request where
  | create
  /-- `cancelled` says whether the caller's token had fired already. -/
  | connect (session : SessionId) (cancelled : Bool)
  | close (session : SessionId)
  | refresh (session : SessionId)
  | subscribe (session : SessionId) (channel : Channel)
  | unsubscribe (session : SessionId) (channel : Channel)
  | data (session : SessionId) (call : DataCall)

/-- What a successful call brings. -/
inductive Reply where
  | done
  | session (id : SessionId)
  | message (m : Message)
  | twin (t : Twin)
  | version (n : Int)
  deriving Inhabited

/-- How the transport answers a call. -/
abbrev Outcome := Except TransportError Reply

/-- What happened: a call was made, a call was answered, a status was reported. -/
inductive Event where
  | called (call : CallId) (request : Request)
  | answered (call : CallId) (request : Request) (outcome : Outcome)
  | reported (status : Status)

/-- A call that is not settled yet. -/
structure PendingCall where
  id : CallId
  request : Request
  answer : Option Outcome := none

/-- Sessions, unsettled calls and history. -/
structure Wire where
  /-- Why each session ended, if it has. -/
  sessions : List (Option CloseCause) := []
  calls : List PendingCall := []
  /-- How many calls were made so far. -/
  issued : Nat := 0
  /-- The newest event comes first. -/
  trace : List Event := []
  deriving Inhabited

namespace Wire

/-- Whether a session has ended. A session that does not exist has. -/
def ended (w : Wire) (s : SessionId) : Bool :=
  match w.sessions[s]? with
  | some none => false
  | _ => true

/-- Why a session ended. -/
def cause? (w : Wire) (s : SessionId) : Option CloseCause := w.sessions[s]?.join

/-- Ends a session; the first cause stands. -/
def endSession (w : Wire) (s : SessionId) (cause : CloseCause) : Wire :=
  { w with sessions := w.sessions.modify s fun c => c.or (some cause) }

def record (w : Wire) (e : Event) : Wire := { w with trace := e :: w.trace }

/-- Makes a call. A session ends as soon as it is asked to close. -/
def call (w : Wire) (r : Request) : Wire × CallId :=
  let w := match r with
    | .close s => w.endSession s .closedLocally
    | _ => w
  ({ w with
      calls := w.calls ++ [{ id := w.issued, request := r }]
      issued := w.issued + 1
      trace := .called w.issued r :: w.trace },
    w.issued)

/-- The outcome of a call as its caller sees it: a successful creation brings the new session. -/
def bring (w : Wire) (r : Request) (o : Outcome) : Outcome :=
  match r, o with
  | .create, .ok _ => .ok (.session w.sessions.length)
  | _, o => o

/-- The sessions after a call was answered. -/
def sessionsAfter (w : Wire) (r : Request) (o : Outcome) : List (Option CloseCause) :=
  match r, o with
  | .create, .ok _ => w.sessions ++ [none]
  | _, _ => w.sessions

/-- Answers a call, once. -/
def answer (w : Wire) (id : CallId) (o : Outcome) : Wire :=
  match w.calls.find? fun c => c.id = id ∧ c.answer.isNone with
  | none => w
  | some c =>
    { w with
      sessions := w.sessionsAfter c.request o
      calls := w.calls.map fun d => if d.id = id then { d with answer := some (w.bring c.request o) } else d
      trace := .answered id c.request (w.bring c.request o) :: w.trace }

/-- Nobody waits for a call any more. -/
def abandon (w : Wire) (id : CallId) : Wire :=
  { w with calls := w.calls.filter fun c => c.id ≠ id }

/-- Takes the answer of a call, when there is one. -/
def take? (w : Wire) (id : CallId) : Option (Wire × Outcome) := do
  let c ← w.calls.find? fun c => c.id = id
  return (w.abandon id, ← c.answer)

end Wire

end HubDevice
