import HubDevice.Concurrent.Progress
import HubDevice.Session.Wire
import HubDevice.Span

/-!
# The session slot

`Handler` owns the current session. Opening discards the session in the slot, asks the transport for a
new one, opens it and puts it there; closing empties the slot and closes what was in it. While a
session is in the slot a refresher renews its credentials at a fixed interval, when there is one.
Every other operation is forwarded to the session in the slot.
-/

namespace HubDevice

/-- Where a refresher stands. -/
inductive RefreshPhase where
  /-- About to wait for the next refresh. -/
  | ready
  | waiting (deadline : Nat)
  | refreshing (call : CallId)
  | ended
  deriving DecidableEq

/-- Renews the credentials of one session until it is stopped or the session ends. -/
structure Refresher where
  session : SessionId
  stopped : Bool := false
  phase : RefreshPhase := .ready

/-- The session slot and its refreshers. -/
structure Handler where
  wire : Wire := {}
  /-- The time in milliseconds. -/
  now : Nat := 0
  /-- The session in the slot. -/
  slot : Option SessionId := none
  /-- How often credentials are renewed. -/
  interval : Option Span := none
  /-- All refreshers that were ever started. -/
  refreshers : List Refresher := []
  /-- The refresher that can still be stopped. -/
  refresher : Option Nat := none
  deriving Inhabited

namespace Handler

/-- A handler that renews credentials at an interval; an interval of zero counts as none. -/
def withInterval (interval : Option Span) : Handler := { interval := interval.filter fun s => !s.isZero }

/-! ## Refreshing credentials -/

def stopRefresher (h : Handler) : Handler :=
  match h.refresher with
  | none => h
  | some i =>
    { h with
      refreshers := h.refreshers.modify i fun r => { r with stopped := true }
      refresher := none }

/-- Starts a refresher for a session, in place of the one before. -/
def startRefresher (h : Handler) (s : SessionId) : Handler :=
  match h.interval with
  | none => h
  | some _ =>
    let h := h.stopRefresher
    { h with refreshers := h.refreshers ++ [{ session := s }], refresher := some h.refreshers.length }

/-- One step of a refresher. -/
def advanceRefresher (h : Handler) (r : Refresher) : Option (Handler × Refresher) :=
  match r.phase with
  | .ready =>
    if r.stopped ∨ h.wire.ended r.session then some (h, { r with phase := .ended })
    else some (h, { r with phase := .waiting ((h.interval.getD .zero).deadline h.now) })
  | .waiting deadline =>
    if r.stopped ∨ h.wire.ended r.session then some (h, { r with phase := .ended })
    else if deadline ≤ h.now then
      let (wire, call) := h.wire.call (.refresh r.session)
      some ({ h with wire }, { r with phase := .refreshing call })
    else none
  | .refreshing call =>
    match h.wire.take? call with
    | none => none
    | some (wire, _) => some ({ h with wire }, { r with phase := .ready })
  | .ended => none

/-- One step of the refresher with a number. -/
def stepRefresher (h : Handler) (i : Nat) : Option Handler := do
  let r ← h.refreshers[i]?
  let (h, r) ← h.advanceRefresher r
  return { h with refreshers := h.refreshers.set i r }

/-! ## Calls -/

/-- Makes a call of the transport. -/
def call (h : Handler) (r : Request) : Handler × CallId :=
  let (wire, id) := h.wire.call r
  ({ h with wire }, id)

/-- Takes the answer of a call, when there is one. -/
def take? (h : Handler) (id : CallId) : Option (Handler × Outcome) :=
  (h.wire.take? id).map fun p => ({ h with wire := p.1 }, p.2)

/-- Nobody waits for a call any more. -/
def abandon (h : Handler) (id : CallId) : Handler := { h with wire := h.wire.abandon id }

end Handler

/-! ## Opening -/

/-- Where an opening stands. -/
inductive Opening where
  | start
  /-- Closes the session that was in the slot. -/
  | discarding (call : CallId)
  | creating (call : CallId)
  | connecting (session : SessionId) (call : CallId)
  deriving DecidableEq

namespace Opening

/-- Asks for a new session. -/
def create (h : Handler) : Step Handler Opening (Except ClientError Unit) :=
  let (h, call) := h.call .create
  some (h, .more (.creating call))

/-- One step of an opening. A session that cannot be closed properly is discarded all the same. What
follows an answer follows at once: a session that was opened is in the slot. -/
def step (cancelled : Bool) (h : Handler) : Opening → Step Handler Opening (Except ClientError Unit)
  | .start =>
    let h := h.stopRefresher
    match h.slot with
    | none => create h
    | some s =>
      let (h, call) := { h with slot := none }.call (.close s)
      some (h, .more (.discarding call))
  | .discarding call =>
    match h.take? call with
    | none => none
    | some (h, _) => create h
  | .creating call =>
    match h.take? call with
    | none => none
    | some (h, .ok (.session s)) =>
      let (h, call) := h.call (.connect s cancelled)
      some (h, .more (.connecting s call))
    | some (h, .ok _) => create h
    | some (h, .error e) => some (h, .done (.error (.transport e)))
  | .connecting s call =>
    match h.take? call with
    | none => none
    | some (h, .ok _) => some ({ h with slot := some s }.startRefresher s, .done (.ok ()))
    | some (h, .error e) => some (h, .done (.error (.transport e)))

/-- Gives an opening up. -/
def abandon (h : Handler) : Opening → Handler
  | .start => h
  | .discarding call | .creating call | .connecting _ call => h.abandon call

end Opening

/-! ## Closing -/

/-- Where a closing stands. -/
inductive Closing where
  | start
  | closing (call : CallId)
  deriving DecidableEq

/-- One step of a closing. -/
def Closing.step (h : Handler) : Closing → Step Handler Closing (Except ClientError Unit)
  | .start =>
    let h := h.stopRefresher
    match h.slot with
    | none => some (h, .done (.ok ()))
    | some s =>
      let (h, call) := { h with slot := none }.call (.close s)
      some (h, .more (.closing call))
  | .closing call =>
    (h.take? call).map fun p => (p.1, .done (match p.2 with
      | .ok _ => .ok ()
      | .error e => .error (.transport e)))

/-! ## Forwarding -/

/-- The session in the slot, for an operation that needs one. -/
def Handler.current (h : Handler) : Except ClientError SessionId :=
  match h.slot with
  | none => .error (.transport (.sessionClosed "no active session"))
  | some s => .ok s

/-- Where the opening or closing of a channel stands. The session is read once, at the start. -/
inductive Subscribing where
  | start (on : Bool) (channel : Channel)
  | waiting (call : CallId)
  deriving DecidableEq

namespace Subscribing

/-- The call that opens or closes a channel of a session. -/
def request (on : Bool) (s : SessionId) (c : Channel) : Request :=
  if on then .subscribe s c else .unsubscribe s c

/-- One step of opening or closing a channel. -/
def step (h : Handler) : Subscribing → Step Handler Subscribing (Except ClientError Unit)
  | .start on c =>
    match h.current with
    | .error e => some (h, .done (.error e))
    | .ok s =>
      let (h, call) := h.call (request on s c)
      some (h, .more (.waiting call))
  | .waiting call =>
    match h.take? call with
    | none => none
    | some (h, .ok _) => some (h, .done (.ok ()))
    | some (h, .error e) => some (h, .done (.error (.transport e)))

/-- Gives it up. -/
def abandon (h : Handler) : Subscribing → Handler
  | .start _ _ => h
  | .waiting call => h.abandon call

end Subscribing

/-- An exchange of data over the session in the slot. -/
inductive Exchange where
  | one (call : DataCall)
  /-- Messages sent one after another, until one fails. -/
  | sendMany (messages : List Message)

/-- Where a forwarded exchange stands. The session is read once, at the start. -/
inductive Forward where
  | start (x : Exchange)
  | waiting (call : CallId)
  /-- Has sent a message, with those that are still to follow. -/
  | sending (session : SessionId) (call : CallId) (rest : List Message)

namespace Forward

/-- Sends the next of several messages. -/
def sendNext (h : Handler) (s : SessionId) :
    List Message → Step Handler Forward (Except ClientError Reply)
  | [] => some (h, .done (.ok .done))
  | m :: rest =>
    let (h, call) := h.call (.data s (.send m))
    some (h, .more (.sending s call rest))

/-- One step of a forwarded exchange. -/
def step (h : Handler) : Forward → Step Handler Forward (Except ClientError Reply)
  | .start x =>
    match h.current with
    | .error e => some (h, .done (.error e))
    | .ok s =>
      match x with
      | .one c =>
        let (h, call) := h.call (.data s c)
        some (h, .more (.waiting call))
      | .sendMany ms => sendNext h s ms
  | .waiting call =>
    match h.take? call with
    | none => none
    | some (h, .ok reply) => some (h, .done (.ok reply))
    | some (h, .error e) => some (h, .done (.error (.transport e)))
  | .sending s call rest =>
    match h.take? call with
    | none => none
    | some (h, .ok _) => sendNext h s rest
    | some (h, .error e) => some (h, .done (.error (.transport e)))

/-- Gives a forwarded exchange up. -/
def abandon (h : Handler) : Forward → Handler
  | .start _ => h
  | .waiting call | .sending _ call _ => h.abandon call

end Forward

end HubDevice
