import HubDevice.Concurrent.FairLock
import HubDevice.Credential.Token
import HubDevice.Data.TwinDocument
import HubDevice.Json.Parser
import HubDevice.Mqtt.Driver
import HubDevice.Mqtt.Options
import HubDevice.Session.Wire

/-!
# Sessions over MQTT

A `Station` makes the sessions of one device. It owns the queues of what arrives, so that nothing that was
accepted is lost when a session is replaced by another one. A call on a session is carried out step by step;
whatever it sends is put into the session's outbox, which has a capacity and goes away with the driver.
-/

namespace HubDevice.Mqtt

/-- The sessions of a device and what they share. -/
structure Station where
  identity : Identity
  source : Credential.Source
  setup : Setup
  connectionTimeout : Span
  operationTimeout : Span
  /-- The largest payload to send. -/
  maxPayload : Nat
  /-- The capacity of an outbox. -/
  outboxCapacity : Nat
  queues : Queues
  /-- The right to take messages from the cloud, held by the number of a caller. -/
  turn : FairLock Nat := {}
  sessions : List Session := []
  /-- How many requests about the twin were made. -/
  twinRequests : Nat := 0
  /-- The time in milliseconds. -/
  now : Nat := 0

namespace Station

/-- The station of a device; nothing when the options of its connections are out of the question. -/
def ofConfig (c : Config.Client) (source : Credential.Source) : Option Station := do
  let setup ← Setup.ofConfig c
  let capacity := max c.requestChannelCapacity 1
  return {
    identity := ⟨c.deviceId, c.moduleId⟩
    source, setup
    connectionTimeout := Span.ofSeconds c.connectionTimeout
    operationTimeout := Span.ofSeconds c.operationTimeout
    maxPayload := c.maxPacketSize
    outboxCapacity := c.requestChannelCapacity
    queues := ⟨{ capacity }, { capacity }⟩ }

/-- Makes a session; its token is asked for first, and then its transport is built. -/
def create (st : Station) (fs : Config.Files) (token : Except TransportError Credential.Token) :
    Except TransportError Station := do
  let _ ← token
  let _ ← st.setup.transport fs
  return { st with sessions := st.sessions ++ [{}] }

def session? (st : Station) (i : Nat) : Option Session := st.sessions[i]?

def setSession (st : Station) (i : Nat) (s : Session) : Station := { st with sessions := st.sessions.set i s }

/-- One step of the driver of a session. -/
def drive (st : Station) (i : Nat) : Option Station := do
  let s ← st.session? i
  let (s, queues) ← s.drive st.identity st.queues
  return { st.setSession i s with queues }

/-- When a wait that begins now ends. The clock ticks, and a wait lasts at least until the next tick. -/
def deadline (st : Station) (limit : Span) : Nat := max (st.now + 1) (limit.deadline st.now)

/-- Nobody keeps a session any more. -/
def drop (st : Station) (i : Nat) : Station :=
  match st.session? i with
  | none => st
  | some s => st.setSession i { s with stop := true }

end Station

/-- The filter of a channel; module events need a module. -/
def filter (x : Identity) : Channel → Except TransportError String
  | .methods => .ok Topic.methodsFilter
  | .twinPatch => .ok Topic.desiredFilter
  | .c2dReceive => .ok x.c2dFilter
  | .events _ =>
    match x.inputsFilter? with
    | some f => .ok f
    | none => .error (.unsupported "module events require a module identity")

/-- A request about the twin. -/
inductive TwinCall where
  | get
  | patch (reported : TwinCollection)

namespace TwinCall

/-- What is published for a request with an id. -/
def publish (id : String) : TwinCall → Publish
  | .get => { topic := Topic.twinGet id, payload := [] }
  | .patch reported => { topic := Topic.twinPatch id, payload := Octets.ofText (Json.compact (.obj reported)) }

/-- The twin document that a payload holds. -/
def twinOf? (payload : Octets) : Option Twin := do
  Twin.ofDatum? (← Json.document? payload)

/-- What an answer brings. -/
def outcome (id : String) (r : TwinReply) (c : TwinCall) : Outcome :=
  match TransportError.ofStatus? r.status ("twin request " ++ id) with
  | some e => .error e
  | none =>
    match c with
    | .get =>
      match twinOf? r.payload with
      | some t => .ok (.twin t)
      | none => .error (.protocol "malformed twin document")
    | .patch _ =>
      match r.version with
      | some v => .ok (.version v)
      | none => .error (.protocol "twin patch reply without $version")

end TwinCall

/-- Where a call on a session stands. -/
inductive Phase where
  | opening
  /-- Waits for the connection to be acknowledged. -/
  | awaiting (deadline : Nat)
  | closing
  | disconnecting
  /-- Takes the driver, to wait for it; another call may have taken it. -/
  | takingDriver
  /-- Waits for the driver to end. -/
  | joining (deadline : Nat)
  | leaving
  /-- Makes sure that the session is not over, and sends. -/
  | sending (o : Outgoing)
  | putting (o : Outgoing)
  | askTurn
  | awaitTurn
  | receiving
  | askingTwin (id : String) (c : TwinCall)
  | puttingTwin (id : String) (request : Nat) (c : TwinCall)
  | awaitingTwin (id : String) (request : Nat) (c : TwinCall) (deadline : Nat)
  /-- Makes sure that the session is not over. -/
  | checking
  | finished (outcome : Outcome)

namespace Phase

/-- How long a closing waits for the driver. -/
def grace : Span := Span.ofSeconds 5

def sessionClosed : TransportError := .sessionClosed "MQTT session is closed"

def notAccepted : TransportError := .sessionClosed "MQTT request not accepted"

/-- The text of a timeout of whole seconds. -/
def secondsText (s : Span) : String := if s.isZero then "0ns" else toString s.seconds ++ "s"

/-- The first phase of a call; `id` is the id of a request about the twin. -/
def ofRequest (st : Station) (id : String) : Request → Phase
  | .create => .finished (.error (.unsupported "create"))
  | .connect _ _ => .opening
  | .close _ => .closing
  | .refresh _ => .finished (match st.source.token? 0 with
    | some (.error e) => .error e
    | _ => .ok .done)
  | .subscribe _ c => match filter st.identity c with
    | .ok f => .sending (.subscribe f)
    | .error e => .finished (.error e)
  | .unsubscribe _ c => match filter st.identity c with
    | .ok f => .sending (.unsubscribe f)
    | .error e => .finished (.error e)
  | .data _ (.send m) => .sending (.publish
      { topic := st.identity.telemetryTopic m, payload := m.payload, qos := .atLeastOnce })
  | .data _ .receive => .askTurn
  | .data _ (.respond r) => .sending (.publish
      { topic := Topic.methodResponse r.status r.requestId, payload := r.payload })
  | .data _ .getTwin => .askingTwin id .get
  | .data _ (.patchTwin p) => .askingTwin id (.patch p)
  | .data _ (.settle .complete _) => .checking
  | .data _ (.settle .abandon _) => .finished (.error (.unsupported "MQTT cannot abandon a message"))
  | .data _ (.settle .reject _) => .finished (.error (.unsupported "MQTT cannot reject a message"))

/-- Whether a message is larger than what may be sent. -/
def tooLarge? (st : Station) : Outgoing → Option TransportError
  | .publish p =>
    if p.qos = .atLeastOnce ∧ st.maxPayload < p.payload.length then
      some (.messageTooLarge p.payload.length st.maxPayload)
    else none
  | _ => none

/-- Puts something into the outbox: done, refused, or nothing while there is no room. -/
def put (st : Station) (s : Session) (o : Outgoing) : Option (Except TransportError Session) :=
  if s.driving = .ended then some (.error notAccepted)
  else if s.outbox.length < st.outboxCapacity then some (.ok { s with outbox := s.outbox ++ [o] })
  else none

/-- One step of a call on the session `i` by the caller `n`. -/
def step (cancelled : Bool) (n i : Nat) (st : Station) (s : Session) : Phase → Option (Station × Phase)
  | .opening =>
    if s.driving = .idle then
      some (st.setSession i { s with driving := .running, joinable := true },
        .awaiting (st.deadline st.connectionTimeout))
    else some (st, .finished (.error (.protocol "MQTT session opened twice")))
  | .awaiting deadline =>
    if cancelled then
      some (st.setSession i { s with stop := true }, .finished (.error (.sessionClosed "open cancelled")))
    else match s.acknowledgement with
      | .given (.ok ()) => some (st, .sending (.subscribe Topic.twinResponseFilter))
      | .given (.error e) => some (st, .finished (.error e))
      | .never => some (st, .finished (.error
          (.sessionClosed "driver stopped before the connection was acknowledged")))
      | .awaited =>
        if deadline ≤ st.now then
          some (st.setSession i { s with stop := true },
            .finished (.error (.timeout ("no CONNACK within " ++ secondsText st.connectionTimeout))))
        else none
  | .closing =>
    if s.router.isClosed then some (st.setSession i { s with stop := true }, .finished (.ok .done))
    else some (st, .disconnecting)
  | .disconnecting =>
    match put st s .disconnect with
    | none => none
    | some (.ok s) => some (st.setSession i s, .takingDriver)
    | some (.error _) => some (st, .takingDriver)
  | .takingDriver =>
    if s.joinable then some (st.setSession i { s with joinable := false }, .joining (st.deadline grace))
    else some (st, .leaving)
  | .joining deadline => if s.driving = .ended ∨ deadline ≤ st.now then some (st, .leaving) else none
  | .leaving =>
    some (st.setSession i { s with stop := true, router := s.router.close .closedLocally }, .finished (.ok .done))
  | .checking =>
    some (st, .finished (if s.router.isClosed then .error sessionClosed else .ok .done))
  | .sending o =>
    if s.router.isClosed then some (st, .finished (.error sessionClosed))
    else match tooLarge? st o with
      | some e => some (st, .finished (.error e))
      | none => some (st, .putting o)
  | .putting o =>
    match put st s o with
    | none => none
    | some (.ok s) => some (st.setSession i s, .finished (.ok .done))
    | some (.error e) => some (st, .finished (.error e))
  | .askTurn =>
    if s.router.isClosed then some (st, .finished (.error sessionClosed))
    else some ({ st with turn := st.turn.request n }, .awaitTurn)
  | .awaitTurn => if st.turn.heldBy n then some (st, .receiving) else none
  | .receiving =>
    match s.router.closed.value with
    | some cause => some ({ st with turn := st.turn.release }, .finished (.error (.sessionClosed cause.display)))
    | none =>
      match st.queues.c2d.take? with
      | none => none
      | some (c2d, m) =>
        some ({ st with queues := { st.queues with c2d }, turn := st.turn.release }, .finished (match m with
          | some m => .ok (.message m)
          | none => .error (.sessionClosed "message channel closed")))
  | .askingTwin id c =>
    if s.router.isClosed then some (st, .finished (.error sessionClosed))
    else
      let request := st.twinRequests
      some ({ st.setSession i { s with router := s.router.register id request } with
        twinRequests := request + 1 }, .puttingTwin id request c)
  | .puttingTwin id request c =>
    match put st s (.publish (c.publish id)) with
    | none => none
    | some (.ok s) => some (st.setSession i s, .awaitingTwin id request c (st.deadline st.operationTimeout))
    | some (.error e) => some (st.setSession i { s with router := s.router.forget id }, .finished (.error e))
  | .awaitingTwin id request c deadline =>
    match s.router.letter? request with
    | some (.reply r) => some (st, .finished (c.outcome id r))
    | some .abandoned => some (st, .finished (.error (.sessionClosed "session closed while awaiting twin reply")))
    | none =>
      if deadline ≤ st.now then
        some (st.setSession i { s with router := s.router.forget id },
          .finished (.error (.timeout ("no twin reply for request " ++ id))))
      else none
  | .finished _ => none

/-- The station after the caller `n` has given a call up. What the call has asked for remains asked for. -/
def abandon (n : Nat) (st : Station) : Phase → Station
  | .awaitTurn | .receiving => { st with turn := st.turn.withdraw n }
  | _ => st

end Phase

/-- A call on a session. -/
structure Call where
  session : Nat
  phase : Phase
  cancelled : Bool := false

/-- One step of a call by the caller `n`. -/
def Call.step (n : Nat) (st : Station) (c : Call) : Option (Station × Call) := do
  let s ← st.session? c.session
  let (st, phase) ← c.phase.step c.cancelled n c.session st s
  return (st, { c with phase })

end HubDevice.Mqtt
