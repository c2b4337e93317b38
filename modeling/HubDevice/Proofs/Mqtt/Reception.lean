import HubDevice.Proofs.Device.Happening
import HubDevice.Proofs.Mqtt.Call

/-!
# What arrives while sessions come and go

A station makes one session after another for the same device, and all of them put what arrives into the same two
queues. A reception is the station with the device that takes the requests and with the calls on its sessions, some of
which take messages from the cloud. In every step both queues move as what was accepted and what was returned in it say
(`moves_after`), so that in every run what was returned is the beginning of what was accepted (`received_in_order`).
-/

namespace HubDevice.Mqtt

/-! ## What a driver hands over -/

/-- What the driver of a session hands over in its next step. -/
def Session.routed (x : Identity) (s : Session) : Routed :=
  match s.driving, s.stop, s.events with
  | .running, false, .arrived p :: _ => Routed.ofPublish x p
  | _, _, _ => .ignored

/-- The queues after something was handed over. -/
def Routed.queues (q : Queues) (rt : Routed) : Queues := (rt.deliver {} q).2

theorem Routed.deliver_queues (r : Router) (q : Queues) (rt : Routed) : (rt.deliver r q).2 = rt.queues q := by
  cases rt <;> rfl

theorem Session.queues_drive {x : Identity} {q q' : Queues} {s s' : Session} (h : s.drive x q = some (s', q')) :
    q' = (s.routed x).queues q := by
  unfold drive at h
  unfold routed
  cases hd : s.driving with
  | idle | ended =>
    rw [hd] at h
    cases h
  | failing e | ending cause =>
    rw [hd] at h
    cases h
    rfl
  | running =>
    rw [hd] at h
    cases hs : s.stop with
    | true =>
      rw [hs] at h
      cases h
      rfl
    | false =>
      rw [hs] at h
      dsimp only at h
      cases he : s.events with
      | nil =>
        rw [he] at h
        cases h
      | cons e rest =>
        rw [he] at h
        cases e with
        | arrived p =>
          cases h
          exact Routed.deliver_queues _ _ _
        | acknowledged code => cases code <;> cases h <;> rfl
        | dismissed | leftHub | other | failed =>
          cases h
          rfl

/-! ## What a call takes -/

/-- A call takes a message from the cloud just when it ends with one. -/
theorem Phase.queues_step {cancelled : Bool} {n i : Nat} {st st' : Station} {s : Session} {ph ph' : Phase}
    (h : ph.step cancelled n i st s = some (st', ph')) :
    (st'.queues = st.queues ∧ ph'.returned = []) ∨
      ∃ c2d m, st.queues.c2d.take? = some (c2d, some m) ∧ st'.queues = { st.queues with c2d } ∧
        ph'.returned = [m] := by
  cases turn_of_step h with
  | stood _ hnone | touched _ _ hnone => exact .inl ⟨rfl, hnone⟩
  | took htake => exact .inr ⟨_, _, htake, rfl, rfl⟩

theorem Station.create_eq_ok {st st' : Station} {fs : Config.Files} {token : Except TransportError Credential.Token}
    (h : st.create fs token = .ok st') : st' = { st with sessions := st.sessions ++ [{}] } := by
  unfold create at h
  cases token with
  | error e => cases h
  | ok token =>
    cases ht : st.setup.transport fs with
    | error e =>
      rw [ht] at h
      cases h
    | ok t =>
      rw [ht] at h
      cases h
      rfl

theorem Station.drive_eq_some {st st' : Station} {i : Nat} (h : st.drive i = some st') :
    ∃ s s' q, st.session? i = some s ∧ s.drive st.identity st.queues = some (s', q) ∧
      st' = { st.setSession i s' with queues := q } := by
  unfold drive at h
  simp only [Option.bind_eq_bind, Option.bind_eq_some_iff] at h
  obtain ⟨s, hs, ⟨s', q⟩, hdrive, hst⟩ := h
  cases hst
  exact ⟨s, s', q, hs, hdrive, rfl⟩

theorem Station.queues_drop (st : Station) (i : Nat) : (st.drop i).queues = st.queues := by
  unfold drop
  split <;> rfl

end HubDevice.Mqtt

namespace HubDevice

namespace Device

/-- The request that an operation has ended with, if it has. -/
def Task.returned : Task → List IncomingRequest
  | .ended (.ok (.request (some q))) => [q]
  | _ => []

/-- A move of an operation takes a request just when the operation ends with it. -/
theorem Task.Turn.moves {d d' : Device} {token : Nat} {t t' : Task} (h : Task.Turn token d t d' t') :
    Inbox.Moves d.requests [] t'.returned d'.requests := by
  cases h
  case received r htake =>
    cases r with
    | none => exact .take htake
    | some q => exact .take htake
  case left r _ | noticed r | closed r =>
    cases r <;> exact .refl _
  all_goals exact .refl _

theorem requests_abandon {d d' : Device} {i : Nat} {kernel : Kernel} (h : d.abandon i kernel = some d') :
    d'.requests = d.requests := by
  obtain ⟨o, -, h⟩ := Option.bind_eq_some_iff.mp h
  obtain ⟨⟨d₁, t⟩, ht, he⟩ := Option.bind_eq_some_iff.mp h
  cases he
  unfold Task.abandon at ht
  split at ht <;> cases ht <;> rfl

end Device

/-- A device and the station that makes its sessions, with the calls on them; a call that was given up is none. -/
structure Reception where
  station : Mqtt.Station
  device : Device
  calls : List (Option Mqtt.Call) := []

namespace Reception

open Mqtt

/-- A device that takes over the requests of a new station. -/
def start (st : Station) (d : Device) : Reception where
  station := st
  device := { d with requests := st.queues.requests }

/-- The station with the queue from which the device takes its requests. -/
def shared (r : Reception) : Station := { r.station with queues.requests := r.device.requests }

/-- What the station makes of the queues is what the device finds. -/
def withStation (r : Reception) (st : Station) : Reception :=
  { r with station := st, device := { r.device with requests := st.queues.requests } }

/-- What can happen where requests and messages are received. -/
inductive Happening where
  | create (fs : Config.Files) (token : Except TransportError Credential.Token)
  /-- Something happens on the connection of a session. -/
  | arrive (session : Nat) (e : Mqtt.Event)
  | drive (session : Nat)
  /-- Nobody keeps a session any more. -/
  | release (session : Nat)
  | call (session : Nat) (id : String) (request : Request)
  | step (n : Nat)
  | cancel (n : Nat)
  /-- A call is given up where it waits. -/
  | abandon (n : Nat)
  | pass (ms : Nat)
  /-- No session is left, and none will be made. -/
  | hangUp
  /-- Nobody is left to take messages from the cloud. -/
  | leave
  | device (x : Device.Happening)

/-- One step of the call with a number. -/
def stepCall (r : Reception) (n : Nat) : Option Reception := do
  let c ← (← r.calls[n]?)
  let (st, c) ← c.step n r.shared
  return { r.withStation st with calls := r.calls.set n (some c) }

/-- The call with a number is given up. -/
def abandon (r : Reception) (n : Nat) : Option Reception := do
  let c ← (← r.calls[n]?)
  return { r with station := c.phase.abandon n r.station, calls := r.calls.set n none }

/-- What a happening makes of a reception; nothing when it cannot happen. Only sessions offer requests to the
device. -/
def after (r : Reception) : Happening → Option Reception
  | .create fs token => match r.station.create fs token with
    | .ok st => some { r with station := st }
    | .error _ => some r
  | .arrive i e => (r.station.session? i).map fun s =>
      { r with station := r.station.setSession i { s with events := s.events ++ [e] } }
  | .drive i => (r.shared.drive i).map r.withStation
  | .release i => some { r with station := r.station.drop i }
  | .call i id request => some { r with calls := r.calls ++ [some ⟨i, .ofRequest r.station id request, false⟩] }
  | .step n => r.stepCall n
  | .cancel n => some { r with calls := r.calls.modify n (·.map fun c => { c with cancelled := true }) }
  | .abandon n => r.abandon n
  | .pass ms => some { r with station := { r.station with now := r.station.now + ms } }
  | .hangUp => some { r with
      station := { r.station with queues.c2d := r.station.queues.c2d.hangUp }
      device := { r.device with requests := r.device.requests.hangUp } }
  | .leave => some { r with station := { r.station with queues.c2d.receiverGone := true } }
  | .device (.arrive _) | .device .hangUp => none
  | .device x => (r.device.after x).map fun device => { r with device }

/-! ## What was accepted and returned -/

/-- What a session hands over in a step. -/
def routed : Reception × Happening → Routed
  | (r, .drive i) => match r.station.session? i with
    | some s => s.routed r.station.identity
    | none => .ignored
  | _ => .ignored

/-- The request that is accepted in a step. -/
def acceptedRequest (x : Reception × Happening) : List IncomingRequest :=
  match routed x with
  | .request q => if (x.1.device.requests.offer q).2 then [q] else []
  | _ => []

/-- The message from the cloud that is accepted in a step. -/
def acceptedMessage (x : Reception × Happening) : List Message :=
  match routed x with
  | .c2d m => if (x.1.station.queues.c2d.offer m).2 then [m] else []
  | _ => []

/-- The request that a wait of the device returns in a step. -/
def returnedRequest : Reception × Happening → List IncomingRequest
  | (r, .device (.step i)) => match (r.device.stepTask i).bind (·.tasks[i]?) with
    | some o => o.task.returned
    | none => []
  | _ => []

/-- The message that a call returns in a step. -/
def returnedMessage : Reception × Happening → List Message
  | (r, .step n) => match (r.stepCall n).bind (·.calls[n]?) with
    | some (some c) => c.phase.returned
    | _ => []
  | _ => []

variable {r r' : Reception} {e : Happening}

theorem stepCall_eq_some {n : Nat} (h : r.stepCall n = some r') :
    ∃ c s st ph, r.calls[n]? = some (some c) ∧ r.shared.session? c.session = some s ∧
      c.phase.step c.cancelled n c.session r.shared s = some (st, ph) ∧
      r' = { r.withStation st with calls := r.calls.set n (some { c with phase := ph }) } := by
  unfold stepCall Call.step at h
  simp only [Option.bind_eq_bind, Option.bind_eq_some_iff] at h
  obtain ⟨_, hc, c, rfl, ⟨st, c'⟩, ⟨s, hs, ⟨st', ph⟩, hph, hcall⟩, he⟩ := h
  cases hcall
  cases he
  exact ⟨c, s, _, ph, hc, hs, hph, rfl⟩

/-- Giving a call up gives at most its turn to receive up. -/
theorem abandon_eq_some {n : Nat} (h : r.abandon n = some r') :
    ∃ turn calls, r' = { r with station := { r.station with turn }, calls } := by
  unfold abandon at h
  simp only [Option.bind_eq_bind, Option.bind_eq_some_iff] at h
  obtain ⟨_, -, c, rfl, he⟩ := h
  cases he
  cases c.phase <;> exact ⟨_, _, rfl⟩

/-- A session is made, or it could not be made. -/
theorem create_eq_some {fs : Config.Files} {token : Except TransportError Credential.Token}
    (h : r.after (.create fs token) = some r') :
    r' = r ∨ r' = { r with station := { r.station with sessions := r.station.sessions ++ [{}] } } := by
  rw [after] at h
  split at h
  · rename_i st hcreate
    cases h
    rw [Station.create_eq_ok hcreate]
    exact .inr rfl
  · cases h
    exact .inl rfl

/-- What the driver of a session accepts. -/
theorem moves_drive {i : Nat} (h : r.after (.drive i) = some r') :
    Inbox.Moves r.device.requests (acceptedRequest (r, .drive i)) [] r'.device.requests ∧
      Inbox.Moves r.station.queues.c2d (acceptedMessage (r, .drive i)) [] r'.station.queues.c2d := by
  obtain ⟨st, hst, rfl⟩ := Option.map_eq_some_iff.mp h
  obtain ⟨s, s', q, hs, hdrive, rfl⟩ := Station.drive_eq_some hst
  have hq := Session.queues_drive hdrive
  have hrouted : routed (r, .drive i) = s.routed r.station.identity := by
    show (match r.station.session? i with | some s => s.routed r.station.identity | none => .ignored) = _
    rw [show r.station.session? i = some s from hs]
  have hidentity : r.shared.identity = r.station.identity := rfl
  rw [hidentity] at hq
  show Inbox.Moves _ _ _ q.requests ∧ Inbox.Moves _ _ _ q.c2d
  rw [acceptedRequest, acceptedMessage, hrouted, hq]
  cases s.routed r.station.identity with
  | request x => exact ⟨.offer _ x, .refl _⟩
  | c2d m => exact ⟨.refl _, .offer _ m⟩
  | twinReply | ignored => exact ⟨.refl _, .refl _⟩

/-- What a call on a session takes. -/
theorem moves_step {n : Nat} (h : r.after (.step n) = some r') :
    Inbox.Moves r.device.requests [] [] r'.device.requests ∧
      Inbox.Moves r.station.queues.c2d [] (returnedMessage (r, .step n)) r'.station.queues.c2d := by
  have hstep : r.stepCall n = some r' := h
  obtain ⟨c, s, st, ph, hc, -, hph, rfl⟩ := stepCall_eq_some hstep
  have hreturned : returnedMessage (r, .step n) = ph.returned := by
    have hn := (List.getElem?_eq_some_iff.mp hc).1
    simp only [returnedMessage, hstep, Option.bind_some, List.getElem?_set_self hn]
  rw [hreturned]
  show Inbox.Moves _ _ _ st.queues.requests ∧ Inbox.Moves _ _ _ st.queues.c2d
  rcases Phase.queues_step hph with ⟨hq, hnone⟩ | ⟨c2d, m, htake, hq, hm⟩
  · rw [hq, hnone]
    exact ⟨.refl _, .refl _⟩
  · rw [hq, hm]
    exact ⟨.refl _, .take htake⟩

/-- What the device takes. -/
theorem moves_device {x : Device.Happening} (h : r.after (.device x) = some r') :
    Inbox.Moves r.device.requests [] (returnedRequest (r, .device x)) r'.device.requests ∧ r'.station = r.station := by
  cases x with
  | step i =>
    obtain ⟨d, hd, rfl⟩ := Option.map_eq_some_iff.mp h
    have hstep : r.device.stepTask i = some d := hd
    obtain ⟨o, d₁, t, ho, hturn, rfl⟩ := Device.stepTask_eq_some hd
    have hi : i < d₁.tasks.length := by
      rw [hturn.tasks]
      exact (List.getElem?_eq_some_iff.mp ho).1
    have hreturned : returnedRequest (r, .device (.step i)) = t.returned := by
      simp only [returnedRequest, hstep, Option.bind_some, List.getElem?_set_self hi]
    rw [hreturned]
    exact ⟨hturn.moves, rfl⟩
  | abandon i kernel =>
    obtain ⟨d, hd, rfl⟩ := Option.map_eq_some_iff.mp h
    have hsame := Device.requests_abandon hd
    exact ⟨.of_eq (congrArg Inbox.items hsame) (congrArg Inbox.capacity hsame), rfl⟩
  | kernel e =>
    obtain ⟨d, hd, rfl⟩ := Option.map_eq_some_iff.mp h
    obtain ⟨kernel, -, rfl⟩ := Option.map_eq_some_iff.mp hd
    exact ⟨.refl _, rfl⟩
  | send | next | shutdown =>
    cases h
    exact ⟨.refl _, rfl⟩
  | drop =>
    cases h
    exact ⟨.of_eq rfl rfl, rfl⟩
  | arrive | hangUp => cases h

/-- Both queues move as what was accepted and what was returned in a step say. -/
theorem moves_after (h : r.after e = some r') :
    Inbox.Moves r.device.requests (acceptedRequest (r, e)) (returnedRequest (r, e)) r'.device.requests ∧
      Inbox.Moves r.station.queues.c2d (acceptedMessage (r, e)) (returnedMessage (r, e)) r'.station.queues.c2d := by
  cases e with
  | drive i => exact moves_drive h
  | step n => exact moves_step h
  | device x =>
    obtain ⟨hrequests, hstation⟩ := moves_device h
    refine ⟨?_, ?_⟩
    · exact hrequests
    · rw [hstation]
      exact .refl _
  | create fs token =>
    rcases create_eq_some h with rfl | rfl <;> exact ⟨.refl _, .refl _⟩
  | arrive i e =>
    obtain ⟨s, -, rfl⟩ := Option.map_eq_some_iff.mp h
    exact ⟨.refl _, .refl _⟩
  | release i =>
    cases h
    rw [Station.queues_drop]
    exact ⟨.refl _, .refl _⟩
  | abandon n =>
    obtain ⟨turn, calls, rfl⟩ := abandon_eq_some h
    exact ⟨.refl _, .refl _⟩
  | call | cancel | pass =>
    cases h
    exact ⟨.refl _, .refl _⟩
  | hangUp | leave =>
    cases h
    exact ⟨.of_eq rfl rfl, .of_eq rfl rfl⟩

/-! ## Runs -/

/-- The requests that sessions accepted for the device in a run, in this order. -/
def acceptedRequests (l : List (Reception × Happening)) : List IncomingRequest := l.reverse.flatMap acceptedRequest

def returnedRequests (l : List (Reception × Happening)) : List IncomingRequest := l.reverse.flatMap returnedRequest

/-- The messages from the cloud that sessions accepted in a run, in this order. -/
def acceptedMessages (l : List (Reception × Happening)) : List Message := l.reverse.flatMap acceptedMessage

def returnedMessages (l : List (Reception × Happening)) : List Message := l.reverse.flatMap returnedMessage

variable {c : Config.Client} {source : Credential.Source} {st : Station} {d : Device}
  {l : List (Reception × Happening)}

theorem moves_of_history (h : History after r l r') :
    Inbox.Moves r.device.requests (acceptedRequests l) (returnedRequests l) r'.device.requests ∧
      Inbox.Moves r.station.queues.c2d (acceptedMessages l) (returnedMessages l) r'.station.queues.c2d :=
  ⟨.of_history h fun he => (moves_after he).1, .of_history h fun he => (moves_after he).2⟩

/-- The queues of a new station. -/
theorem queues_ofConfig (h : Station.ofConfig c source = some st) :
    st.queues = ⟨{ capacity := max c.requestChannelCapacity 1 }, { capacity := max c.requestChannelCapacity 1 }⟩ := by
  obtain ⟨setup, -, he⟩ := Option.bind_eq_some_iff.mp h
  cases he
  rfl

/-- However many sessions a station makes and whatever happens on them: the requests that the device has returned,
followed by those that wait for it, are the requests that were accepted, in this order and each of them once; and the
same holds of the messages from the cloud that calls have returned. What a session hands over is accepted, unless its
queue is full at that moment or nobody is left to receive from it. -/
theorem received_in_order (hst : Station.ofConfig c source = some st) (h : History after (start st d) l r) :
    returnedRequests l ++ r.device.requests.items = acceptedRequests l ∧
    returnedMessages l ++ r.station.queues.c2d.items = acceptedMessages l ∧
    ∀ x ∈ l,
      (∀ q, routed x = .request q → acceptedRequest x = [q] ∨
        x.1.device.requests.items.length = max c.requestChannelCapacity 1 ∨ x.1.device.requests.receiverGone = true) ∧
      (∀ m, routed x = .c2d m → acceptedMessage x = [m] ∨
        x.1.station.queues.c2d.items.length = max c.requestChannelCapacity 1 ∨
        x.1.station.queues.c2d.receiverGone = true) := by
  have hstart : (start st d).device.requests = { capacity := max c.requestChannelCapacity 1 } ∧
      (start st d).station.queues.c2d = { capacity := max c.requestChannelCapacity 1 } := by
    have hqueues := queues_ofConfig hst
    exact ⟨congrArg Queues.requests hqueues, congrArg Queues.c2d hqueues⟩
  have hmoves : ∀ {l r}, History after (start st d) l r →
      Inbox.Moves { capacity := max c.requestChannelCapacity 1 } (acceptedRequests l) (returnedRequests l)
          r.device.requests ∧
        Inbox.Moves { capacity := max c.requestChannelCapacity 1 } (acceptedMessages l) (returnedMessages l)
          r.station.queues.c2d := by
    intro l r h
    have := moves_of_history h
    rwa [hstart.1, hstart.2] at this
  obtain ⟨hrequests, hmessages⟩ := hmoves h
  refine ⟨hrequests.items.symm, hmessages.items.symm, fun x hx => ?_⟩
  obtain ⟨_, _, _, hbefore, -, -⟩ := h.of_mem hx
  obtain ⟨hrequests, hmessages⟩ := hmoves hbefore
  constructor
  · intro q hq
    rw [acceptedRequest, hq]
    exact hrequests.accepts_or_full q
  · intro m hm
    rw [acceptedMessage, hm]
    exact hmessages.accepts_or_full m

/-- A device whose queues hold one item. -/
def settings : Config.Client where
  host := "hub.example.net"
  deviceId := "dev-1"
  auth := { sasToken := some "SharedAccessSignature sr=x&sig=y&se=1" }
  requestChannelCapacity := 1

/-- Two method calls arrive on a session before the hub ends it, and a call for a message finds it closed. On the next
session a message arrives and is returned, and then the device takes a request. -/
def replacement : List Happening :=
  [.create ∅ (.ok { value := "" }), .call 0 "" (.connect 0 false), .step 0,
    .arrive 0 (.arrived { topic := "$iothub/methods/POST/start/?$rid=1", payload := [] }), .drive 0,
    .arrive 0 (.arrived { topic := "$iothub/methods/POST/stop/?$rid=2", payload := [] }), .drive 0,
    .arrive 0 .dismissed, .drive 0, .drive 0, .call 0 "" (.data 0 .receive), .step 1,
    .create ∅ (.ok { value := "" }), .call 1 "" (.connect 1 false), .step 2,
    .arrive 1 (.arrived { topic := "devices/dev-1/messages/devicebound/", payload := [1] }), .drive 1,
    .call 1 "" (.data 1 .receive), .step 3, .step 3, .step 3,
    .device (.next 0), .device (.step 0), .device (.step 0), .device (.step 0)]

/-- The first request is returned although its session is gone; the second one found the queue full. -/
theorem received_in_order_replacement : ∃ st l r, Station.ofConfig settings (.fixed "t") = some st ∧
    History after (start st {}) l r ∧
    returnedRequests l = [.method ⟨"start", "1", []⟩] ∧ returnedMessages l = [{ payload := [1] }] ∧
    returnedRequests l ++ r.device.requests.items = acceptedRequests l ∧
    returnedMessages l ++ r.station.queues.c2d.items = acceptedMessages l := by
  obtain ⟨st, l, r, hst, hrun, hrequests, hmessages⟩ : ∃ st l r, Station.ofConfig settings (.fixed "t") = some st ∧
      replay after (start st {}) replacement = some (l, r) ∧
      returnedRequests l = [.method ⟨"start", "1", []⟩] ∧ returnedMessages l = [{ payload := [1] }] :=
    ⟨_, _, _, rfl, rfl, rfl, rfl⟩
  have hrun := History.of_replay hrun
  obtain ⟨hreqs, hmsgs, -⟩ := received_in_order hst hrun
  exact ⟨st, l, r, hst, hrun, hrequests, hmessages, hreqs, hmsgs⟩

end Reception

end HubDevice
