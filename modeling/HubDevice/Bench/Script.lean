import HubDevice.Bench.Clock
import HubDevice.Bench.Record

/-!
# A scripted transport

`Script` answers the calls of a client from prepared failures and delays. It keeps a queue of failures
and a delay for each kind of call, an inbox of messages to receive, and a twin document.
-/

namespace HubDevice.Bench

/-- A call whose answer is due at a time. -/
structure Due where
  time : Nat
  call : CallId
  request : Request
  failure : Option TransportError

/-- A scripted transport. -/
structure Script where
  failures : List (String × List TransportError) := []
  delays : List (String × Nat) := []
  inbox : List Message := []
  twin : Twin := {}
  /-- How many patches of the twin were accepted. -/
  patches : Nat := 0
  /-- Calls that were taken note of. -/
  seen : Nat := 0
  due : List Due := []
  deriving Inhabited

namespace Script

/-- Prepares failures for a kind of call, after those that are prepared already. -/
def fail (x : Script) (kind : String) (errors : List TransportError) : Script :=
  let before := ((x.failures.find? fun p => p.1 = kind).map (·.2)).getD []
  { x with failures := (kind, before ++ errors) :: x.failures.filter fun p => p.1 ≠ kind }

/-- Forgets all prepared failures. -/
def heal (x : Script) : Script := { x with failures := [] }

/-- Delays the answers to a kind of call, by a number of milliseconds. -/
def delay (x : Script) (kind : String) (ms : Nat) : Script :=
  { x with delays := (kind, ms) :: x.delays.filter fun p => p.1 ≠ kind }

/-- Takes the next prepared failure of a kind of call. -/
def takeFailure (x : Script) (kind : String) : Script × Option TransportError :=
  match x.failures.find? fun p => p.1 = kind with
  | some (_, e :: rest) =>
    ({ x with failures := (kind, rest) :: x.failures.filter fun p => p.1 ≠ kind }, some e)
  | _ => (x, none)

/-- The answer to a call that was not prepared to fail. -/
def succeed (x : Script) : Request → Script × Outcome
  | .data _ .receive =>
    match x.inbox with
    | [] => (x, .error (.unsupported "inbox empty"))
    | m :: rest => ({ x with inbox := rest }, .ok (.message m))
  | .data _ .getTwin => (x, .ok (.twin x.twin))
  | .data _ (.patchTwin _) =>
    ({ x with patches := x.patches + 1 }, .ok (.version (x.patches + 1 : Nat)))
  | _ => (x, .ok .done)

/-- Answers a call. A session that cannot be opened ends. -/
def complete (x : Script) (w : Wire) (d : Due) : Script × Wire :=
  match d.failure with
  | some e =>
    let w := match d.request with
      | .connect s _ => w.endSession s (.remote e.message)
      | _ => w
    (x, w.answer d.call (.error e))
  | none =>
    let (x, o) := x.succeed d.request
    (x, w.answer d.call o)

/-- Whether a call fails once its session has ended. -/
def needsLiveSession : Request → Bool
  | .create | .connect _ _ | .close _ | .refresh _ => false
  | _ => true

/-- Takes a call up. -/
def accept (now : Nat) (p : Script × Wire) (c : PendingCall) : Script × Wire :=
  let (x, w) := p
  if needsLiveSession c.request ∧ (c.request.session?.any w.ended) then
    (x, w.answer c.id (.error (.sessionClosed "mock session closed")))
  else
    let (x, failure) := x.takeFailure c.request.kind
    let ms := min (((x.delays.find? fun p => p.1 = c.request.kind).map (·.2)).getD 0) longestWait
    let d : Due := ⟨now + ms, c.id, c.request, failure⟩
    if ms = 0 then x.complete w d else ({ x with due := x.due ++ [d] }, w)

/-- Takes up the calls that were made since the last time. -/
def react (x : Script) (w : Wire) (now : Nat) : Script × Wire :=
  if w.issued = x.seen then (x, w)
  else
    let new := w.calls.filter fun c => x.seen ≤ c.id
    new.foldl (accept now) ({ x with seen := w.issued }, w)

/-- Whether somebody still waits for a call. -/
def awaited (w : Wire) (d : Due) : Bool := w.calls.any fun c => c.id = d.call

/-- Answers the calls that are due. -/
def expire (x : Script) (w : Wire) (now : Nat) : Script × Wire :=
  let (ripe, later) := x.due.partition fun d => d.time ≤ now
  (ripe.filter (awaited w)).foldl (fun p d => p.1.complete p.2 d) ({ x with due := later }, w)

/-- The times at which calls are due. -/
def deadlines (x : Script) (w : Wire) : List Nat := (x.due.filter (awaited w)).map (·.time)

end Script

end HubDevice.Bench
