import HubDevice.Agent.Readiness
import HubDevice.Device.Drain
import HubDevice.Session.Closed

/-!
# Rehearsing waits

Parties that wait for the end of a session, for readiness or for sends to finish, each with a name. After
every change all of them run until they have to wait again.
-/

namespace HubDevice.Bench

/-- Replaces what has a name, or adds it at the end. -/
def assign {α : Type} (name : String) (a : α) : List (String × α) → List (String × α)
  | [] => [(name, a)]
  | (k, b) :: rest => if k = name then (k, a) :: rest else (k, b) :: assign name a rest

/-- What has a name. -/
def named? {α : Type} (name : String) (xs : List (String × α)) : Option α :=
  (xs.find? fun p => p.1 = name).map (·.2)

/-! ## The end of a session -/

/-- A notification with named signals, some of which were given elsewhere. -/
structure ClosedTrial where
  notice : ClosedNotice := .pending
  /-- The signals; `none` is one of the notification. -/
  signals : List (String × Option ClosedNotice) := []
  waits : List (String × ClosedNotice.Waiting × Option ClosedNotice) := []

namespace ClosedTrial

/-- The notification that a signal is of. -/
def source (x : ClosedTrial) (signal : Option ClosedNotice) : ClosedNotice := signal.getD x.notice

/-- Looks whether a wait has come to its end; then nothing waits under the name any more. -/
def poll (x : ClosedTrial) (name : String) : ClosedTrial × Option (Option CloseCause) :=
  match named? name x.waits with
  | none => (x, none)
  | some (w, signal) =>
    match w.outcome? (x.source signal) 8 with
    | (w, none) => ({ x with waits := assign name (w, signal) x.waits }, some none)
    | (_, some cause) => ({ x with waits := x.waits.filter fun p => p.1 ≠ name }, some (some cause))

end ClosedTrial

/-! ## Readiness -/

/-- A readiness with parties that follow a status and parties that wait. -/
structure ReadinessTrial where
  following : Readiness.Following := ⟨{ value := {} }, { value := .unknown }⟩
  followers : List Readiness.Follower := []
  waits : List (String × Readiness.Waiting) := []
  /-- The version that a subscriber has seen. -/
  seen : Nat := 0

namespace ReadinessTrial

/-- Lets the followers run. -/
def follow : Nat → ReadinessTrial → ReadinessTrial
  | 0, x => x
  | fuel + 1, x =>
    let (f, followers, moved) := x.followers.foldl (fun (f, done, moved) p =>
      match p.step f with
      | some (f, p) => (f, done ++ [p], true)
      | none => (f, done ++ [p], moved)) (x.following, [], false)
    let x := { x with following := f, followers }
    if moved then follow fuel x else x

/-- Lets a wait run. -/
def runWait (r : Watched Readiness) : Nat → Readiness.Waiting → Readiness.Waiting × Option Bool
  | 0, w => (w, none)
  | fuel + 1, w =>
    match w.step r with
    | none => (w, none)
    | some (.done b) => (w, some b)
    | some (.more w) => runWait r fuel w

/-- Lets everybody run; the second part are the waits that came to their end. -/
def settle (x : ReadinessTrial) : ReadinessTrial × List (String × Bool) :=
  let x := follow 64 x
  let ran := x.waits.map fun p => (p.1, runWait x.following.readiness 64 p.2)
  ({ x with waits := ran.filterMap fun p => match p.2.2 with
      | none => some (p.1, p.2.1)
      | some _ => none },
    ran.filterMap fun p => p.2.2.map fun b => (p.1, b))

/-- Whether a subscriber sees a change, which it has seen then. -/
def notified (x : ReadinessTrial) : ReadinessTrial × Bool :=
  ({ x with seen := x.following.readiness.version }, x.following.readiness.version ≠ x.seen)

end ReadinessTrial

/-! ## Sends -/

/-- Named sends, and named parties that wait for all of them. -/
structure DrainTrial where
  drain : Drain := {}
  sends : List String := []
  waits : List (String × Option Drain.Waiting) := []

namespace DrainTrial

/-- Lets a send finish. -/
def leave : Nat → Drain.Leaving → Drain → Drain
  | 0, _, d => d
  | fuel + 1, l, d =>
    match l.step d with
    | some (d, .more l) => leave fuel l d
    | some (d, .done ()) => d
    | none => d

/-- Lets a wait run; the waits that are over are `none`. -/
def runWait : Nat → Drain → Drain.Waiting → Option Drain.Waiting
  | 0, _, w => some w
  | fuel + 1, d, w =>
    match w.step d with
    | none => some w
    | some (_, .done ()) => none
    | some (d, .more w) => runWait fuel d w

def settle (x : DrainTrial) : DrainTrial :=
  { x with waits := x.waits.map fun p => (p.1, p.2.bind (runWait 8 x.drain)) }

/-- A send begins; one of the same name before it finishes then. -/
def enter (x : DrainTrial) (name : String) : DrainTrial :=
  let x := { x with drain := x.drain.enter }
  if x.sends.contains name then { x with drain := leave 4 .leave x.drain }
  else { x with sends := name :: x.sends }

/-- A send finishes, if there is one of the name. -/
def finish (x : DrainTrial) (name : String) : DrainTrial :=
  if x.sends.contains name then
    { x with drain := leave 4 .leave x.drain, sends := x.sends.erase name }
  else x

/-- The waits that have ended. -/
def ended (x : DrainTrial) : List String := (x.waits.filter fun p => p.2.isNone).map (·.1)

end DrainTrial

end HubDevice.Bench
