/-!
# Taking turns

A deterministic schedule for a system of numbered threads: the thread whose turn it is runs until it
has to wait, and threads whose wait has come to an end queue up for their turn in that order. Threads
that stop waiting together queue up in the order in which they began to wait. The schedule is one of
the interleavings of the system's steps.
-/

namespace HubDevice

/-- A system of threads over a state. -/
structure Threads (σ : Type) where
  /-- One step of a thread; nothing while it waits and after it has ended. -/
  step : σ → Nat → Option σ
  /-- How many threads have been started so far. -/
  count : σ → Nat

/-- Whose turn it is. -/
structure Turns where
  ready : List Nat := []
  /-- Waiting threads, in the order in which they began to wait. -/
  waiting : List Nat := []
  /-- How many threads have been queued so far. -/
  known : Nat := 0
  deriving Inhabited

namespace Turns

variable {σ : Type}

/-- Queues up the threads whose wait has come to an end, and the threads that are new. -/
def notice (sys : Threads σ) (s : σ) (t : Turns) : Turns :=
  let woken := t.waiting.filter fun i => (sys.step s i).isSome
  let new := List.range' t.known (sys.count s - t.known)
  { ready := t.ready ++ woken ++ new
    waiting := t.waiting.filter fun i => (sys.step s i).isNone
    known := max t.known (sys.count s) }

/-- Lets threads take turns until all of them wait. -/
def settle (sys : Threads σ) : Nat → σ → Turns → σ × Turns
  | 0, s, t => (s, t)
  | fuel + 1, s, t =>
    match t.ready with
    | [] => (s, t)
    | i :: rest =>
      match sys.step s i with
      | none => settle sys fuel s { t with ready := rest, waiting := t.waiting ++ [i] }
      | some s' => settle sys fuel s' (notice sys s' t)

end Turns

end HubDevice
