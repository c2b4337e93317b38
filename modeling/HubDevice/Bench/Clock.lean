import HubDevice.Concurrent.Turns
import HubDevice.Retry.Run

/-!
# A clock for a bench

A bench is a system of threads with a clock that moves only while all of them wait, from one deadline
to the next. Everything that is due at an instant has run before the clock moves on. It lets nobody wait for
longer than thirty years, whatever the deadline.
-/

namespace HubDevice.Bench

/-- The longest time that the clock of a bench lets anybody wait, in milliseconds. -/
def longestWait : Nat := Span.farFuture

/-- A run that waits until a time at most. -/
def capRun {α : Type} (limit : Nat) (r : Retry.Run α) : Retry.Run α :=
  match r.phase with
  | .pausing d => { r with phase := .pausing (min d limit) }
  | .acting _ => r

/-- A system of threads with a clock. -/
structure Clocked (σ : Type) extends Threads σ where
  now : σ → Nat
  /-- Sets the clock and does what is due. -/
  setTime : σ → Nat → σ
  /-- The deadlines that something waits for. -/
  deadlines : σ → List Nat

/-- How many steps a bench may take between two instants. -/
def patience : Nat := 1000000

namespace Clocked

variable {σ : Type} (sys : Clocked σ)

/-- Lets everything run that can, at this instant. -/
def settle (s : σ) (t : Turns) : σ × Turns :=
  Turns.settle sys.toThreads patience s (t.notice sys.toThreads s)

/-- The next deadline. -/
def next? (s : σ) : Option Nat := (sys.deadlines s).min?

/-- Moves the clock to an instant and lets everything run. -/
def moveTo (s : σ) (t : Turns) (time : Nat) : σ × Turns := sys.settle (sys.setTime s time) t

/-- Lets time pass up to an instant, deadline by deadline. -/
def advance : Nat → Nat → σ → Turns → σ × Turns
  | 0, _, s, t => (s, t)
  | fuel + 1, target, s, t =>
    match sys.next? s with
    | none => sys.moveTo s t target
    | some d =>
      if d ≤ target then
        let (s, t) := sys.moveTo s t (max d (sys.now s))
        advance fuel target s t
      else sys.moveTo s t target

/-- Lets time pass until something holds, or nothing is left to wait for. -/
def runUntil (goal : σ → Bool) : Nat → σ → Turns → σ × Turns
  | 0, s, t => (s, t)
  | fuel + 1, s, t =>
    if goal s then (s, t)
    else match sys.next? s with
      | none => (s, t)
      | some d =>
        let (s, t) := sys.moveTo s t (max d (sys.now s))
        runUntil goal fuel s t

end Clocked

end HubDevice.Bench
