import HubDevice.Number.Power

/-!
# Lengths of time

A length of time is a whole number of nanoseconds, below `2 ^ 64` seconds. Addition stops at the
longest one.
-/

namespace HubDevice

/-- A length of time. -/
structure Span where
  nanos : Nat
  nanos_lt : nanos < 2 ^ 64 * 10 ^ 9 := by decide

namespace Span

/-- The longest length of time, in nanoseconds. -/
def maxNanos : Nat := 2 ^ 64 * 10 ^ 9 - 1

/-- The nearest length of time to a number of nanoseconds. -/
def ofNanos (n : Nat) : Span :=
  ⟨min n maxNanos, by unfold maxNanos; omega⟩

/-- Whole seconds and the nanoseconds beyond them. -/
def ofParts (seconds nanos : Nat) : Span := ofNanos (seconds * 10 ^ 9 + nanos)

def ofMillis (ms : Nat) : Span := ofNanos (ms * 10 ^ 6)

def ofSeconds (s : Nat) : Span := ofNanos (s * 10 ^ 9)

def zero : Span := ofNanos 0

def seconds (s : Span) : Nat := s.nanos / 10 ^ 9

/-- The nanoseconds beyond the whole seconds. -/
def subsecond (s : Span) : Nat := s.nanos % 10 ^ 9

/-- The whole milliseconds. -/
def millis (s : Span) : Nat := s.nanos / 10 ^ 6

def isZero (s : Span) : Bool := s.nanos == 0

/-- The sum, or the longest length of time. -/
def add (a b : Span) : Span := ofNanos (a.nanos + b.nanos)

protected def min (a b : Span) : Span := if a.nanos ≤ b.nanos then a else b

protected def max (a b : Span) : Span := if a.nanos ≤ b.nanos then b else a

@[ext] theorem ext {a b : Span} (h : a.nanos = b.nanos) : a = b := by
  cases a; cases b; simp_all

instance : LE Span := ⟨fun a b => a.nanos ≤ b.nanos⟩

instance : DecidableEq Span := fun a b =>
  decidable_of_iff (a.nanos = b.nanos) ⟨ext, fun h => h ▸ rfl⟩

theorem le_def {a b : Span} : a ≤ b ↔ a.nanos ≤ b.nanos := Iff.rfl

@[simp] theorem nanos_ofNanos (n : Nat) : (ofNanos n).nanos = min n maxNanos := rfl

theorem nanos_min (a b : Span) : (Span.min a b).nanos = min a.nanos b.nanos := by
  unfold Span.min; split <;> omega

theorem nanos_max (a b : Span) : (Span.max a b).nanos = max a.nanos b.nanos := by
  unfold Span.max; split <;> omega

/-! ## Waiting

Clocks tell the time in milliseconds. -/

/-- No clock has a time from here on, in nanoseconds. -/
def clockEnd : Nat := 2 ^ 63 * 10 ^ 9

/-- How long one waits at most where no clock has the time at which a wait would end: thirty years. -/
def farFuture : Nat := 30 * 365 * 24 * 60 * 60 * 1000

/-- How long one waits on a clock that ticks once a millisecond: a started millisecond counts. -/
def ticks (s : Span) : Nat := (s.nanos + 999999) / 10 ^ 6

/-- When a wait ends that begins at a time. -/
def deadline (s : Span) (now : Nat) : Nat :=
  now + if now * 10 ^ 6 + s.nanos < clockEnd then s.ticks else min s.ticks farFuture

theorem le_deadline (s : Span) (now : Nat) : now ≤ s.deadline now := Nat.le_add_right _ _

/-- No time passes in no time. -/
theorem deadline_of_isZero {s : Span} (h : s.isZero = true) (now : Nat) : s.deadline now = now := by
  have hz : s.nanos = 0 := by simpa [isZero] using h
  simp [deadline, ticks, hz]

end Span

instance : Inhabited Span := ⟨Span.zero⟩

end HubDevice
