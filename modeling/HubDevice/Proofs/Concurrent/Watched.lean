import HubDevice.Concurrent.Watched

/-!
# What a watcher finds

A watcher finds a change just when the version is not the one that it has seen, and finds that the writer has gone away
just when it has and there is no change.
-/

namespace HubDevice.Watched

variable {α : Type} {w : Watched α} {seen : Nat}

theorem notice?_eq_changed : w.notice? seen = some .changed ↔ w.version ≠ seen := by
  unfold notice?
  by_cases hv : w.version = seen <;> by_cases hc : w.closed = true <;> simp [hv, hc]

theorem notice?_eq_gone : w.notice? seen = some .gone ↔ w.version = seen ∧ w.closed = true := by
  unfold notice?
  by_cases hv : w.version = seen <;> by_cases hc : w.closed = true <;> simp [hv, hc]

theorem notice?_eq_none : w.notice? seen = none ↔ w.version = seen ∧ w.closed = false := by
  unfold notice?
  by_cases hv : w.version = seen <;> by_cases hc : w.closed = true <;> simp [hv, hc]

end HubDevice.Watched
