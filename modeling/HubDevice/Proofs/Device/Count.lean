import HubDevice.Device.Drain
import HubDevice.Proofs.Concurrent.History

/-!
# The count of the sends and its guards

Sends leave the count, and waits look at it, in the same few ways wherever they run (`Leaving.Turn`, `Waiting.Turn`).
Many parties share one count, and each of them holds a guard of it or none. What one of them does to the count goes with
what becomes of its guard (`Passage`), so that the count stays the number of those who hold one (`Counts`).
-/

namespace HubDevice.Drain

variable {d d' : Drain}

/-! ## Leaving and waiting -/

/-- What one step of a send that leaves can do. -/
inductive Leaving.Turn (d : Drain) : Leaving → Drain → Progress Leaving Unit → Prop where
  | left : d.inflight ≠ 1 → Turn d .leave { d with inflight := d.inflight - 1 } (.done ())
  | leftLast : d.inflight = 1 → Turn d .leave { d with inflight := d.inflight - 1 } (.more .notify)
  | noticed : Turn d .notify { d with notices := d.notices + 1 } (.done ())

theorem Leaving.turn_of_step {l : Leaving} {pr : Progress Leaving Unit} (h : l.step d = some (d', pr)) :
    l.Turn d d' pr := by
  cases l with
  | leave =>
    by_cases hone : d.inflight = 1
    · simp only [step, if_pos hone] at h
      cases h
      exact .leftLast hone
    · simp only [step, if_neg hone] at h
      cases h
      exact .left hone
  | notify =>
    cases h
    exact .noticed

/-- What one step of a wait can do; none of them touches the count. -/
inductive Waiting.Turn (d : Drain) : Waiting → Progress Waiting Unit → Prop where
  | registered : Turn d .register (.more (.look d.notices))
  | found (n : Nat) : d.inflight = 0 → Turn d (.look n) (.done ())
  | parked (n : Nat) : d.inflight ≠ 0 → Turn d (.look n) (.more (.parked n))
  | woken (n : Nat) : d.notices ≠ n → Turn d (.parked n) (.more .register)

theorem Waiting.turn_of_step {w : Waiting} {pr : Progress Waiting Unit} (h : w.step d = some (d', pr)) :
    d' = d ∧ w.Turn d pr := by
  cases w with
  | register =>
    cases h
    exact ⟨rfl, .registered⟩
  | look n =>
    simp only [step] at h
    split at h <;> cases h
    · exact ⟨rfl, .found n ‹_›⟩
    · exact ⟨rfl, .parked n ‹_›⟩
  | parked n =>
    simp only [step] at h
    split at h <;> cases h
    exact ⟨rfl, .woken n ‹_›⟩

/-! ## Guards -/

/-- What a party does to the count, with whether it holds a guard before and afterwards. -/
inductive Passage (d : Drain) : Bool → Drain → Bool → Prop where
  | entered : Passage d false d.enter true
  | left : Passage d true { d with inflight := d.inflight - 1 } false
  /-- The party has a guard as before; at most it gives notice. -/
  | kept (guard : Bool) (notices : Nat) : Passage d guard { d with notices } guard

/-- The party has a guard as before, and leaves the count alone. -/
theorem Passage.idle (d : Drain) (guard : Bool) : d.Passage guard d guard := .kept guard d.notices

section Shared

variable {α : Type} {holds : α → Bool} {parties : List α} {i : Nat} {a b : α}

/-- The count is the number of guards. -/
def Counts (d : Drain) (holds : α → Bool) (parties : List α) : Prop := d.inflight = parties.countP holds

/-- Whoever holds a guard is counted. -/
theorem Counts.pos (h : d.Counts holds parties) (ha : parties[i]? = some a) (hg : holds a = true) : 0 < d.inflight :=
  Nat.lt_of_lt_of_eq (List.countP_pos_iff.mpr ⟨a, List.mem_of_getElem? ha, hg⟩) h.symm

/-- The count goes up and down with the guard of one of the parties. -/
theorem Counts.set (h : d.Counts holds parties) (ha : parties[i]? = some a) (hp : d.Passage (holds a) d' (holds b)) :
    d'.Counts holds (parties.set i b) := by
  have hpos := h.pos ha
  have hset := countP_set_add holds ha b
  unfold Counts at h ⊢
  generalize holds a = g at *
  generalize holds b = g' at *
  cases hp with
  | entered =>
    simp only [enter, Bool.false_eq_true, if_true, if_false] at hset ⊢
    omega
  | left =>
    have := hpos rfl
    simp only [Bool.false_eq_true, if_true, if_false] at hset ⊢
    omega
  | kept =>
    dsimp only
    omega

/-- It goes up for whoever comes with a guard. -/
theorem Counts.concat (h : d.Counts holds parties) (hp : d.Passage false d' (holds b)) :
    d'.Counts holds (parties ++ [b]) := by
  unfold Counts at h ⊢
  rw [List.countP_append, List.countP_singleton]
  generalize holds b = g at *
  cases hp with
  | entered => exact congrArg (· + 1) h
  | kept => exact h

end Shared

end HubDevice.Drain
