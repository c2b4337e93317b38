import HubDevice.Concurrent.Inbox
import HubDevice.Proofs.Concurrent.History
import Mathlib.Tactic.Common

/-!
# First in, first out

What an inbox accepted and what it gave out in a step says how its items changed (`Inbox.Moves`). If this is so in every
step of a run, then all that was given out stands in front of what is left, in the order in which it was accepted
(`Inbox.Moves.of_history`).
-/

namespace HubDevice.Inbox

variable {α : Type} {q q' : Inbox α}

/-- An inbox has accepted some items at its end and given out some from its beginning. It keeps its capacity, and never
has more items than that. -/
structure Moves (q : Inbox α) (accepted given : List α) (q' : Inbox α) : Prop where
  items : q.items ++ accepted = given ++ q'.items
  capacity : q'.capacity = q.capacity
  bound : q.items.length ≤ q.capacity → q'.items.length ≤ q'.capacity

namespace Moves

theorem of_eq (hi : q'.items = q.items) (hc : q'.capacity = q.capacity) : Moves q [] [] q' where
  items := by rw [List.append_nil, List.nil_append, hi]
  capacity := hc
  bound h := by rw [hi, hc]; exact h

theorem refl (q : Inbox α) : Moves q [] [] q := of_eq rfl rfl

theorem offer (q : Inbox α) (a : α) : Moves q (if (q.offer a).2 then [a] else []) [] (q.offer a).1 := by
  unfold Inbox.offer
  split
  · rename_i hroom
    refine ⟨rfl, rfl, fun _ => ?_⟩
    show (q.items ++ [a]).length ≤ q.capacity
    rw [List.length_append, List.length_singleton]
    exact hroom.1
  · exact refl q

theorem take {r : Option α} (h : q.take? = some (q', r)) : Moves q [] r.toList q' := by
  unfold Inbox.take? at h
  split at h
  · rename_i a rest hq
    cases h
    refine ⟨by rw [List.append_nil, hq]; rfl, rfl, fun hle => ?_⟩
    rw [hq, List.length_cons] at hle
    exact Nat.le_of_succ_le hle
  · split at h
    · cases h
      exact refl q
    · cases h

/-- If every step of a system moves an inbox, then all that it gave out in a run, followed by what it still has, is all
that it accepted, after what it had at first. -/
theorem of_history {σ η : Type} {after : σ → η → Option σ} {s s' : σ} {l : List (σ × η)} {inbox : σ → Inbox α}
    {accepted given : σ × η → List α} (h : History after s l s')
    (hstep : ∀ {s s' e}, after s e = some s' → Moves (inbox s) (accepted (s, e)) (given (s, e)) (inbox s')) :
    Moves (inbox s) (l.reverse.flatMap accepted) (l.reverse.flatMap given) (inbox s') := by
  induction h with
  | refl => exact refl _
  | @tail l s' s'' e _ he ih =>
    have hlast := hstep he
    rw [List.reverse_cons, List.flatMap_append, List.flatMap_append, List.flatMap_singleton, List.flatMap_singleton]
    refine ⟨?_, hlast.capacity.trans ih.capacity, fun hle => hlast.bound (ih.bound hle)⟩
    calc
      (inbox s).items ++ (l.reverse.flatMap accepted ++ accepted (s', e))
        = l.reverse.flatMap given ++ (inbox s').items ++ accepted (s', e) := by rw [← List.append_assoc, ih.items]
      _ = l.reverse.flatMap given ++ given (s', e) ++ (inbox s'').items := by
        rw [List.append_assoc, hlast.items, List.append_assoc]

end Moves

/-- An inbox that was empty accepts an item, unless it is full or nobody is there to receive it. -/
theorem Moves.accepts_or_full {n : Nat} {accepted given : List α} (h : Moves { capacity := n } accepted given q)
    (a : α) : (if (q.offer a).2 then [a] else []) = [a] ∨ q.items.length = n ∨ q.receiverGone = true := by
  have hcapacity : q.capacity = n := h.capacity
  have hbound := h.bound (Nat.zero_le n)
  unfold Inbox.offer
  split
  · exact .inl rfl
  · rename_i hno
    right
    by_cases hgone : q.receiverGone = true
    · exact .inr hgone
    · have hfull : ¬ q.items.length < q.capacity := fun hlt => hno ⟨hlt, by simpa using hgone⟩
      exact .inl (by omega)

theorem eq_of_take?_none (h : q.take? = some (q', none)) : q' = q := by
  unfold take? at h
  split at h
  · cases h
  · split at h <;> cases h
    rfl

end HubDevice.Inbox
