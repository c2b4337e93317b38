/-!
# Runs of a system

A system is given by what a happening makes of a state. A run remembers every state on the way and what happened to it,
so that a statement about a run can speak of the moment at which something was done.
-/

namespace HubDevice

variable {σ η : Type} {after : σ → η → Option σ} {s s' s'' : σ} {l l' : List (σ × η)}

/-- What led from one state to another: each state on the way with what happened to it, the newest first. -/
inductive History (after : σ → η → Option σ) (s : σ) : List (σ × η) → σ → Prop where
  | refl : History after s [] s
  | tail {l : List (σ × η)} {s' s'' : σ} (e : η) :
      History after s l s' → after s' e = some s'' → History after s ((s', e) :: l) s''

namespace History

theorem trans (h : History after s l s') (h' : History after s' l' s'') : History after s (l' ++ l) s'' := by
  induction h' with
  | refl => exact h
  | tail e _ he ih => exact ih.tail e he

/-- A run can be cut where something happened. -/
theorem cut {newer older : List (σ × η)} {x : σ × η} (h : History after s (newer ++ x :: older) s') :
    History after s older x.1 ∧ ∃ s₁, after x.1 x.2 = some s₁ ∧ History after s₁ newer s' := by
  induction newer generalizing s' with
  | nil =>
    cases h with
    | tail e hp he => exact ⟨hp, _, he, .refl⟩
  | cons y newer ih =>
    cases h with
    | tail e hp he =>
      obtain ⟨hp, s₁, hx, hn⟩ := ih hp
      exact ⟨hp, s₁, hx, hn.tail e he⟩

theorem of_mem (h : History after s l s') {x : σ × η} (hx : x ∈ l) :
    ∃ older newer s₁, History after s older x.1 ∧ after x.1 x.2 = some s₁ ∧ History after s₁ newer s' := by
  obtain ⟨newer, older, rfl⟩ := List.append_of_mem hx
  obtain ⟨ho, s₁, he, hn⟩ := h.cut
  exact ⟨older, newer, s₁, ho, he, hn⟩

/-- What every step keeps holds in the end. -/
theorem keeps {P : σ → Prop} (h : History after s l s') (hs : P s)
    (hstep : ∀ {s s' e}, after s e = some s' → P s → P s') : P s' := by
  induction h with
  | refl => exact hs
  | tail e _ he ih => exact hstep he ih

end History

/-- The run that a list of happenings makes, if all of them can happen. -/
def replay (after : σ → η → Option σ) (s : σ) : List η → Option (List (σ × η) × σ)
  | [] => some ([], s)
  | e :: es => (after s e).bind fun s' => (replay after s' es).map fun p => (p.1 ++ [(s, e)], p.2)

theorem History.of_replay {es : List η} (h : replay after s es = some (l, s')) : History after s l s' := by
  induction es generalizing s l with
  | nil =>
    cases h
    exact .refl
  | cons e es ih =>
    obtain ⟨s₁, he, hr⟩ := Option.bind_eq_some_iff.mp h
    obtain ⟨p, hp, hl⟩ := Option.map_eq_some_iff.mp hr
    cases hl
    exact (History.refl.tail e he).trans (ih hp)

/-- What the newest entry adds to what is collected from a run, the oldest first. -/
theorem filterMap_reverse_cons {α β : Type} (f : α → Option β) (y : α) (l : List α) :
    (y :: l).reverse.filterMap f = l.reverse.filterMap f ++ (f y).toList := by
  rw [List.reverse_cons, List.filterMap_append]
  cases hy : f y <;> simp [hy]

/-! ## One of many

The parties of a system are often a list, in which a step replaces one of them. -/

section Replaced

variable {α : Type} {l : List α} {i : Nat} {a b : α}

/-- Whoever stands in a list with one more stood there before, or is the new one. -/
theorem getElem?_concat_cases (h : (l ++ [b])[i]? = some a) : l[i]? = some a ∨ a = b := by
  rcases Nat.lt_trichotomy i l.length with hlt | rfl | hgt
  · exact .inl (List.getElem?_append_left hlt ▸ h)
  · rw [List.getElem?_concat_length] at h
    exact .inr (Option.some.inj h).symm
  · rw [List.getElem?_eq_none (by simp; omega)] at h
    cases h

/-- Whoever stands in a list with one replaced stood there before, or is the replacement. -/
theorem getElem?_set_cases {j : Nat} (h : (l.set j b)[i]? = some a) : l[i]? = some a ∨ j = i ∧ a = b := by
  by_cases hj : j = i
  · subst hj
    have hlt := (List.getElem?_eq_some_iff.mp h).1
    rw [List.getElem?_set_self (by simpa using hlt)] at h
    exact .inr ⟨rfl, (Option.some.inj h).symm⟩
  · exact .inl (List.getElem?_set_ne hj ▸ h)

/-- Replacing one of many changes a count by that one. -/
theorem countP_set_add (p : α → Bool) (ha : l[i]? = some a) (b : α) :
    (l.set i b).countP p + (if p a then 1 else 0) = l.countP p + if p b then 1 else 0 := by
  obtain ⟨hi, rfl⟩ := List.getElem?_eq_some_iff.mp ha
  have hle := List.boole_getElem_le_countP (p := p) hi
  rw [List.countP_set hi]
  omega

/-- Whoever differs from the one that is replaced stays. -/
theorem mem_set_of_ne {c : α} (hc : c ∈ l) (ha : l[i]? = some a) (hne : c ≠ a) : c ∈ l.set i b := by
  obtain ⟨j, hj⟩ := List.getElem?_of_mem hc
  have hij : i ≠ j := by
    rintro rfl
    exact hne (Option.some.inj (hj.symm.trans ha))
  exact List.mem_of_getElem? ((List.getElem?_set_ne hij).trans hj)

end Replaced

end HubDevice
