import HubDevice.Proofs.Concurrent.Progress
import HubDevice.Retry.Run

/-!
# What a step of a run does

`Run.Turn` lists the outcomes of one step of a run under a retry policy: it is cancelled, its action
advances, succeeds, fails for good or is granted another attempt, or its pause is over. `Run.turn_of_step`
says that there are no others, and `Run.awaiting` is where a run stands that was granted another attempt.
`Run.Holds` is what is true of a run when `Busy` is true of an action on its way and `Idle` whenever no action
is on its way; `Run.Turn.keeps` carries it over a step, given that the action keeps its part. `Run.outcome?` is
what the attempt that a run is in ends with; a failure for good ends the run with it (`Run.step_of_outcome`).
-/

namespace HubDevice.Retry

/-- Classifies failures as usual, and never denies a retry. -/
structure Policy.Patient (P : Policy) : Prop where
  transient : P.transient = ClientError.transient
  decide : ∀ n e, P.decide n e ≠ .stop

theorem Policy.patient_standard : Policy.standard.Patient where
  transient := rfl
  decide n e := by simp [Policy.standard, Policy.ofBackoff, Backoff.decide, Backoff.exhausted, Exponential.standard,
    Exponential.ofBounds]

end HubDevice.Retry

namespace HubDevice.Retry.Run

variable {σ α β : Type}

/-- Where a run stands that was granted another attempt: without a delay the attempt is due at once. -/
def awaiting (x : Action σ α β) (s : σ) (delay : Span) : Phase α :=
  if delay.isZero then .acting x.start else .pausing (delay.deadline (x.now s))

theorem awaiting_cases (x : Action σ α β) (s : σ) (delay : Span) :
    awaiting x s delay = .acting x.start ∨ ∃ t, awaiting x s delay = .pausing t := by
  unfold awaiting
  split
  · exact .inl rfl
  · exact .inr ⟨_, rfl⟩

/-- What one step of a run makes of the shared state and of the run. -/
inductive Turn (x : Action σ α β) (cancelled : Bool) (s : σ) (r : Run α) :
    σ → Progress (Run α) (Except ClientError β) → Prop where
  | cancelledActing {a : α} : cancelled = true → r.phase = .acting a →
      Turn x cancelled s r (x.abandon s a) (.done (.error .cancelled))
  | cancelledPausing {t : Nat} : cancelled = true → r.phase = .pausing t →
      Turn x cancelled s r s (.done (.error .cancelled))
  | advanced {a a' : α} {s' : σ} : r.phase = .acting a → x.step s a = some (s', .more a') →
      Turn x cancelled s r s' (.more { r with phase := .acting a' })
  | succeeded {a : α} {v : β} {s' : σ} : cancelled = false → r.phase = .acting a →
      x.step s a = some (s', .done (.ok v)) →
      Turn x cancelled s r s' (.done (.ok v))
  | failed {a : α} {e : ClientError} {s' : σ} : r.phase = .acting a →
      x.step s a = some (s', .done (.error e)) →
      e = .cancelled ∨ r.policy.transient e = false ∨ r.policy.decide r.attempt e = .stop →
      Turn x cancelled s r s' (.done (.error e))
  | retried {a : α} {e : ClientError} {s' : σ} {delay : Span} :
      r.phase = .acting a → x.step s a = some (s', .done (.error e)) →
      e ≠ .cancelled → r.policy.transient e = true → r.policy.decide r.attempt e = .retry delay →
      Turn x cancelled s r (x.granted s' e r.attempt delay)
        (.more ⟨r.policy, nextAttempt r.attempt, awaiting x (x.granted s' e r.attempt delay) delay⟩)
  | resumed {t : Nat} : r.phase = .pausing t → t ≤ x.now s →
      Turn x cancelled s r s (.more { r with phase := .acting x.start })

variable {x : Action σ α β} {c : Bool} {s s' : σ} {r : Run α}
  {p : Progress (Run α) (Except ClientError β)}

theorem turn_of_failure {a : α} {e : ClientError} {s₁ : σ} (hr : r.phase = .acting a)
    (hs : x.step s a = some (s₁, .done (.error e))) (h : afterFailure x s₁ r e = (s', p)) :
    Turn x c s r s' p := by
  unfold afterFailure at h
  split at h
  · rename_i hg
    obtain ⟨rfl, rfl⟩ := Prod.mk.inj h
    exact .failed hr hs (hg.imp_right .inl)
  · rename_i hg
    obtain ⟨he, ht⟩ := not_or.mp hg
    split at h
    · rename_i hd
      obtain ⟨rfl, rfl⟩ := Prod.mk.inj h
      exact .failed hr hs (.inr (.inr hd))
    · rename_i delay hd
      have hturn : Turn x c s r _ _ := .retried hr hs he (by simpa using ht) hd
      dsimp only at h
      unfold awaiting at hturn
      split at h <;> rename_i hz
      all_goals
        simp only [hz, if_true, Bool.false_eq_true, if_false] at hturn
        obtain ⟨rfl, rfl⟩ := Prod.mk.inj h
        exact hturn

theorem turn_of_step (h : r.step x c s = some (s', p)) : Turn x c s r s' p := by
  unfold step at h
  split at h
  · rename_i a hr
    split at h
    · rename_i hc
      cases h
      exact .cancelledActing hc hr
    · rename_i hc
      split at h
      · cases h
      all_goals rename_i hs
      · cases h
        exact .advanced hr hs
      · cases h
        exact .succeeded (by simpa using hc) hr hs
      · exact turn_of_failure hr hs (Option.some.inj h)
  · rename_i t hr
    split at h
    · rename_i hc
      cases h
      exact .cancelledPausing hc hr
    · split at h
      · rename_i ht
        cases h
        exact .resumed hr ht
      · cases h

/-- A token that has fired ends a run at once. -/
theorem step_of_fired (h : r.step x true s = some (s', p)) : s' = r.abandon x s ∧ p = .done (.error .cancelled) := by
  unfold step at h
  unfold abandon
  split at h <;> cases h <;> exact ⟨rfl, rfl⟩

/-- An action that ends well, or with a failure that is not granted another attempt, ends the run. -/
theorem step_of_done {policy : Policy} {n : Nat} {a : α} {o : Except ClientError β}
    (hs : x.step s a = some (s', .done o))
    (ho : ∀ e, o = .error e → policy.transient e = false ∨ policy.decide n e = .stop) :
    step x false s ⟨policy, n, .acting a⟩ = some (s', .done o) := by
  cases o with
  | ok v => simp [step, hs]
  | error e =>
    simp only [step, hs, afterFailure]
    rcases ho e rfl with ht | hd
    · simp [ht]
    · by_cases ht : policy.transient e = false <;> simp [ht, hd]

theorem Turn.policy_eq {r' : Run α} (h : Turn x c s r s' (.more r')) : r'.policy = r.policy := by
  cases h <;> rfl

/-- What no step of an action changes, and neither giving it up nor granting it a retry, a run does not change. -/
theorem Turn.unchanged {γ : Type} (h : Turn x c s r s' p) (π : σ → γ)
    (hs : ∀ {a s₁ q}, x.step s a = some (s₁, q) → π s₁ = π s) (ha : ∀ a, π (x.abandon s a) = π s)
    (hg : ∀ s e n d, π (x.granted s e n d) = π s) : π s' = π s := by
  cases h with
  | cancelledActing => exact ha _
  | cancelledPausing | resumed => rfl
  | advanced _ h | succeeded _ _ h | failed _ h => exact hs h
  | retried _ h => exact (hg _ _ _ _).trans (hs h)

/-! ## How attempts end -/

/-- The action that a run is at work on. -/
def action? (r : Run α) : Option α :=
  match r.phase with
  | .acting a => some a
  | .pausing _ => none

/-- What the attempt that a run is in ends with in a step, if it does. -/
def outcome? (x : Action σ α β) (cancelled : Bool) (s : σ) (r : Run α) : Option (Except ClientError β) :=
  r.action?.bind fun a =>
    if cancelled then some (.error .cancelled)
    else match x.step s a with
      | some (_, .done o) => some o
      | _ => none

theorem action?_eq_some {a : α} : r.action? = some a ↔ r.phase = .acting a := by
  unfold action?
  cases r.phase <;> simp

theorem outcome?_eq_some {o : Except ClientError β} (h : r.outcome? x c s = some o) :
    ∃ a, r.phase = .acting a ∧
      (c = true ∧ o = .error .cancelled ∨ c = false ∧ ∃ s', x.step s a = some (s', .done o)) := by
  obtain ⟨a, ha, h⟩ := Option.bind_eq_some_iff.mp h
  refine ⟨a, action?_eq_some.mp ha, ?_⟩
  split at h
  · cases h
    exact .inl ⟨‹_›, rfl⟩
  · split at h
    · rename_i s' o' hs
      cases h
      exact .inr ⟨eq_false_of_ne_true ‹_›, s', hs⟩
    · cases h

/-- A failure for good ends the run with its attempt. -/
theorem step_of_outcome {e : ClientError} (h : r.outcome? x c s = some (.error e))
    (he : r.policy.transient e = false) : ∃ s', r.step x c s = some (s', .done (.error e)) := by
  obtain ⟨a, ha, hcase⟩ := outcome?_eq_some h
  rcases hcase with ⟨rfl, hc⟩ | ⟨rfl, s', hs⟩
  · cases hc
    exact ⟨_, by simp only [step, ha, if_true]; rfl⟩
  · refine ⟨s', ?_⟩
    simp [step, ha, hs, afterFailure, he]


/-- A run under a patient policy fails for good, and as its action does, unless it is cancelled. -/
theorem Turn.failure {e : ClientError} (h : Turn x c s r s' (.done (.error e))) (hp : r.policy.Patient) :
    e = .cancelled ∨ e.transient = false ∧ ∃ a, x.step s a = some (s', .done (.error e)) := by
  cases h with
  | cancelledActing | cancelledPausing => exact .inl rfl
  | @failed a _ _ ha hs hwhy =>
    rcases hwhy with rfl | ht | hd
    · exact .inl rfl
    · exact .inr ⟨hp.transient ▸ ht, a, hs⟩
    · exact absurd hd (hp.decide _ _)

/-! ## What a run keeps -/

/-- `Busy` of the action on its way, or `Idle` while none is. -/
def Holds (Idle : σ → Prop) (Busy : α → σ → Prop) (s : σ) (r : Run α) : Prop :=
  match r.phase with
  | .acting a => Busy a s
  | .pausing _ => Idle s

theorem Holds.and {Idle Idle' : σ → Prop} {Busy Busy' : α → σ → Prop} (h : r.Holds Idle Busy s)
    (h' : r.Holds Idle' Busy' s) : r.Holds (fun s => Idle s ∧ Idle' s) (fun a s => Busy a s ∧ Busy' a s) s := by
  unfold Holds at h h' ⊢
  split <;> rename_i hp <;> rw [hp] at h h' <;> exact ⟨h, h'⟩

theorem Holds.right {Idle Idle' : σ → Prop} {Busy Busy' : α → σ → Prop}
    (h : r.Holds (fun s => Idle s ∧ Idle' s) (fun a s => Busy a s ∧ Busy' a s) s) : r.Holds Idle' Busy' s := by
  unfold Holds at h ⊢
  split <;> rename_i hp <;> rw [hp] at h <;> exact h.2

/-- What an action has to keep for every run of it to keep `Idle` and `Busy`. -/
structure Keeps (x : Action σ α β) (Idle : σ → Prop) (Busy : α → σ → Prop) (Done : σ → Prop) : Prop where
  start : ∀ {s}, Idle s → Busy x.start s
  abandon : ∀ {s a}, Busy a s → Idle (x.abandon s a)
  granted : ∀ {s} e n d, Idle s → Idle (x.granted s e n d)
  more : ∀ {s a s' a'}, Busy a s → x.step s a = some (s', .more a') → Busy a' s'
  ok : ∀ {s a s' v}, Busy a s → x.step s a = some (s', .done (.ok v)) → Done s'
  error : ∀ {s a s' e}, Busy a s → x.step s a = some (s', .done (.error e)) → Idle s'

variable {Idle Done : σ → Prop} {Busy : α → σ → Prop}

theorem Keeps.holds_ofPolicy (hx : Keeps x Idle Busy Done) (policy : Policy) (n : Nat) (hs : Idle s) :
    Holds Idle Busy s (ofPolicy x policy n) := hx.start hs

theorem Keeps.idle_abandon (hx : Keeps x Idle Busy Done) (hr : r.Holds Idle Busy s) :
    Idle (r.abandon x s) := by
  unfold Holds at hr
  unfold Run.abandon
  cases hp : r.phase with
  | acting a =>
    rw [hp] at hr
    exact hx.abandon hr
  | pausing t =>
    rw [hp] at hr
    exact hr

theorem Turn.keeps (h : Turn x c s r s' p) (hx : Keeps x Idle Busy Done) (hr : r.Holds Idle Busy s) :
    p.Leaves (Holds Idle Busy s') (Done s') (Idle s') := by
  unfold Holds at hr
  cases h with
  | cancelledActing _ hp =>
    rw [hp] at hr
    exact hx.abandon hr
  | cancelledPausing _ hp =>
    rw [hp] at hr
    exact hr
  | advanced hp hs =>
    rw [hp] at hr
    exact hx.more hr hs
  | succeeded _ hp hs =>
    rw [hp] at hr
    exact hx.ok hr hs
  | failed hp hs =>
    rw [hp] at hr
    exact hx.error hr hs
  | @retried _ e s₁ delay hp hs =>
    rw [hp] at hr
    have hi := hx.granted e r.attempt delay (hx.error hr hs)
    have hph := awaiting_cases x (x.granted s₁ e r.attempt delay) delay
    simp only [Progress.Leaves, Holds]
    rcases hph with hph | ⟨t, hph⟩ <;> rw [hph]
    · exact hx.start hi
    · exact hi
  | resumed hp =>
    rw [hp] at hr
    exact hx.start hr

end HubDevice.Retry.Run
