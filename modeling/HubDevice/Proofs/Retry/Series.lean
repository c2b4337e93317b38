import HubDevice.Proofs.Retry.Run

/-!
# Series of attempts

What a run looks like to somebody with a clock. A `Mark` notes that an attempt began, or how it ended;
`Policy.Series` are the marks that keep to a policy, each attempt after a failure preceded by the delay that
the policy decided on. `Run.Turn.series` says that every step of a run continues such a series. How many
attempts there are then follows from the policy alone (`Policy.Series.attempts_eq`,
`Policy.Series.attempts_of_limit`).
-/

namespace HubDevice.Retry

/-! ## Marks -/

/-- What is noted of an attempt: when it began, and when and how it ended. -/
inductive Mark where
  | began (time : Nat)
  | ended (time : Nat) (outcome : Except ClientError Unit)

def Mark.isBegan : Mark → Bool
  | .began _ => true
  | .ended _ _ => false

def Mark.outcome? : Mark → Option (Except ClientError Unit)
  | .began _ => none
  | .ended _ r => some r

/-- How many attempts have begun. -/
def attempts (ms : List Mark) : Nat := ms.countP Mark.isBegan

/-- How the attempts ended, the last one first. -/
def outcomes (ms : List Mark) : List (Except ClientError Unit) := ms.filterMap Mark.outcome?

/-- Where a series of attempts stands. -/
inductive Standing where
  /-- The next attempt may begin at a time. -/
  | due (time : Nat)
  /-- An attempt is on its way. -/
  | busy
  | settled (outcome : Except ClientError Unit)

/-- How many attempts have begun beyond those that a retry was granted after. -/
def Standing.underway : Standing → Nat
  | .due _ => 0
  | .busy | .settled _ => 1

def Standing.outcome? : Standing → Option (Except ClientError Unit)
  | .settled r => some r
  | .due _ | .busy => none

namespace Policy

/-- What is decided on the failure after which `n` failures were granted a retry. -/
def decision (P : Policy) (n : Nat) (e : ClientError) : Decision := P.decide (min n maxAttempt) e

/-- The delays that failures are followed by, the first of them with a number; nothing when one of them is
not granted a retry. -/
def delays? (P : Policy) (first : Nat) : List ClientError → Option (List Span)
  | [] => some []
  | e :: es =>
    if P.transient e then
      match P.decision first e with
      | .stop => none
      | .retry d => (P.delays? (first + 1) es).map (d :: ·)
    else none

/-- When delays that follow each other from a time on have passed. -/
def afterDelays (ds : List Span) (now : Nat) : Nat := ds.foldl (fun t d => d.deadline t) now

theorem afterDelays_cons (d : Span) (ds : List Span) (now : Nat) :
    afterDelays (d :: ds) now = afterDelays ds (d.deadline now) := by
  unfold afterDelays
  rw [List.foldl_cons]

/-- The marks of a series that keeps to a policy, the newest first, with the number of retries granted so far
and where the series stands. The first attempt may begin at `since`, and the first failure of the series is
decided on as the one with number `first`. -/
inductive Series (P : Policy) (first since : Nat) : List Mark → Nat → Standing → Prop where
  | start : Series P first since [] 0 (.due since)
  | begin {ms : List Mark} {n t b : Nat} : Series P first since ms n (.due t) → t ≤ b →
      Series P first since (.began b :: ms) n .busy
  | retry {ms : List Mark} {n t : Nat} {e : ClientError} {d : Span} : Series P first since ms n .busy →
      P.transient e = true → P.decision (first + n) e = .retry d →
      Series P first since (.ended t (.error e) :: ms) (n + 1) (.due (d.deadline t))
  | success {ms : List Mark} {n t : Nat} {v : Unit} : Series P first since ms n .busy →
      Series P first since (.ended t (.ok v) :: ms) n (.settled (.ok v))
  | failure {ms : List Mark} {n t : Nat} {e : ClientError} : Series P first since ms n .busy →
      P.transient e = false ∨ P.decision (first + n) e = .stop →
      Series P first since (.ended t (.error e) :: ms) n (.settled (.error e))

variable {P : Policy} {first since floor n N : Nat} {ms : List Mark} {std : Standing}

/-- A series whose first attempt is not due before a time. -/
def SeriesFrom (P : Policy) (first floor : Nat) (ms : List Mark) (n : Nat) (std : Standing) : Prop :=
  ∃ since, floor ≤ since ∧ P.Series first since ms n std

/-- A failed series failed for good, or was granted no further attempt. -/
theorem Series.final {e : ClientError} (h : P.Series first since ms n (.settled (.error e))) :
    P.transient e = false ∨ P.decision (first + n) e = .stop := by
  cases h with
  | failure _ hf => exact hf

/-- One attempt for each retry that was granted, and one more that is on its way or was the last. -/
theorem Series.attempts_eq (h : P.Series first since ms n std) : attempts ms = n + std.underway := by
  unfold attempts
  induction h with
  | start => rfl
  | begin _ _ ih =>
    rw [List.countP_cons, ih]
    rfl
  | retry _ _ _ ih | success _ ih | failure _ _ ih =>
    rw [List.countP_cons, ih]
    rfl

theorem delays?_append_of_some {es : List ClientError} {ds : List Span} {e : ClientError} {d : Span}
    (h : P.delays? first es = some ds) (ht : P.transient e = true)
    (hd : P.decision (first + es.length) e = .retry d) : P.delays? first (es ++ [e]) = some (ds ++ [d]) := by
  induction es generalizing first ds with
  | nil =>
    cases h
    have hd' : P.decision first e = .retry d := hd
    simp [delays?, ht, hd']
  | cons e₀ es ih =>
    simp only [delays?] at h
    split at h
    · rename_i ht₀
      split at h
      · cases h
      · rename_i d₀ hd₀
        obtain ⟨ds₀, hds, rfl⟩ := Option.map_eq_some_iff.mp h
        have hn : first + 1 + es.length = first + (e₀ :: es).length := by simp only [List.length_cons]; omega
        simp [delays?, ht₀, hd₀, ih hds (hn ▸ hd)]
    · cases h

/-- A series begins with as many failures as retries were granted, each followed by the delay that was decided
on; what comes after them is its outcome. -/
theorem Series.granted (h : P.Series first since ms n std) :
    ∃ es ds, P.delays? first es = some ds ∧ es.length = n ∧
      outcomes ms = std.outcome?.toList ++ (es.map .error).reverse := by
  induction h with
  | start => exact ⟨[], [], rfl, rfl, rfl⟩
  | begin _ _ ih => exact ih
  | @retry _ _ _ e d _ ht hd ih =>
    obtain ⟨es, ds, hds, rfl, ho⟩ := ih
    refine ⟨es ++ [e], ds ++ [d], delays?_append_of_some hds ht hd, by simp, ?_⟩
    simpa [outcomes, Mark.outcome?, Standing.outcome?] using ho
  | success _ ih | failure _ _ ih =>
    obtain ⟨es, ds, hds, hn, ho⟩ := ih
    exact ⟨es, ds, hds, hn, congrArg (_ :: ·) ho⟩

/-- With a limit on the number of retries, no more are granted. -/
theorem Series.granted_le (h : P.Series first since ms n std) (hN : N ≤ maxAttempt)
    (hd : ∀ m e, P.decide m e = .stop ↔ N ≤ m) (hf : first ≤ N) : first + n ≤ N := by
  induction h with
  | start => exact hf
  | begin _ _ ih | success _ ih | failure _ _ ih => exact ih
  | @retry _ n _ e _ _ _ hr _ =>
    have hm : ¬ N ≤ min (first + n) maxAttempt := fun hle => by
      rw [decision, (hd _ e).mpr hle] at hr
      cases hr
    omega

/-- With a limit on the number of retries, a series that ends with a transient failure has used it up. -/
theorem Series.attempts_of_limit {e : ClientError} (h : P.Series first since ms n (.settled (.error e)))
    (hN : N ≤ maxAttempt) (hd : ∀ m e, P.decide m e = .stop ↔ N ≤ m) (hf : first ≤ N)
    (ht : P.transient e = true) : first + attempts ms = N + 1 := by
  have hle := h.granted_le hN hd hf
  rw [h.attempts_eq]
  simp only [Standing.underway]
  rcases h.final with hp | hs
  · rw [ht] at hp
    cases hp
  · have hge := (hd _ e).mp hs
    omega

end Policy

/-! ## The series of a run -/

namespace Run

variable {σ α : Type} {x : Action σ α Unit} {fresh : α → Bool}

/-- What a step of a run notes; `fresh` says that an attempt has not begun yet. -/
def mark? (x : Action σ α Unit) (fresh : α → Bool) (cancelled : Bool) (s : σ) (r : Run α) : Option Mark :=
  match r.phase with
  | .pausing _ => none
  | .acting a =>
    if cancelled then none
    else match x.step s a with
      | none => none
      | some (_, .more _) => if fresh a then some (.began (x.now s)) else none
      | some (_, .done r) => some (.ended (x.now s) r)

/-- Attempts take several steps, of which the first one is told by `fresh`, and none of them takes time. -/
structure Timed (x : Action σ α Unit) (fresh : α → Bool) : Prop where
  start : fresh x.start = true
  more : ∀ {s a s' a'}, x.step s a = some (s', .more a') → fresh a' = false
  done : ∀ {s a s' r}, x.step s a = some (s', .done r) → fresh a = false
  now : ∀ {s a s' pr}, x.step s a = some (s', pr) → x.now s' = x.now s
  granted : ∀ s e n d, x.now (x.granted s e n d) = x.now s

/-- Where the series stands of a run in a phase. -/
def Stands (fresh : α → Bool) (now : Nat) : Phase α → Standing → Prop
  | .acting a, .due t => fresh a = true ∧ t ≤ now
  | .acting a, .busy => fresh a = false
  | .pausing t, .due t' => t = t'
  | _, _ => False

/-- A run under a policy that has granted `n` retries since the failure with number `first`. -/
structure Pursues (fresh : α → Bool) (P : Policy) (first n : Nat) (std : Standing) (now : Nat) (r : Run α) :
    Prop where
  policy : r.policy = P
  attempt : r.attempt = min (first + n) maxAttempt
  stands : Stands fresh now r.phase std

variable {P : Policy} {first floor n now now' : Nat} {ms : List Mark} {std : Standing} {s s' : σ} {r : Run α}
  {q : Progress (Run α) (Except ClientError Unit)}

theorem Pursues.mono (h : r.Pursues fresh P first n std now) (hn : now ≤ now') :
    r.Pursues fresh P first n std now' := by
  refine { h with stands := ?_ }
  have hs := h.stands
  unfold Stands at hs ⊢
  split <;> simp_all
  omega

theorem pursues_ofPolicy (hx : Timed x fresh) (hf : first ≤ maxAttempt) (hn : floor ≤ now) :
    (ofPolicy x P first).Pursues fresh P first 0 (.due floor) now where
  policy := rfl
  attempt := by simp only [ofPolicy]; omega
  stands := ⟨hx.start, hn⟩

theorem stands_awaiting (hx : Timed x fresh) (s : σ) (d : Span) :
    Stands fresh (x.now s) (awaiting x s d) (.due (d.deadline (x.now s))) := by
  unfold awaiting
  split
  · rename_i hz
    exact ⟨hx.start, Nat.le_of_eq (d.deadline_of_isZero hz _)⟩
  · rfl

/-- What is counted along with the retries that are granted. -/
structure Counts (x : Action σ α Unit) (P : Policy) (I : Nat → σ → Prop) : Prop where
  step : ∀ {n s a s' pr}, I n s → x.step s a = some (s', pr) → I n s'
  granted : ∀ {n s₀ a s e} (m : Nat) (d : Span), I n s → x.step s₀ a = some (s, .done (.error e)) →
    P.transient e = true → I (n + 1) (x.granted s e m d)

/-- A step leaves a run in the midst of its series, or the outcome of the series. -/
def Onward (fresh : α → Bool) (P : Policy) (first n : Nat) (std : Standing) (now : Nat) :
    Progress (Run α) (Except ClientError Unit) → Prop
  | .more r => r.Pursues fresh P first n std now
  | .done o => std = .settled o

/-- An attempt that ends was on its way. -/
theorem Stands.busy_of_done {a : α} {o : Except ClientError Unit} (hx : Timed x fresh)
    (hst : Stands fresh now r.phase std) (hph : r.phase = .acting a) (h : x.step s a = some (s', .done o)) :
    std = .busy ∧ r.mark? x fresh false s = some (.ended (x.now s) o) := by
  rw [hph] at hst
  have hf := hx.done h
  refine ⟨?_, by simp [mark?, hph, h]⟩
  cases std with
  | busy => rfl
  | due t =>
    rw [hst.1] at hf
    cases hf
  | settled => exact hst.elim

/-- An attempt that goes on begins now, or is on its way. -/
theorem Stands.series_of_more {a a' : α} (hst : Stands fresh (x.now s) r.phase std)
    (hph : r.phase = .acting a) (h : x.step s a = some (s', .more a')) (hs : P.SeriesFrom first floor ms n std) :
    P.SeriesFrom first floor ((r.mark? x fresh false s).toList ++ ms) n .busy := by
  obtain ⟨since, hle, hs⟩ := hs
  have hm : r.mark? x fresh false s = if fresh a then some (.began (x.now s)) else none := by
    simp [mark?, hph, h]
  rw [hph] at hst
  rw [hm]
  cases std with
  | due t =>
    rw [if_pos hst.1]
    exact ⟨since, hle, hs.begin hst.2⟩
  | busy =>
    have hf : fresh a = false := hst
    exact ⟨since, hle, by simpa [hf] using hs⟩
  | settled => exact hst.elim

/-- Every step of a run that is not cancelled continues its series, and takes no time. -/
theorem Turn.series {I : Nat → σ → Prop} (h : Turn x false s r s' q) (hx : Timed x fresh) (hI : Counts x P I)
    (hc : P.transient .cancelled = false) (hr : r.Pursues fresh P first n std (x.now s))
    (hs : P.SeriesFrom first floor ms n std) (hi : I n s) :
    x.now s' = x.now s ∧ ∃ n' std', P.SeriesFrom first floor ((r.mark? x fresh false s).toList ++ ms) n' std' ∧
      I n' s' ∧ Onward fresh P first n' std' (x.now s') q := by
  obtain ⟨hp, hn, hst⟩ := hr
  cases h with
  | cancelledActing hf | cancelledPausing hf => cases hf
  | advanced hph hstep =>
    have hnow := hx.now hstep
    exact ⟨hnow, n, .busy, hst.series_of_more hph hstep hs, hI.step hi hstep, hp, hn, hx.more hstep⟩
  | @succeeded a v _ _ hph hstep =>
    obtain ⟨rfl, hm⟩ := hst.busy_of_done hx hph hstep
    refine ⟨hx.now hstep, n, .settled (.ok v), ?_, hI.step hi hstep, rfl⟩
    obtain ⟨since, hle, hs⟩ := hs
    rw [hm]
    exact ⟨since, hle, hs.success⟩
  | @failed a e _ hph hstep hfin =>
    obtain ⟨rfl, hm⟩ := hst.busy_of_done hx hph hstep
    refine ⟨hx.now hstep, n, .settled (.error e), ?_, hI.step hi hstep, rfl⟩
    obtain ⟨since, hle, hs⟩ := hs
    rw [hm]
    rw [hp, hn] at hfin
    rcases hfin with rfl | hfin
    · exact ⟨since, hle, hs.failure (.inl hc)⟩
    · exact ⟨since, hle, hs.failure hfin⟩
  | @retried a e s₁ d hph hstep _ ht hd =>
    obtain ⟨rfl, hm⟩ := hst.busy_of_done hx hph hstep
    rw [hp] at ht
    rw [hp, hn] at hd
    have hnow : x.now (x.granted s₁ e r.attempt d) = x.now s := (hx.granted ..).trans (hx.now hstep)
    refine ⟨hnow, n + 1, .due (d.deadline (x.now s)), ?_, hI.granted _ _ (hI.step hi hstep) hstep ht, hp, ?_,
      hnow ▸ stands_awaiting hx _ d⟩
    · obtain ⟨since, hle, hs⟩ := hs
      rw [hm]
      exact ⟨since, hle, hs.retry ht hd⟩
    · simp only [hn, nextAttempt]
      omega
  | @resumed t hph hle =>
    have hm : r.mark? x fresh false s = none := by simp [mark?, hph]
    refine ⟨rfl, n, std, hm ▸ hs, hi, hp, hn, ?_⟩
    rw [hph] at hst
    cases std with
    | due t' =>
      have he : t = t' := hst
      exact ⟨hx.start, he ▸ hle⟩
    | busy | settled => exact hst.elim

end Run

end HubDevice.Retry
