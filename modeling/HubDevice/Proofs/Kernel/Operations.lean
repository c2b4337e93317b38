import HubDevice.Proofs.Kernel.Causes

/-!
# Operations on a connection that comes and goes

Each attempt of a data operation or of a change of a subscription first makes sure that the connection is usable,
and then calls the handler (`Stage`). An attempt that calls it has found after its beginning that the client was
not disposed, and has found the link up (`Trial`, `trial_of_calls`). One that ends before has a reason that the
history of the run bears out (`Reason`), which ends the operation too, or has met a link that nobody restores any
more (`reason_of_path`). An operation that starts once an open call has succeeded, under a schedule without an
end, does not let its caller see any of the recoveries that it has met (`Task.Transparent`, `lasting_of_path`).
-/

namespace HubDevice.Kernel

open FairLock Retry Wire

variable {p : Party} {k k' : Kernel} {e : Happening} {i token : Nat} {l : List (Kernel × Happening)}
  {interval : Option Span} {policy : Policy}

/-! ## Stages of an attempt -/

/-- Where an attempt of an operation stands: it has to make its first check, it makes sure that the connection is
usable, or it has called the handler. -/
inductive Stage where
  | beginning
  | checking
  | calling
  deriving DecidableEq

def Guarded.stage : Guarded → Stage
  | .admission .checkDisposed => .beginning
  | .admission _ => .checking
  | .calling _ => .calling

def Toggling.stage : Toggling → Stage
  | .admission .checkDisposed => .beginning
  | .calling _ => .calling
  | _ => .checking

/-- The stage of the attempt that an operation is in. -/
def Task.stage? : Task → Option Stage
  | .running _ run => run.action?.map Guarded.stage
  | .toggling _ _ _ run => run.action?.map Toggling.stage
  | _ => none

def stage? (k : Kernel) (i : Nat) : Option Stage := k.tasks[i]?.bind fun o => o.task.stage?

/-- How a step of an attempt that goes on moves it through its stages. -/
inductive Stage.Moves (k : Kernel) : Stage → Stage → Prop where
  | admitted : k.disposed = false → Moves k .beginning .checking
  | checks : Moves k .checking .checking
  | calls : k.link = .connected → Moves k .checking .calling
  | called : Moves k .calling .calling

theorem Guarded.stage_step {x : Exchange} {a a' : Guarded} (hk : k.Steady)
    (h : a.step x p k = some (k', .more a')) : a.stage.Moves k a'.stage := by
  cases turn_of_step h with
  | admitting ht =>
    cases ht with
    | admitted hd => exact .admitted hd
    | unconnected | asked | entered => exact .checks
  | @admitted a k' ht =>
    generalize hr : Progress.done (Except.ok ()) = r at ht
    cases ht with
    | connected hc => exact .calls (by simpa [hk.connected] using hc)
    | read => exact .calls (connected_of_checkLink (Progress.done.inj hr).symm)
    | _ => cases hr
  | calling => exact .called

theorem Toggling.stage_step {f : Feature} {enable edge : Bool} {a a' : Toggling}
    (h : a.step f enable edge p k = some (k', .more a')) : a.stage.Moves k a'.stage := by
  cases turn_of_step h with
  | admitting ht =>
    cases ht with
    | admitted hd => exact .admitted hd
    | unconnected | asked | entered => exact .checks
  | admitted ht =>
    generalize hr : Progress.done (Except.ok ()) = r at ht
    cases ht with
    | connected | read => exact .checks
    | _ => cases hr
  | asked | entered => exact .checks
  | began hl => exact .calls hl
  | calling => exact .called

/-- How a step of a run moves the attempt that it is in: a new attempt is at its beginning. -/
theorem stage_of_turn {α : Type} {x : Action Kernel α Reply} (stage : α → Stage) {c : Bool} {run run' : Run α}
    {st : Stage} (h : Run.Turn x c k run k' (.more run')) (hst : run'.action?.map stage = some st)
    (hstart : stage x.start = .beginning)
    (hx : ∀ {a a'}, x.step k a = some (k', .more a') → (stage a).Moves k (stage a')) :
    st = .beginning ∨ ∃ st₀, run.action?.map stage = some st₀ ∧ st₀.Moves k st := by
  obtain ⟨a', ha', rfl⟩ := Option.map_eq_some_iff.mp hst
  have hph := Run.action?_eq_some.mp ha'
  cases h with
  | advanced ha hs =>
    cases hph
    exact .inr ⟨_, by rw [Run.action?_eq_some.mpr ha]; rfl, hx hs⟩
  | @retried _ e k₁ delay =>
    have hcases := Run.awaiting_cases x (x.granted k₁ e run.attempt delay) delay
    rcases hcases with hw | ⟨t, hw⟩ <;> rw [hw] at hph <;> cases hph
    exact .inl hstart
  | resumed =>
    cases hph
    exact .inl hstart

theorem Task.stage_step {t t' : Task} {st : Stage} (hk : k.Steady) (h : t.step token p k = some (k', t'))
    (hst : t'.stage? = some st) : st = .beginning ∨ ∃ st₀, t.stage? = some st₀ ∧ st₀.Moves k st := by
  cases t with
  | ready request => cases request <;> cases h <;> cases hst <;> exact .inl rfl
  | opening ph =>
    obtain ⟨q, -, rfl⟩ := ofPart_eq_some h
    cases q <;> cases hst
  | closing ph =>
    obtain ⟨q, -, rfl⟩ := ofPart_eq_some h
    cases q <;> cases hst
  | running x run =>
    obtain ⟨q, hq, rfl⟩ := ofPart_eq_some h
    cases q with
    | more run' =>
      exact stage_of_turn Guarded.stage (Run.turn_of_step hq) hst rfl fun hs => Guarded.stage_step hk hs
    | done r => cases hst
  | toggling f enable edge run =>
    obtain ⟨q, hq, rfl⟩ := ofPart_eq_some h
    cases q with
    | more run' =>
      exact stage_of_turn Toggling.stage (Run.turn_of_step hq) hst rfl fun hs => Toggling.stage_step hs
    | done r => cases hst
  | ended r => cases h

theorem stage?_after (hr : k.Reachable) (he : k.after e = some k') {st : Stage} (hst : k'.stage? i = some st) :
    st = .beginning ∨ k.stage? i = some st ∧ e ≠ .stepTask i ∨
      e = .stepTask i ∧ ∃ st₀, k.stage? i = some st₀ ∧ st₀.Moves k st := by
  have hord := orderly_of_reachable hr
  obtain ⟨o', ho', hst⟩ := Option.bind_eq_some_iff.mp hst
  by_cases hei : e = .stepTask i
  · subst hei
    obtain ⟨⟨token, t⟩, k₁, t', ht, hs, rfl⟩ := stepTask_eq_some he
    have hi : i < k₁.tasks.length := by
      rw [(Task.movement (hord.lifetimeOver ht) hs).tasks]
      exact (List.getElem?_eq_some_iff.mp ht).1
    rw [List.getElem?_set_self hi] at ho'
    cases ho'
    rcases Task.stage_step (steady_of_reachable hr) hs hst with hb | ⟨st₀, hst₀, hm⟩
    · exact .inl hb
    · exact .inr (.inr ⟨rfl, st₀, by simp [stage?, ht, hst₀], hm⟩)
  · rcases tasks_after hord he i with hsame | ⟨-, _, _, hnew⟩ | ⟨_, _, _, hei', -⟩
    · exact .inr (.inl ⟨by simp [stage?, ← hsame, ho', hst], hei⟩)
    · cases hnew.symm.trans ho'
      cases hst
    · exact absurd hei' hei

/-! ## Attempts that call the handler -/

/-- The client is not disposed, and the link is up. -/
def Usable (k : Kernel) : Prop := k.disposed = false ∧ k.link = .connected

instance (k : Kernel) : Decidable k.Usable := inferInstanceAs (Decidable (_ ∧ _))

/-- In a step the attempt of an operation calls the handler. -/
def Calls (x : Kernel × Happening) (i : Nat) : Prop :=
  x.2 = .stepTask i ∧ x.1.stage? i ≠ some .calling ∧
    ∃ k', x.1.after x.2 = some k' ∧ k'.stage? i = some .calling

/-- The attempt that an operation is in: the step `y` by which it began, and found that the client was not
disposed, and what has happened `since`. -/
structure Trial (l : List (Kernel × Happening)) (i : Nat) (y : Kernel × Happening)
    (since : List (Kernel × Happening)) : Prop where
  history : ∃ before, l = since ++ y :: before
  step : y.2 = .stepTask i
  beginning : y.1.stage? i = some .beginning
  undisposed : y.1.disposed = false
  checking : ∀ z ∈ since, z.1.stage? i = some .checking

theorem Trial.cons {y : Kernel × Happening} {since : List (Kernel × Happening)} (h : Trial l i y since)
    (hst : k.stage? i = some .checking) : Trial ((k, e) :: l) i y ((k, e) :: since) where
  history := by
    obtain ⟨before, rfl⟩ := h.history
    exact ⟨before, rfl⟩
  step := h.step
  beginning := h.beginning
  undisposed := h.undisposed
  checking z hz := by
    rcases List.mem_cons.mp hz with rfl | hz
    · exact hst
    · exact h.checking z hz

theorem trial_of_path (hp : Path (initial interval policy) l k) (hst : k.stage? i = some .checking) :
    ∃ y since, Trial l i y since := by
  -- An attempt that checks has been admitted in an earlier step, and has only checked since.
  induction hp with
  | refl => cases hst
  | @tail l k k' e hp he ih =>
    rcases stage?_after (hp.reachable (reachable_initial interval policy)) he hst with
      hb | ⟨hk, -⟩ | ⟨rfl, st₀, hk, hm⟩
    · cases hb
    · obtain ⟨y, since, h⟩ := ih hk
      exact ⟨y, _, h.cons hk⟩
    · cases hm with
      | admitted hd => exact ⟨(k, .stepTask i), [], ⟨l, rfl⟩, rfl, hk, hd, List.forall_mem_nil _⟩
      | checks =>
        obtain ⟨y, since, h⟩ := ih hk
        exact ⟨y, _, h.cons hk⟩

/-- A link that is up after a time at which the client was not disposed was up at such a time, or has been raised
late. -/
theorem usable_of_path {k₀ : Kernel} (hr : k₀.Reachable) (hp : Path k₀ l k) (hd : k₀.disposed = false)
    (hl : k.link = .connected) : k.Usable ∨ (∃ z ∈ l, z.1.Usable) ∨ ∃ z ∈ l, RaisedLate z := by
  induction hp with
  | refl => exact .inl ⟨hd, hl⟩
  | @tail l k k' e hp he ih =>
    by_cases hk : k.link = .connected
    · rcases ih hk with hu | ⟨z, hz, hu⟩ | ⟨z, hz, hlate⟩
      · exact .inr (.inl ⟨(k, e), List.mem_cons_self, hu⟩)
      · exact .inr (.inl ⟨z, List.mem_cons_of_mem _ hz, hu⟩)
      · exact .inr (.inr ⟨z, List.mem_cons_of_mem _ hz, hlate⟩)
    · cases hkd : k.disposed with
      | true => exact .inr (.inr ⟨(k, e), List.mem_cons_self, hkd, hk, k', he, hl⟩)
      | false =>
        -- Raising the link and disposing of the client are different steps.
        refine .inl ⟨?_, hl⟩
        rcases notes_after (orderly_of_reachable (hp.reachable hr)) he with hn | ⟨i, -, hn⟩
        · rw [hn.disposed, hkd]
        · cases hn with
          | disposed => exact absurd hl hk
          | raised | concluded => exact hkd

/-- An attempt that calls the handler has found that the client was not disposed and, later, that the link was up.
There was an instant in between at which it was both, unless the link has been raised late. -/
theorem trial_of_calls {older : List (Kernel × Happening)} {x : Kernel × Happening}
    (hp : Path (initial interval policy) older x.1) (hx : Calls x i) :
    x.1.link = .connected ∧ ∃ y since, Trial older i y since ∧
      ((∃ z ∈ x :: (since ++ [y]), z.1.Usable) ∨ ∃ z ∈ since, RaisedLate z) := by
  obtain ⟨hxi, hne, k', he, hst⟩ := hx
  have hr := hp.reachable (reachable_initial interval policy)
  have hcalls : x.1.stage? i = some .checking ∧ x.1.link = .connected := by
    rcases stage?_after hr he hst with hb | ⟨-, hei⟩ | ⟨-, st₀, hk, hm⟩
    · cases hb
    · exact absurd hxi hei
    · cases hm with
      | calls hl => exact ⟨hk, hl⟩
      | called => exact absurd hk hne
  obtain ⟨y, since, ht⟩ := trial_of_path hp hcalls.1
  refine ⟨hcalls.2, y, since, ht, ?_⟩
  obtain ⟨before, rfl⟩ := ht.history
  obtain ⟨hpy, k₁, hey, hsince⟩ := hp.cut
  have hry := hpy.reachable (reachable_initial interval policy)
  rcases usable_of_path hry ((History.refl.tail _ hey).trans hsince) ht.undisposed hcalls.2 with
    hu | ⟨z, hz, hu⟩ | ⟨z, hz, hlate⟩
  · exact .inl ⟨x, List.mem_cons_self, hu⟩
  · exact .inl ⟨z, List.mem_cons_of_mem _ hz, hu⟩
  · rcases List.mem_append.mp hz with hz | hz
    · exact .inr ⟨z, hz, hlate⟩
    · rw [List.mem_singleton.mp hz] at hlate
      cases hlate.1.symm.trans ht.undisposed

/-! ## Attempts that end before -/

/-- What the attempt that an operation is in ends with in a step, if it does. -/
def Task.outcome? (token : Nat) (p : Party) (k : Kernel) : Task → Option (Except ClientError Reply)
  | .running x run => run.outcome? (guarded x p) (k.tokenFired token) k
  | .toggling f enable edge run => run.outcome? (Kernel.toggling f enable edge p) (k.tokenFired token) k
  | _ => none

/-- In a step the attempt of an operation ends. -/
def Ends (x : Kernel × Happening) (i : Nat) (r : Except ClientError Reply) : Prop :=
  x.2 = .stepTask i ∧ ∃ o, x.1.tasks[i]? = some o ∧ o.task.outcome? o.token (.task i) x.1 = some r

/-- Why an attempt ends that has not called the handler: its token has fired, the client is being closed, the link,
read under the gate, is not up, or the feature is as asked. -/
inductive Task.Denied (k : Kernel) (token : Nat) : Task → ClientError → Prop where
  | cancelled {t : Task} : k.tokenFired token = true → Denied k token t .cancelled
  | disposed {t : Task} : k.disposed = true → Denied k token t .disposed
  | down {t : Task} {e : ClientError} : t.stance = .inside → checkLink k.link = .error e → Denied k token t e
  | pointless {f : Feature} {enable edge : Bool} {run : Run Toggling} : k.features.has f = enable →
      Denied k token (.toggling f enable edge run) (.featureState f enable)

theorem Admission.denied_of_turn {a : Admission} {e : ClientError} (h : a.Turn p k k' (.done (.error e))) :
    k.disposed = true ∧ e = .disposed ∨ a.stance = .inside ∧ checkLink k.link = .error e := by
  generalize hr : Progress.done (Except.error e) = r at h
  cases h with
  | refused hd =>
    cases hr
    exact .inl ⟨hd, rfl⟩
  | read => exact .inr ⟨rfl, (Progress.done.inj hr).symm⟩
  | _ => cases hr

theorem Guarded.denied_of_step {x : Exchange} {a : Guarded} {r : Except ClientError Reply}
    (h : a.step x p k = some (k', .done r)) (hst : a.stage ≠ .calling) :
    ∃ e, r = .error e ∧
      (k.disposed = true ∧ e = .disposed ∨ a.stance = .inside ∧ checkLink k.link = .error e) := by
  cases turn_of_step h with
  | refused ht => exact ⟨_, rfl, Admission.denied_of_turn ht⟩
  | returned => exact absurd rfl hst

theorem Toggling.denied_of_step {f : Feature} {enable edge : Bool} {a : Toggling} {r : Except ClientError Reply}
    (h : a.step f enable edge p k = some (k', .done r)) (hst : a.stage ≠ .calling) :
    ∃ e, r = .error e ∧
      ((k.disposed = true ∧ e = .disposed ∨ a.stance = .inside ∧ checkLink k.link = .error e) ∨
        k.features.has f = enable ∧ e = .featureState f enable) := by
  cases turn_of_step h with
  | refused ht => exact ⟨_, rfl, .inl (Admission.denied_of_turn ht)⟩
  | unusable hl => exact ⟨_, rfl, .inl (.inr ⟨rfl, hl⟩)⟩
  | pointless hf => exact ⟨_, rfl, .inr ⟨hf, rfl⟩⟩
  | changed | failed => exact absurd rfl hst

theorem Task.denied_of_outcome {t : Task} {r : Except ClientError Reply} (h : t.outcome? token p k = some r)
    (hst : t.stage? ≠ some .calling) :
    ∃ st e, t.stage? = some st ∧ st ≠ .calling ∧ r = .error e ∧ t.Denied k token e := by
  cases t with
  | running x run =>
    obtain ⟨a, ha, hcase⟩ := Run.outcome?_eq_some h
    have hsome : (Task.running x run).stage? = some a.stage :=
      congrArg (Option.map Guarded.stage) (Run.action?_eq_some.mpr ha)
    have hne : a.stage ≠ .calling := fun hc => hst (hc ▸ hsome)
    rcases hcase with ⟨hf, rfl⟩ | ⟨-, k', hs⟩
    · exact ⟨_, _, hsome, hne, rfl, .cancelled hf⟩
    · obtain ⟨e, rfl, ⟨hd, rfl⟩ | ⟨hin, hl⟩⟩ := Guarded.denied_of_step hs hne
      · exact ⟨_, _, hsome, hne, rfl, .disposed hd⟩
      · exact ⟨_, e, hsome, hne, rfl, .down (by simp only [stance, runStance, ha, hin]) hl⟩
  | toggling f enable edge run =>
    obtain ⟨a, ha, hcase⟩ := Run.outcome?_eq_some h
    have hsome : (Task.toggling f enable edge run).stage? = some a.stage :=
      congrArg (Option.map Toggling.stage) (Run.action?_eq_some.mpr ha)
    have hne : a.stage ≠ .calling := fun hc => hst (hc ▸ hsome)
    rcases hcase with ⟨hf, rfl⟩ | ⟨-, k', hs⟩
    · exact ⟨_, _, hsome, hne, rfl, .cancelled hf⟩
    · obtain ⟨e, rfl, (⟨hd, rfl⟩ | ⟨hin, hl⟩) | ⟨hf, rfl⟩⟩ := Toggling.denied_of_step hs hne
      · exact ⟨_, _, hsome, hne, rfl, .disposed hd⟩
      · exact ⟨_, e, hsome, hne, rfl, .down (by simp only [stance, runStance, ha, hin]) hl⟩
      · exact ⟨_, _, hsome, hne, rfl, .pointless hf⟩
  | ready | opening | closing | ended => cases h

/-- Nobody else is at work while an operation holds the gate that has not called the handler. -/
theorem settled_of_inside (hr : k.Reachable) {o : Operating} (ht : k.tasks[i]? = some o)
    (hin : o.task.stance = .inside) {st : Stage} (hst : o.task.stage? = some st) (hne : st ≠ .calling) :
    k.Settled := by
  have hk := (linkRegime_kept.custody hr).task_of_inside (orderly_of_reachable hr) ht hin
  obtain ⟨token, t⟩ := o
  cases t with
  | running x run => exact hk
  | toggling f enable edge run =>
    obtain ⟨a, ha, rfl⟩ := Option.map_eq_some_iff.mp hst
    simp only [Regime.task, Run.Holds, Run.action?_eq_some.mp ha] at hk
    cases a with
    | calling g => exact absurd rfl hne
    | admission | askGate | awaitGate | check => exact hk
  | ready | opening | closing | ended => cases hst

/-- What the history of a run says of an operation that may not use the connection: no open call had succeeded, a
watcher had given up, a close call had begun, its token had fired, or the feature was as asked. -/
inductive Reason (l : List (Kernel × Happening)) (k : Kernel) (i : Nat) : ClientError → Prop where
  | notOpened : k.link = .unopened → (∀ y ∈ l, ¬ Succeeds y) → Reason l k i .notOpened
  | connectionLost : k.link = .lost → (∃ y ∈ l, GivesUp y) → Reason l k i .connectionLost
  | disposed : (∃ y ∈ l, BeginsClose y) → Reason l k i .disposed
  | cancelled {o : Operating} : k.tasks[i]? = some o → k.tokenFired o.token = true → Reason l k i .cancelled
  | featureState {token : Nat} {f : Feature} {enable edge : Bool} {run : Run Toggling} :
      k.tasks[i]? = some ⟨token, .toggling f enable edge run⟩ → k.features.has f = enable →
      Reason l k i (.featureState f enable)

theorem Reason.permanent {e : ClientError} (h : Reason l k i e) : e.transient = false := by
  cases h <;> rfl

theorem reason_of_denied (hp : Path (initial interval policy) l k) {o : Operating} (ht : k.tasks[i]? = some o)
    {e : ClientError} (hd : o.task.Denied k o.token e) {st : Stage} (hst : o.task.stage? = some st)
    (hne : st ≠ .calling) :
    Reason l k i e ∨ e = .reconnecting ∧ ∃ y ∈ l, y.2 = .drop ∨ BeginsClose y := by
  have hr := hp.reachable (reachable_initial interval policy)
  obtain ⟨token, t⟩ := o
  cases hd with
  | cancelled hf => exact .inl (.cancelled ht hf)
  | disposed hk => exact .inl (.disposed (begun_of_disposed hp hk))
  | pointless hf => exact .inl (.featureState ht hf)
  | down hin hl =>
    have hm := (settled_of_inside hr ht hin hst hne).meaning
    cases hlink : k.link with
    | connected =>
      rw [hlink] at hl
      cases hl
    | unopened =>
      rw [hlink] at hl
      cases hl
      refine .inl (.notOpened hlink fun y hy hs => ?_)
      exact link_ne_unopened hr (opened_of_succeeds hp hy hs) hlink
    | reconnecting =>
      rw [hlink] at hl hm
      cases hl
      exact .inr ⟨rfl, cause_of_lifetimeOver hp hm.2⟩
    | lost =>
      rw [hlink] at hl
      cases hl
      exact .inl (.connectionLost hlink (gaveUp_of_lost hp hlink))
    | closed =>
      rw [hlink] at hl
      cases hl
      exact .inl (.disposed (begun_of_disposed hp (disposed_of_closed hr hlink)))

/-! ## The policy of an operation -/

def Task.policy? : Task → Option Policy
  | .running _ run => some run.policy
  | .toggling _ _ _ run => some run.policy
  | _ => none

theorem Task.policy_step {t t' : Task} {P : Policy} (h : t.step token p k = some (k', t'))
    (hP : t'.policy? = some P) : t.policy? = some P ∨ k.policy = P := by
  cases t with
  | ready request => cases request <;> cases h <;> cases hP <;> exact .inr rfl
  | opening ph =>
    obtain ⟨q, -, rfl⟩ := ofPart_eq_some h
    cases q <;> cases hP
  | closing ph =>
    obtain ⟨q, -, rfl⟩ := ofPart_eq_some h
    cases q <;> cases hP
  | running x run =>
    obtain ⟨q, hq, rfl⟩ := ofPart_eq_some h
    cases q with
    | more run' => exact .inl ((congrArg some (Run.turn_of_step hq).policy_eq.symm).trans hP)
    | done r => cases hP
  | toggling f enable edge run =>
    obtain ⟨q, hq, rfl⟩ := ofPart_eq_some h
    cases q with
    | more run' => exact .inl ((congrArg some (Run.turn_of_step hq).policy_eq.symm).trans hP)
    | done r => cases hP
  | ended r => cases h

theorem policy_of_path (hp : Path (initial interval policy) l k) {o : Operating} (ht : k.tasks[i]? = some o)
    {P : Policy} (hP : o.task.policy? = some P) : ∃ y ∈ l, y.1.policy = P := by
  induction hp generalizing o with
  | refl => cases ht
  | @tail l k k' e hp he ih =>
    have earlier : ∀ {o : Operating}, k.tasks[i]? = some o → o.task.policy? = some P →
        ∃ y ∈ (k, e) :: l, y.1.policy = P := fun ht hP => by
      obtain ⟨y, hy, hyP⟩ := ih ht hP
      exact ⟨y, List.mem_cons_of_mem _ hy, hyP⟩
    rcases tasks_after (orderly_of_reachable (hp.reachable (reachable_initial interval policy))) he i with
      hs | ⟨-, _, _, hn⟩ | ⟨o₀, k₁, t, -, ht₀, hs, -, hn⟩
    · exact earlier (hs.symm.trans ht) hP
    · cases hn.symm.trans ht
      cases hP
    · cases hn.symm.trans ht
      rcases Task.policy_step hs hP with hP | hP
      · exact earlier ht₀ hP
      · exact ⟨(k, e), List.mem_cons_self, hP⟩

/-- A failure for good of an attempt is the result of the operation. -/
theorem returns_of_ends {x : Kernel × Happening} (ho : x.1.Orderly) {o : Operating} (ht : x.1.tasks[i]? = some o)
    (hx : x.2 = .stepTask i) {e : ClientError} (hout : o.task.outcome? o.token (.task i) x.1 = some (.error e))
    (hP : ∀ P, o.task.policy? = some P → P.transient e = false) : Returns x i (.error e) := by
  obtain ⟨token, t⟩ := o
  obtain ⟨k₁, hs⟩ : ∃ k₁, t.step token (.task i) x.1 = some (k₁, .ended (.error e)) := by
    cases t with
    | running y run =>
      obtain ⟨k₁, hs⟩ := Run.step_of_outcome hout (hP _ rfl)
      exact ⟨k₁, by simp [Task.step, ofPart, hs, Except.map]⟩
    | toggling f enable edge run =>
      obtain ⟨k₁, hs⟩ := Run.step_of_outcome hout (hP _ rfl)
      exact ⟨k₁, by simp [Task.step, ofPart, hs, Except.map]⟩
    | ready | opening | closing | ended => cases hout
  have hi : i < k₁.tasks.length := by
    rw [(Task.movement (ho.lifetimeOver ht) hs).tasks]
    exact (List.getElem?_eq_some_iff.mp ht).1
  exact ⟨hx, _, stepTask_of_step ht hs, (result?_set hi).mpr rfl⟩

/-- An attempt that ends before it has called the handler has a reason, and the operation returns with it at once,
or it has met a link that nobody restores any more. -/
theorem reason_of_path {older : List (Kernel × Happening)} {x : Kernel × Happening}
    (hp : Path (initial interval policy) older x.1)
    (hP : ∀ y ∈ older, y.1.policy.transient = ClientError.transient) {r : Except ClientError Reply}
    (hx : Ends x i r) (hst : x.1.stage? i ≠ some .calling) :
    ∃ e, r = .error e ∧ (Reason older x.1 i e ∧ Returns x i (.error e) ∨
      e = .reconnecting ∧ ∃ y ∈ older, y.2 = .drop ∨ BeginsClose y) := by
  obtain ⟨hxi, o, ht, hout⟩ := hx
  have hst' : o.task.stage? ≠ some .calling := fun hc => hst (by simp [stage?, ht, hc])
  obtain ⟨st, e, hsome, hne, rfl, hd⟩ := Task.denied_of_outcome hout hst'
  refine ⟨e, rfl, ?_⟩
  rcases reason_of_denied hp ht hd hsome hne with hreason | hrec
  · refine .inl ⟨hreason, ?_⟩
    have ho := orderly_of_reachable (hp.reachable (reachable_initial interval policy))
    refine returns_of_ends ho ht hxi hout fun P hpol => ?_
    obtain ⟨y, hy, rfl⟩ := policy_of_path hp ht hpol
    rw [hP y hy]
    exact hreason.permanent
  · exact .inr hrec

/-! ## Operations on an opened client -/

/-- Whether a request is one of the operations that need a connection. -/
def Request.isOperation : Request → Bool
  | .run _ | .toggle _ _ _ => true
  | .open | .close => false

/-- A failure that an operation may end with that keeps trying on an opened client. -/
def Lasting (e : ClientError) : Prop := e ≠ .notOpened ∧ e.transient = false

/-- An operation that has a patient policy, or will take one, or has ended for good. -/
def Task.Transparent : Task → Prop
  | .ready request => request.isOperation = true
  | .running _ run => run.policy.Patient
  | .toggling _ _ _ run => run.policy.Patient
  | .ended r => ∀ e, r = .error e → Lasting e
  | .opening _ | .closing _ => False

theorem checkLink_ne_notOpened {e : ClientError} (hl : k.link ≠ .unopened) (h : checkLink k.link = .error e) :
    e ≠ .notOpened := by
  rintro rfl
  cases hk : k.link <;> rw [hk] at h <;> cases h
  exact hl hk

theorem Guarded.ne_notOpened {x : Exchange} {a : Guarded} {e : ClientError} (hl : k.link ≠ .unopened)
    (h : a.step x p k = some (k', .done (.error e))) : e ≠ .notOpened := by
  cases turn_of_step h with
  | refused ht =>
    rcases Admission.denied_of_turn ht with ⟨-, rfl⟩ | ⟨-, hd⟩
    · simp
    · exact checkLink_ne_notOpened hl hd
  | returned hf =>
    obtain ⟨t, rfl⟩ := Forward.error_eq hf
    simp

theorem Toggling.ne_notOpened {f : Feature} {enable edge : Bool} {a : Toggling} {e : ClientError}
    (hl : k.link ≠ .unopened) (h : a.step f enable edge p k = some (k', .done (.error e))) : e ≠ .notOpened := by
  cases turn_of_step h with
  | refused ht =>
    rcases Admission.denied_of_turn ht with ⟨-, rfl⟩ | ⟨-, hd⟩
    · simp
    · exact checkLink_ne_notOpened hl hd
  | unusable hd => exact checkLink_ne_notOpened hl hd
  | pointless => simp
  | failed hg =>
    obtain ⟨t, rfl⟩ := Subscribing.error_eq hg
    simp

theorem lasting_of_turn {α : Type} {x : Action Kernel α Reply} {c : Bool} {run : Run α}
    {r : Except ClientError Reply} (h : Run.Turn x c k run k' (.done r)) (hp : run.policy.Patient)
    (hx : ∀ {a e}, x.step k a = some (k', .done (.error e)) → e ≠ .notOpened) {e : ClientError}
    (he : r = .error e) : Lasting e := by
  subst he
  rcases h.failure hp with rfl | ⟨ht, a, hs⟩
  · exact ⟨by simp, rfl⟩
  · exact ⟨hx hs, ht⟩

theorem Task.Transparent.step {t t' : Task} (h : t.Transparent) (hP : k.policy.Patient) (hl : k.link ≠ .unopened)
    (hs : t.step token p k = some (k', t')) : t'.Transparent := by
  cases t with
  | ready request =>
    cases request with
    | run | toggle =>
      cases hs
      exact hP
    | «open» | close => cases h
  | running x run =>
    obtain ⟨q, hq, rfl⟩ := ofPart_eq_some hs
    have ht := Run.turn_of_step hq
    cases q with
    | more run' =>
      have hP' : run'.policy.Patient := ht.policy_eq ▸ h
      exact hP'
    | done r =>
      rw [Except.map_id]
      exact fun e => lasting_of_turn ht h (Guarded.ne_notOpened hl)
  | toggling f enable edge run =>
    obtain ⟨q, hq, rfl⟩ := ofPart_eq_some hs
    have ht := Run.turn_of_step hq
    cases q with
    | more run' =>
      have hP' : run'.policy.Patient := ht.policy_eq ▸ h
      exact hP'
    | done r =>
      rw [Except.map_id]
      exact fun e => lasting_of_turn ht h (Toggling.ne_notOpened hl)
  | opening | closing => exact h.elim
  | ended r => cases hs

theorem transparent_of_path {k₀ : Kernel} (hr : k₀.Reachable) (hopen : k₀.opened = true) (hp : Path k₀ l k)
    (hP : ∀ y ∈ l, y.1.policy.Patient) {o : Operating} (h₀ : k₀.tasks[i]? = some o) (h : o.task.Transparent) :
    ∃ o, k.tasks[i]? = some o ∧ o.task.Transparent := by
  induction hp with
  | refl => exact ⟨o, h₀, h⟩
  | @tail l k k' e hp he ih =>
    obtain ⟨o, ht, h⟩ := ih fun y hy => hP y (List.mem_cons_of_mem _ hy)
    have hrk := hp.reachable hr
    rcases tasks_after (orderly_of_reachable hrk) he i with hs | ⟨hn, -⟩ | ⟨o', k₁, t, -, ht', hs, -, hn⟩
    · exact ⟨o, hs.trans ht, h⟩
    · cases hn.symm.trans ht
    · cases ht.symm.trans ht'
      have hl := link_ne_unopened hrk (opened_of_reaches hr hp.reaches hopen)
      exact ⟨_, hn, h.step (hP (k, e) List.mem_cons_self) hl hs⟩

/-- An operation that was started once an open call had succeeded, under patient policies, ends for good alone. -/
theorem lasting_of_path {newer older : List (Kernel × Happening)} {x : Kernel × Happening}
    (hp : Path (initial interval policy) (newer ++ x :: older) k) (hP : ∀ y ∈ newer, y.1.policy.Patient)
    {r : Request} (hx : x.2 = .start token r) (hop : r.isOperation = true) (hs : ∃ y ∈ older, Succeeds y)
    {e : ClientError} (hres : k.result? x.1.tasks.length = some (.error e)) : Lasting e := by
  obtain ⟨hpx, k₁, he, hn⟩ := hp.cut
  obtain ⟨y, hy, hsy⟩ := hs
  have hr := hpx.reachable (reachable_initial interval policy)
  have hopen := opened_after (orderly_of_reachable hr) he (opened_of_succeeds hpx hy hsy)
  have hk₁ := hr.after he
  rw [hx] at he
  cases he
  have h₀ : (x.1.start token r).1.tasks[x.1.tasks.length]? = some ⟨token, .ready r⟩ := by simp [start]
  obtain ⟨o, ht, h⟩ := transparent_of_path hk₁ hopen hn hP h₀ hop
  obtain ⟨token', hend⟩ := result?_eq_some.mp hres
  cases ht.symm.trans hend
  exact h e rfl

/-- In every run, whatever operations, losses of the connection, recoveries and calls it mixes: an attempt calls
the handler only if it has found, after its beginning, that the client was not disposed and the link is up. There
was an instant since at which it was both, unless the link was raised meanwhile although a close call had begun, which
takes a second thread. If failures are classified as usual, an attempt that ends before has a reason in the history,
with which the operation returns at once, or ends with a reconnection that a close or a drop has cut short. If moreover
no schedule ever ends, no operation that was started after an open call had succeeded returns that the client was not
opened, that it reconnects, or a failure of the transport that may clear up. -/
theorem operations_transparent (hp : Path (initial interval policy) l k) :
    (∀ newer x older i, l = newer ++ x :: older → Calls x i →
      x.1.link = .connected ∧ ∃ y since, Trial older i y since ∧
        ((∃ z ∈ x :: (since ++ [y]), z.1.Usable) ∨ ¬ Uninterrupted l ∧ ∃ z ∈ since, RaisedLate z)) ∧
    (∀ newer x older i r, l = newer ++ x :: older → Ends x i r → x.1.stage? i ≠ some .calling →
      (∀ y ∈ older, y.1.policy.transient = ClientError.transient) →
        ∃ e, r = .error e ∧ (Reason older x.1 i e ∧ Returns x i (.error e) ∨
          e = .reconnecting ∧ ∃ y ∈ older, y.2 = .drop ∨ BeginsClose y)) ∧
    (∀ newer x older token r e, l = newer ++ x :: older → x.2 = .start token r → r.isOperation = true →
      (∃ y ∈ older, Succeeds y) → (∀ y ∈ newer, y.1.policy.Patient) →
        k.result? x.1.tasks.length = some (.error e) →
          e ≠ .reconnecting ∧ e ≠ .notOpened ∧ ∀ t, e = .transport t → t.transient = false) := by
  refine ⟨fun newer x older i hl hx => ?_, fun newer x older i r hl hx hst hP => ?_,
    fun newer x older token r e hl hx hop hs hP hres => ?_⟩
  · subst hl
    obtain ⟨hlink, y, since, ht, hcase⟩ := trial_of_calls hp.cut.1 hx
    refine ⟨hlink, y, since, ht, hcase.imp_right fun ⟨z, hz, hlate⟩ => ⟨fun hu => ?_, z, hz, hlate⟩⟩
    obtain ⟨before, rfl⟩ := ht.history
    exact not_raisedLate hp hu z (by simp [hz]) hlate
  · subst hl
    exact reason_of_path hp.cut.1 hP hx hst
  · subst hl
    obtain ⟨hne, ht⟩ := lasting_of_path hp hP hx hop hs hres
    refine ⟨?_, hne, ?_⟩
    · rintro rfl
      cases ht
    · rintro t rfl
      exact ht

/-- An open call has looked for a close for the last time and is about to raise the link, when a message is asked for
and finds the client not disposed. Then a close call disposes of the client, and the link is raised. -/
def overtakenOpening : List Happening :=
  firstOpening.take 15 ++ [.start 7 (.run (.one .receive)), .stepTask 1, .stepTask 1, .start 8 .close, .stepTask 2,
    .stepTask 2, .stepTask 0]

/-- Where a close overtakes an open call that raises the link, an attempt calls the handler of a client that has at no
instant been both not disposed and connected. -/
theorem receives_never_usable : ∃ x older k, Path (initial none .standard) (x :: older) k ∧ Calls x 1 ∧
    ∀ z ∈ x :: older, z.1.policy = .standard ∧ ¬ z.1.Usable := by
  obtain ⟨k, k', hc, he, hst, hst', hmet⟩ : ∃ k k', (initial none .standard).course overtakenOpening = some k ∧
      k.after (.stepTask 1) = some k' ∧ k.stage? 1 = some .checking ∧ k'.stage? 1 = some .calling ∧
      (k :: (initial none .standard).visited overtakenOpening).map (fun k => (k.policy, decide k.Usable)) =
        List.replicate 23 (.standard, false) :=
    ⟨_, _, rfl, rfl, rfl, rfl, rfl⟩
  obtain ⟨older, hp, hv⟩ := path_of_course hc
  refine ⟨(k, .stepTask 1), older, k', hp.tail _ he, ⟨rfl, by rw [hst]; simp, k', he, hst'⟩, fun z hz => ?_⟩
  have hz : z.1 ∈ k :: (initial none .standard).visited overtakenOpening := by
    rcases List.mem_cons.mp hz with rfl | hz
    · exact List.mem_cons_self
    · exact List.mem_cons_of_mem _ (hv z hz)
  have hmet := (List.eq_replicate_iff.mp hmet).2 _ (List.mem_map_of_mem hz)
  simpa using hmet

/-- A message is asked for on an opened client, up to the last check of its first attempt. -/
def receiveChecked : List Happening := List.replicate 2 (.stepTask 1)

/-- The attempt fails, and the next one fails for good. Then the client is closed, and another message is asked
for, up to its first check. -/
def receiveRefused : List Happening :=
  List.flatten [[.stepTask 1, .answer 2 (.error (.network "reset")), .stepTask 1, .pass 60000],
    List.replicate 4 (.stepTask 1), [.answer 3 (.error (.unauthorized "revoked")), .stepTask 1, .start 0 .close,
      .stepTask 2, .stepTask 2, .start 8 (.run (.one .receive)), .stepTask 3]]

theorem receives_refused : ∃ k₀ k₁ k₂ k₃ k₄ k, (initial none .standard).course firstOpening = some k₀ ∧
    k₀.after (.start 7 (.run (.one .receive))) = some k₁ ∧ k₁.course receiveChecked = some k₂ ∧
    k₂.after (.stepTask 1) = some k₃ ∧ k₃.course receiveRefused = some k₄ ∧ k₄.after (.stepTask 3) = some k ∧
    k₀.tasks = [⟨0, .ended (.ok .done)⟩] ∧ k₀.opened = true ∧
    k₂.stage? 1 = some .checking ∧ k₃.stage? 1 = some .calling ∧
    k₄.stage? 3 = some .beginning ∧ Ends (k₄, .stepTask 3) 3 (.error .disposed) ∧
    k.result? 1 = some (.error (.transport (.unauthorized "revoked"))) ∧
    (((initial none .standard).visited firstOpening ++ k₀ :: k₁.visited receiveChecked ++
      k₂ :: k₃.visited receiveRefused ++ [k₄]).map Kernel.policy) = List.replicate 39 .standard :=
  ⟨_, _, _, _, _, _, rfl, rfl, rfl, rfl, rfl, rfl, rfl, rfl, rfl, rfl, rfl, ⟨rfl, _, rfl, rfl⟩, rfl, rfl⟩

/-- On this run the first message is asked for while the link is up, and fails for good; the second is refused,
because a close call has begun. -/
theorem operations_transparent_receives : ∃ l k, Path (initial none .standard) l k ∧
    (∃ x ∈ l, Calls x 1 ∧ x.1.link = .connected) ∧
    (∃ x ∈ l, BeginsClose x) ∧ (∃ x ∈ l, Returns x 3 (.error .disposed)) ∧
    k.result? 1 = some (.error (.transport (.unauthorized "revoked"))) ∧
    TransportError.transient (.unauthorized "revoked") = false := by
  obtain ⟨k₀, k₁, k₂, k₃, k₄, k, h₀, h₁, h₂, h₃, h₄, h₅, htasks, hopen, hchecking, hcalling, hbeginning, hends, hres,
    hpol⟩ := receives_refused
  obtain ⟨l₀, hp₀, hv₀⟩ := path_of_course h₀
  obtain ⟨l₂, hp₂, hv₂⟩ := path_of_course h₂
  obtain ⟨l₄, hp₄, hv₄⟩ := path_of_course h₄
  have hp := ((((hp₀.tail _ h₁).trans hp₂).tail _ h₃).trans hp₄).tail _ h₅
  have patient : ∀ {x : Kernel × Happening}, x.1 ∈ (initial none .standard).visited firstOpening ++
      k₀ :: k₁.visited receiveChecked ++ k₂ :: k₃.visited receiveRefused ++ [k₄] → x.1.policy.Patient := by
    intro x hx
    rw [(List.eq_replicate_iff.mp hpol).2 _ (List.mem_map_of_mem hx)]
    exact Policy.patient_standard
  have hsucc : ∃ y ∈ l₀, Succeeds y := by
    refine (succeeded_of_opened hp₀ hopen).resolve_right ?_
    rintro ⟨i, token, ph, ht, -⟩
    rw [htasks] at ht
    rcases i with _ | i <;> cases ht
  obtain ⟨hcall, hend, hlast⟩ := operations_transparent hp
  have hcalls : Calls (k₂, .stepTask 1) 1 := ⟨rfl, by rw [hchecking]; simp, k₃, h₃, hcalling⟩
  obtain ⟨e, he, hcase⟩ := hend [] (k₄, .stepTask 3) _ 3 _ rfl hends (by rw [hbeginning]; simp) fun y hy => by
    refine (patient ?_).transient
    simp only [List.mem_append, List.mem_cons] at hy
    rcases hy with hy | rfl | hy | rfl | hy
    · simp [hv₄ y hy]
    · simp
    · simp [hv₂ y hy]
    · simp
    · simp [hv₀ y hy]
  cases he
  obtain ⟨hreason, hreturns⟩ := hcase.resolve_right fun h => by cases h.1
  obtain ⟨y, hy, hb⟩ : ∃ y ∈ _, BeginsClose y := by
    cases hreason with
    | disposed h => exact h
  refine ⟨_, k, hp, ⟨_, by simp, hcalls, (hcall (_ :: l₄) _ _ 1 rfl hcalls).1⟩,
    ⟨y, List.mem_cons_of_mem _ hy, hb⟩, ⟨_, List.mem_cons_self, hreturns⟩, hres, ?_⟩
  have hfinal := hlast ((k₄, .stepTask 3) :: (l₄ ++ (k₂, .stepTask 1) :: l₂)) (k₀, .start 7 (.run (.one .receive))) l₀ 7
    (.run (.one .receive)) (.transport (.unauthorized "revoked")) (by simp) rfl rfl hsucc (fun y hy => patient ?_)
    (by rw [htasks]; exact hres)
  · exact hfinal.2.2 _ rfl
  · simp only [List.mem_append, List.mem_cons] at hy
    rcases hy with rfl | hy | rfl | hy
    · simp
    · simp [hv₄ y hy]
    · simp
    · simp [hv₂ y hy]

end HubDevice.Kernel
