import Mathlib.Data.List.Forall2
import HubDevice.Proofs.Kernel.Path
import HubDevice.Proofs.Session.Twins

/-!
# Kernels that differ in policy, status and history

The history and the status are written and never read, and the policy is read only where an operation or a
watcher takes it and where a failure is reported. A kernel does the same under another policy, with another
status and history (`Twin`), as long as nobody takes the policy in force (`twin_after`). So a run in which nobody
takes a policy that was set meanwhile can be repeated without the calls that set it (`path_without`).
-/

namespace HubDevice

open Retry

/-! ## Runs -/

/-- An action that does the same over related states, reporting apart. -/
structure Retry.Action.Blind {σ α β : Type} (x : Action σ α β) (R : σ → σ → Prop) : Prop where
  step {s s' : σ} (h : R s s') (a : α) : Abreast R (x.step s a) (x.step s' a)
  abandon {s s' : σ} (h : R s s') (a : α) : R (x.abandon s a) (x.abandon s' a)
  granted {s s' : σ} (h : R s s') (e : ClientError) (n : Nat) (d : Span) :
    R (x.granted s e n d) (x.granted s' e n d)
  now {s s' : σ} (h : R s s') : x.now s = x.now s'

namespace Retry.Run

variable {σ α β : Type} {x : Action σ α β} {R : σ → σ → Prop} {s s' : σ}

theorem abreast_afterFailure (hx : x.Blind R) (h : R s s') (r : Run α) (e : ClientError) :
    Abreast R (some (afterFailure x s r e)) (some (afterFailure x s' r e)) := by
  unfold afterFailure
  split
  · exact .both h _
  split
  · exact .both h _
  rename_i delay _
  have hg := hx.granted h e r.attempt delay
  simp only [hx.now hg]
  split
  · exact .both hg _
  · exact .both hg _

theorem abreast_step (hx : x.Blind R) (h : R s s') (c : Bool) (r : Run α) :
    Abreast R (r.step x c s) (r.step x c s') := by
  obtain ⟨P, n, ph⟩ := r
  cases ph with
  | acting a =>
    refine .of_ite (.both (hx.abandon h a) _) ?_
    obtain ⟨ha, hb⟩ | ⟨_, _, q, ha, hb, hr⟩ := (hx.step h a).cases <;> rw [ha, hb]
    · exact .none
    rcases q with a | (e | v)
    · exact .both hr _
    · exact abreast_afterFailure hx hr _ e
    · exact .both hr _
  | pausing t =>
    simp only [step, hx.now h]
    exact .of_ite (.both h _) (.of_ite (.both h _) .none)

theorem related_abandon (hx : x.Blind R) (h : R s s') (r : Run α) : R (r.abandon x s) (r.abandon x s') := by
  unfold abandon
  split
  · exact hx.abandon h _
  · exact h

end Retry.Run

namespace Kernel

/-! ## Who takes the policy -/

def OpenPhase.takesPolicy : OpenPhase → Bool
  | .begin => true
  | _ => false

def WatchPhase.takesPolicy : WatchPhase → Bool
  | .decide _ => true
  | _ => false

def Task.takesPolicy : Task → Bool
  | .ready (.run _) | .ready (.toggle _ _ _) => true
  | .opening ph => ph.takesPolicy
  | _ => false

/-- Whether an operation or a watcher takes the policy in this step. -/
def takesPolicy (k : Kernel) : Happening → Bool
  | .stepTask i => (k.tasks[i]?.map fun o => o.task.takesPolicy).getD false
  | .stepWatcher i => (k.watchers[i]?.map fun w => w.phase.takesPolicy).getD false
  | _ => false

/-- Whether the policy is replaced. -/
def Happening.setsPolicy : Happening → Bool
  | .setPolicy _ => true
  | _ => false

/-! ## Twins -/

/-- The second kernel is the first with the policy `P`, another status and another history. -/
def Twin (P : Policy) (k k' : Kernel) : Prop :=
  ∃ status handler, k.handler.Twin handler ∧ k' = { k with policy := P, status, handler }

variable {P : Policy} {k k' : Kernel}

theorem Twin.refl (k : Kernel) : k.Twin k.policy k := ⟨_, _, ⟨_, rfl⟩, rfl⟩

theorem Twin.set_handler {h h' : Handler} (ht : k.Twin P k') (hh : h.Twin h') :
    Twin P { k with handler := h } { k' with handler := h' } := by
  obtain ⟨status, handler, -, rfl⟩ := ht
  exact ⟨status, h', hh, rfl⟩

theorem Twin.handler (ht : k.Twin P k') : k.handler.Twin k'.handler := by
  obtain ⟨status, handler, hh, rfl⟩ := ht
  exact hh

theorem twin_setPolicy (ht : k.Twin P k') (Q : Policy) : (k.setPolicy Q).Twin P k' := by
  obtain ⟨status, handler, hh, rfl⟩ := ht
  exact ⟨status, handler, hh, rfl⟩

theorem twin_report (ht : k.Twin P k') (s s' : ConnectionState) (r r' : StatusReason) :
    (k.report s r).Twin P (k'.report s' r') := by
  obtain ⟨status, handler, ⟨trace, rfl⟩, rfl⟩ := ht
  exact ⟨_, _, ⟨_, rfl⟩, rfl⟩

theorem twin_reportFailure (ht : k.Twin P k') (e : ClientError) (final : Bool) :
    (k.reportFailure e final).Twin P (k'.reportFailure e final) := twin_report ht ..

theorem abreast_liftHandler {α β : Type} {st st' : Step Handler α β} (ht : k.Twin P k')
    (h : Abreast Handler.Twin st st') : Abreast (Twin P) (k.liftHandler st) (k'.liftHandler st') :=
  h.map fun _ _ _ hh => ⟨ht.set_handler hh, rfl⟩

/-! ## Attempts to bring the connection up -/

namespace Recovery

variable {h h' : Handler}

theorem twin_abandonAll (ht : h.Twin h') (pending : List (Option Subscribing)) :
    (abandonAll h pending).Twin (abandonAll h' pending) := by
  induction pending generalizing h h' with
  | nil => exact ht
  | cons g rest ih =>
    cases g with
    | none => exact ih ht
    | some g => exact ih (Handler.twin_abandon_subscribing ht g)

theorem twin_abandon (ht : h.Twin h') (a : Recovery) : (a.abandon h).Twin (a.abandon h') := by
  cases a with
  | opening o => exact Handler.twin_abandon_opening ht o
  | replaying pending => exact twin_abandonAll ht pending

theorem twin_stepFirst (ht : h.Twin h') (pending : List (Option Subscribing)) :
    Option.Rel (fun r r' => r.handler.Twin r'.handler ∧ r.pending = r'.pending ∧ r.failure = r'.failure)
      (stepFirst h pending) (stepFirst h' pending) := by
  induction pending with
  | nil => exact .none
  | cons g rest ih =>
    have later : ∀ g, Option.Rel
        (fun r r' => r.handler.Twin r'.handler ∧ r.pending = r'.pending ∧ r.failure = r'.failure)
        ((stepFirst h rest).map fun r => { r with pending := g :: r.pending })
        ((stepFirst h' rest).map fun r => { r with pending := g :: r.pending }) := by
      intro g
      generalize stepFirst h rest = a at ih ⊢
      generalize stepFirst h' rest = b at ih ⊢
      cases ih with
      | none => exact .none
      | some hr => exact .some ⟨hr.1, congrArg (g :: ·) hr.2.1, hr.2.2⟩
    cases g with
    | none => exact later none
    | some g =>
      obtain ⟨ha, hb⟩ | ⟨_, _, q, ha, hb, hr⟩ := (Handler.abreast_subscribing ht g).cases <;>
        simp only [stepFirst, ha, hb]
      · exact later (some g)
      rcases q with g | (e | v) <;> exact .some ⟨hr, rfl, rfl⟩

theorem abreast_step (ht : h.Twin h') (fs : Features) (c : Bool) (a : Recovery) :
    Abreast Handler.Twin (a.step fs c h) (a.step fs c h') := by
  cases a with
  | opening o =>
    obtain ⟨ha, hb⟩ | ⟨_, _, q, ha, hb, hr⟩ := (Handler.abreast_opening ht c o).cases <;>
      simp only [step, ha, hb]
    · exact .none
    rcases q with o | (e | v) <;> exact .both hr _
  | replaying pending =>
    have hs := twin_stepFirst ht pending
    simp only [step]
    generalize stepFirst h pending = a at hs ⊢
    generalize stepFirst h' pending = b at hs ⊢
    cases hs with
    | none => exact .none
    | @some r r' hr =>
      obtain ⟨h₁, pending, failure⟩ := r
      obtain ⟨h₂, pending', failure'⟩ := r'
      obtain ⟨hh, rfl, rfl⟩ := hr
      cases failure with
      | none => exact .both hh _
      | some e => exact .both (twin_abandonAll hh pending) _

end Recovery

theorem blind_recovery {fs : Features} {c : Bool} {granted : Kernel → ClientError → Kernel}
    (hg : ∀ {k k' : Kernel}, k.Twin P k' → ∀ e, (granted k e).Twin P (granted k' e)) :
    (recovery fs c granted).Blind (Twin P) where
  step ht a := abreast_liftHandler ht (Recovery.abreast_step ht.handler fs c a)
  abandon ht a := ht.set_handler (Recovery.twin_abandon ht.handler a)
  granted ht e _ _ := hg ht e
  now ht := ht.handler.now.symm

theorem blind_openAction (k : Kernel) (token : Nat) : (openAction k token).Blind (Twin P) :=
  blind_recovery fun ht e => twin_reportFailure ht e false

theorem blind_watcherAction (k : Kernel) (w : Watcher) : (watcherAction k w).Blind (Twin P) :=
  blind_recovery fun ht _ => ht

/-! ## Operations -/

theorem abreast_admission (ht : k.Twin P k') (p : Party) (a : Admission) :
    Abreast (Twin P) (a.step p k) (a.step p k') := by
  have self := ht
  obtain ⟨status, handler, hh, rfl⟩ := ht
  cases a with
  | checkDisposed | checkConnected => exact .of_ite (.both self _) (.both self _)
  | askGate | readLink => exact .both ⟨status, handler, hh, rfl⟩ _
  | awaitGate => exact .of_ite (.both self _) .none

theorem twin_abandon_admission (ht : k.Twin P k') (p : Party) (a : Admission) :
    (a.abandon p k).Twin P (a.abandon p k') := by
  have self := ht
  obtain ⟨status, handler, hh, rfl⟩ := ht
  cases a with
  | awaitGate | readLink => exact ⟨status, handler, hh, rfl⟩
  | _ => exact self

theorem blind_guarded (x : Exchange) (p : Party) : (guarded x p).Blind (Twin P) where
  step {k k'} ht a := by
    cases a with
    | admission a =>
      obtain ⟨ha, hb⟩ | ⟨_, _, q, ha, hb, hr⟩ := (abreast_admission ht p a).cases <;>
        simp only [guarded, Guarded.step, ha, hb]
      · exact .none
      rcases q with a | (e | v) <;> exact .both hr _
    | calling f =>
      obtain ⟨ha, hb⟩ | ⟨_, _, q, ha, hb, hr⟩ :=
          (abreast_liftHandler ht (Handler.abreast_forward ht.handler f)).cases <;>
        simp only [guarded, Guarded.step, ha, hb]
      · exact .none
      cases q <;> exact .both hr _
  abandon ht a := by
    cases a with
    | admission a => exact twin_abandon_admission ht p a
    | calling f => exact ht.set_handler (Handler.twin_abandon_forward ht.handler f)
  granted ht _ _ _ := ht
  now ht := ht.handler.now.symm

theorem Twin.release (ht : k.Twin P k') :
    Twin P { k with gate := k.gate.release } { k' with gate := k'.gate.release } := by
  obtain ⟨status, handler, hh, rfl⟩ := ht
  exact ⟨status, handler, hh, rfl⟩

theorem blind_toggling (f : Feature) (enable edge : Bool) (p : Party) :
    (toggling f enable edge p).Blind (Twin P) where
  step {k k'} ht a := by
    have self := ht
    cases a with
    | admission a =>
      obtain ⟨ha, hb⟩ | ⟨_, _, q, ha, hb, hr⟩ := (abreast_admission ht p a).cases <;>
        simp only [toggling, Toggling.step, ha, hb]
      · exact .none
      rcases q with a | (e | v) <;> exact .both hr _
    | askGate =>
      obtain ⟨status, handler, hh, rfl⟩ := ht
      exact .both ⟨status, handler, hh, rfl⟩ _
    | awaitGate =>
      obtain ⟨status, handler, hh, rfl⟩ := ht
      exact .of_ite (.both self _) .none
    | check =>
      obtain ⟨status, handler, hh, rfl⟩ := ht
      have freed := self.release
      simp only [toggling, Toggling.step]
      split
      · exact .both freed _
      · exact .of_ite (.both freed _) (.both self _)
    | calling g =>
      obtain ⟨ha, hb⟩ | ⟨_, _, q, ha, hb, hr⟩ :=
          (abreast_liftHandler ht (Handler.abreast_subscribing ht.handler g)).cases <;>
        simp only [toggling, Toggling.step, ha, hb]
      · exact .none
      rcases q with g | (e | v)
      · exact .both hr _
      · exact .both hr.release _
      · obtain ⟨status, handler, hh, rfl⟩ := hr
        exact .both ⟨status, handler, hh, rfl⟩ _
  abandon {k k'} ht a := by
    cases a with
    | admission a => exact twin_abandon_admission ht p a
    | askGate => exact ht
    | awaitGate | check =>
      obtain ⟨status, handler, hh, rfl⟩ := ht
      exact ⟨status, handler, hh, rfl⟩
    | calling g =>
      have hg := Handler.twin_abandon_subscribing ht.handler g
      obtain ⟨status, handler, hh, rfl⟩ := ht
      exact ⟨status, _, hg, rfl⟩
  granted ht _ _ _ := ht
  now ht := ht.handler.now.symm

/-! ## Opening, closing and watching -/

theorem twin_spawnWatcher (ht : k.Twin P k') : k.spawnWatcher.Twin P k'.spawnWatcher := by
  obtain ⟨status, handler, ⟨trace, rfl⟩, rfl⟩ := ht
  exact ⟨status, _, ⟨trace, rfl⟩, rfl⟩

theorem twin_dismissWatcher (ht : k.Twin P k') : k.dismissWatcher.Twin P k'.dismissWatcher := by
  have self := ht
  obtain ⟨status, handler, hh, rfl⟩ := ht
  cases hw : k.watcher with
  | none =>
    simp only [dismissWatcher, hw]
    simpa only [hw] using self
  | some i =>
    simp only [dismissWatcher, hw]
    exact ⟨status, handler, hh, rfl⟩

theorem Twin.setLink (ht : k.Twin P k') (link : LinkState) : (k.setLink link).Twin P (k'.setLink link) := by
  obtain ⟨status, handler, hh, rfl⟩ := ht
  exact ⟨status, handler, hh, rfl⟩

theorem abreast_working (ht : k.Twin P k') (token : Nat) (p : Party) (run : Run Recovery) :
    Abreast (Twin P) ((OpenPhase.working run).step token p k) ((OpenPhase.working run).step token p k') := by
  have hx : (openAction k token).Blind (Twin P) := blind_openAction k token
  have hstep := Run.abreast_step hx ht (k.tokenFired token) run
  have hover : k'.lifetimeOver = k.lifetimeOver ∧ openAction k' token = openAction k token ∧
      k'.tokenFired token = k.tokenFired token := by
    obtain ⟨status, handler, hh, rfl⟩ := ht
    exact ⟨rfl, rfl, rfl⟩
  simp only [OpenPhase.step, hover]
  refine .of_ite (.both (Run.related_abandon hx ht run) _) ?_
  obtain ⟨ha, hb⟩ | ⟨_, _, q, ha, hb, hr⟩ := hstep.cases <;> rw [ha, hb]
  · exact .none
  rcases q with run | (e | v)
  · exact .both hr _
  · cases e <;> exact .both hr _
  · exact .both hr _

theorem abreast_open (ht : k.Twin P k') (token : Nat) (p : Party) {ph : OpenPhase}
    (hn : ph.takesPolicy = true → k.policy = P) :
    Abreast (Twin P) (ph.step token p k) (ph.step token p k') := by
  have self := ht
  obtain ⟨status, handler, hh, rfl⟩ := ht
  have freed := self.release
  cases ph with
  | checkDisposed | checkConnected => exact .of_ite (.both self _) (.both self _)
  | readEpoch => exact .both self _
  | askGate epoch => exact .of_ite (.both self _) (.both ⟨status, handler, hh, rfl⟩ _)
  | awaitGate epoch =>
    exact .of_ite (.both ⟨status, handler, hh, rfl⟩ _) (.of_ite (.both self _) .none)
  | recheckDisposed epoch => exact .of_ite (.both freed _) (.both self _)
  | consider epoch =>
    have shared : sharedOutcome { k with policy := P, status, handler } epoch = k.sharedOutcome epoch := rfl
    simp only [OpenPhase.step, shared]
    refine .of_ite (.both freed _) ?_
    cases k.sharedOutcome epoch with
    | none => exact .both self _
    | some outcome => exact .both freed _
  | begin =>
    obtain rfl := hn rfl
    exact .of_ite (.both self _) (.both self _)
  | working run => exact abreast_working self token p run
  | raiseLink => exact .both ⟨status, handler, hh, rfl⟩ _
  | startWatcher => exact .both (twin_spawnWatcher self) _
  | reportUp => exact .both (twin_report self ..) _
  | reportDown e => exact .both (twin_reportFailure self e true) _
  | conclude outcome => exact .both ⟨status, handler, hh, rfl⟩ _

theorem abreast_close (ht : k.Twin P k') (p : Party) (ph : ClosePhase) :
    Abreast (Twin P) (ph.step p k) (ph.step p k') := by
  have self := ht
  obtain ⟨status, handler, hh, rfl⟩ := ht
  cases ph with
  | dispose => exact .of_ite (.both self _) (.both ⟨status, handler, hh, rfl⟩ _)
  | endLifetime | askGate => exact .both ⟨status, handler, hh, rfl⟩ _
  | awaitGate => exact .of_ite (.both self _) .none
  | lowerLink =>
    have lowered := self.setLink .closed
    exact .of_ite (.both lowered _) (.both lowered.release _)
  | releasing c =>
    obtain ⟨ha, hb⟩ | ⟨_, _, q, ha, hb, hr⟩ :=
        (abreast_liftHandler self (Handler.abreast_closing self.handler c)).cases <;>
      simp only [ClosePhase.step, ha, hb]
    · exact .none
    rcases q with c | (e | v)
    · exact .both hr _
    · exact .both hr.release _
    · exact .both hr.release _
  | reportTrouble => exact .both (twin_report self ..) _
  | stopWatcher =>
    have dismissed := twin_dismissWatcher self
    simp only [ClosePhase.step]
    split
    · exact .both self _
    · exact .both dismissed _
  | joinWatcher i => exact .of_ite (.both self _) .none
  | reportClosed => exact .both (twin_report self ..) _

theorem twin_endHolding (ht : k.Twin P k') (exit : WatcherExit) :
    Abreast (Twin P) (some (k.endHolding exit)) (some (k'.endHolding exit)) := .both ht.release _

theorem abreast_recovering (ht : k.Twin P k') (p : Party) (w : Watcher) (run : Run Recovery) :
    Abreast (Twin P) ((WatchPhase.recovering run).step p k w) ((WatchPhase.recovering run).step p k' w) := by
  have hstep := Run.abreast_step (blind_watcherAction k w) ht (k.watcherStopped w) run
  have hsame : watcherAction k' w = watcherAction k w ∧ k'.watcherStopped w = k.watcherStopped w := by
    obtain ⟨status, handler, hh, rfl⟩ := ht
    exact ⟨rfl, rfl⟩
  simp only [WatchPhase.step, hsame]
  obtain ⟨ha, hb⟩ | ⟨k₁, k₂, q, ha, hb, hr⟩ := hstep.cases <;> rw [ha, hb]
  · exact .none
  rcases q with run | (e | v)
  · exact .both hr _
  · cases e with
    | cancelled => exact twin_endHolding hr _
    | _ => exact .both (hr.setLink .lost) _
  · have hstop : k₂.watcherStopped w = k₁.watcherStopped w := by
      obtain ⟨status, handler, hh, rfl⟩ := hr
      rfl
    simp only [hstop]
    exact .of_ite (twin_endHolding hr _) (.both hr _)

theorem abreast_watch (ht : k.Twin P k') (p : Party) (w : Watcher) {ph : WatchPhase}
    (hn : ph.takesPolicy = true → k.policy = P) :
    Abreast (Twin P) (ph.step p k w) (ph.step p k' w) := by
  have self := ht
  obtain ⟨status, handler, hh, rfl⟩ := ht
  cases ph with
  | watching =>
    obtain ⟨trace, rfl⟩ := hh
    refine .of_ite (.both self _) ?_
    show Abreast (Twin P) ((k.watchedCause w).map _) ((k.watchedCause w).map _)
    cases k.watchedCause w with
    | none => exact .none
    | some cause => exact .both self _
  | askGate cause => exact .of_ite (.both self _) (.both ⟨status, handler, hh, rfl⟩ _)
  | awaitGate cause =>
    exact .of_ite (.both ⟨status, handler, hh, rfl⟩ _) (.of_ite (.both self _) .none)
  | lowerLink cause =>
    exact .of_ite (twin_endHolding self _) (.both (self.setLink .reconnecting) _)
  | decide cause =>
    obtain rfl := hn rfl
    simp only [WatchPhase.step]
    split
    · exact .both (self.setLink .lost) _
    · exact .both self _
  | giveUp => exact twin_endHolding (twin_report self ..) _
  | announce P delay =>
    have told := twin_report self .retrying .retrying .communicationError .communicationError
    simp only [WatchPhase.step, told.handler.now]
    exact .of_ite (.both told _) (.both told _)
  | pausing P deadline =>
    have hnow : handler.now = k.handler.now := hh.now
    simp only [WatchPhase.step, hnow]
    exact .of_ite (twin_endHolding self _) (.of_ite (.both self _) .none)
  | recovering run => exact abreast_recovering self p w run
  | raiseLink => exact .both (self.setLink .connected) _
  | startWatcher => exact .both (twin_spawnWatcher self) _
  | reportUp => exact twin_endHolding (twin_report self ..) _
  | reportDown e => exact twin_endHolding (twin_reportFailure self e true) _
  | ended exit => exact .none

/-! ## Steps -/

theorem abreast_task (ht : k.Twin P k') (token : Nat) (p : Party) {t : Task}
    (hn : t.takesPolicy = true → k.policy = P) :
    Abreast (Twin P) (t.step token p k) (t.step token p k') := by
  have hfired : k'.tokenFired token = k.tokenFired token := by
    obtain ⟨status, handler, hh, rfl⟩ := ht
    rfl
  have part : ∀ {α β : Type} (wrap : α → Task) (value : β → Reply) {a b : Step Kernel α (Except ClientError β)},
      Abreast (Twin P) a b → Abreast (Twin P) (ofPart wrap value a) (ofPart wrap value b) :=
    fun _ _ _ _ h => h.map fun _ _ _ hr => ⟨hr, rfl⟩
  cases t with
  | ready r =>
    cases r with
    | «open» | close => exact .both ht _
    | run | toggle =>
      obtain ⟨status, handler, hh, rfl⟩ := ht
      obtain rfl := hn rfl
      exact .both ⟨status, handler, hh, rfl⟩ _
  | opening ph => exact part _ _ (abreast_open ht token p hn)
  | closing ph => exact part _ _ (abreast_close ht p ph)
  | running x run =>
    simp only [Task.step, hfired]
    exact part _ _ (Run.abreast_step (blind_guarded x p) ht _ run)
  | toggling f enable edge run =>
    simp only [Task.step, hfired]
    exact part _ _ (Run.abreast_step (blind_toggling f enable edge p) ht _ run)
  | ended r => exact .none

theorem twin_stepTask (ht : k.Twin P k') {i : Nat} (hn : k.takesPolicy (.stepTask i) = true → k.policy = P) :
    Option.Rel (Twin P) (k.stepTask i) (k'.stepTask i) := by
  have htasks : k'.tasks = k.tasks := by
    obtain ⟨status, handler, hh, rfl⟩ := ht
    rfl
  unfold stepTask
  simp only [takesPolicy] at hn
  rw [htasks]
  cases ho : k.tasks[i]? with
  | none => exact .none
  | some o =>
    rw [ho] at hn
    simp only [Option.bind_eq_bind, Option.bind_some]
    obtain ⟨ha, hb⟩ | ⟨k₁, k₂, t, ha, hb, status, handler, hh, rfl⟩ :=
      (abreast_task ht o.token (.task i) hn).cases <;> rw [ha, hb]
    · exact .none
    · exact .some ⟨status, handler, hh, rfl⟩

theorem twin_stepWatcher (ht : k.Twin P k') {i : Nat} (hn : k.takesPolicy (.stepWatcher i) = true → k.policy = P) :
    Option.Rel (Twin P) (k.stepWatcher i) (k'.stepWatcher i) := by
  have hwatchers : k'.watchers = k.watchers := by
    obtain ⟨status, handler, hh, rfl⟩ := ht
    rfl
  unfold stepWatcher
  simp only [takesPolicy] at hn
  rw [hwatchers]
  cases hw : k.watchers[i]? with
  | none => exact .none
  | some w =>
    rw [hw] at hn
    simp only [Option.bind_eq_bind, Option.bind_some]
    obtain ⟨ha, hb⟩ | ⟨k₁, k₂, ph, ha, hb, status, handler, hh, rfl⟩ :=
      (abreast_watch ht (.watcher i) w hn).cases <;> rw [ha, hb]
    · exact .none
    · exact .some ⟨status, handler, hh, rfl⟩

/-- Twins take the same steps, except for those in which somebody takes another policy. -/
theorem twin_after (ht : k.Twin P k') {e : Happening} (hs : e.setsPolicy = false)
    (hn : k.takesPolicy e = true → k.policy = P) :
    Option.Rel (Twin P) (k.after e) (k'.after e) := by
  cases e with
  | stepTask i => exact twin_stepTask ht hn
  | stepWatcher i => exact twin_stepWatcher ht hn
  | stepRefresher i =>
    have hs := Handler.twin_stepRefresher ht.handler i
    simp only [after, stepRefresher]
    generalize k.handler.stepRefresher i = a at hs ⊢
    generalize k'.handler.stepRefresher i = b at hs ⊢
    cases hs with
    | none => exact .none
    | some hr => exact .some (ht.set_handler hr)
  | start token r =>
    obtain ⟨status, handler, hh, rfl⟩ := ht
    exact .some ⟨status, handler, hh, rfl⟩
  | fire token =>
    obtain ⟨status, handler, hh, rfl⟩ := ht
    exact .some ⟨status, handler, hh, rfl⟩
  | answer call o => exact .some (ht.set_handler (Handler.twin_answer ht.handler call o))
  | endSession s cause => exact .some (ht.set_handler (Handler.twin_endSession ht.handler s cause))
  | pass ms =>
    simp only [after, ht.handler.now]
    exact .some (ht.set_handler (ht.handler.set_now _))
  | setPolicy policy => cases hs
  | drop =>
    obtain ⟨status, handler, hh, hd⟩ := twin_dismissWatcher ht
    refine .some ⟨status, handler, hh, ?_⟩
    simp only [drop, hd]
  | discard =>
    have hsame : k'.lifetimeOver = k.lifetimeOver ∧ k'.deserted = k.deserted := by
      obtain ⟨status, handler, hh, rfl⟩ := ht
      exact ⟨rfl, rfl⟩
    simp only [after, hsame]
    split
    · exact .some (ht.set_handler (Handler.twin_stopRefresher ht.handler))
    · exact .none

/-! ## Runs without the calls that set the policy -/

/-- A run in which nobody takes a policy that was set meanwhile can be repeated without the calls that set it. -/
theorem path_without {l : List (Kernel × Happening)} (h : Path k l k')
    (hn : ∀ x ∈ l, x.1.takesPolicy x.2 = true → x.1.policy = k.policy) :
    ∃ l' k'', Path k l' k'' ∧ k'.Twin k.policy k'' ∧
      List.Forall₂ (fun x y => x.1.Twin k.policy y.1 ∧ x.2 = y.2) (l.filter fun x => !x.2.setsPolicy) l' := by
  induction h with
  | refl => exact ⟨[], k, .refl, .refl k, .nil⟩
  | @tail l k₁ k₂ e hp he ih =>
    obtain ⟨l', k'', hp', ht, hl⟩ := ih fun x hx => hn x (List.mem_cons_of_mem _ hx)
    by_cases hset : e.setsPolicy
    · -- The call is left out: the twin stays where it is.
      cases e <;> cases hset
      cases he
      refine ⟨l', k'', hp', twin_setPolicy ht _, ?_⟩
      rw [List.filter_cons_of_neg (by simp [Happening.setsPolicy])]
      exact hl
    · have hs := twin_after ht (by simpa using hset) (hn (k₁, e) List.mem_cons_self)
      rw [he] at hs
      generalize hb : k''.after e = b at hs
      cases hs with
      | @some _ k₃ hr =>
        refine ⟨(k'', e) :: l', k₃, hp'.tail e hb, hr, ?_⟩
        rw [List.filter_cons_of_pos (by simpa using hset)]
        exact .cons ⟨ht, rfl⟩ hl

end Kernel

end HubDevice
