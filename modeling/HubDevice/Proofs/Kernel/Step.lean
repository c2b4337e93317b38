import HubDevice.Kernel.Threads
import HubDevice.Proofs.Kernel.Recovery
import HubDevice.Proofs.Retry.Run

/-!
# What a step can do

`OpenPhase.Turn`, `ClosePhase.Turn` and `WatchPhase.Turn` list what one step of an open call, of a close call
and of a watcher can do, and when; `Admission.Turn`, `Guarded.Turn` and `Toggling.Turn` do so for the check
that operations begin with, for data operations and for changes of subscriptions. Each has a lemma
`turn_of_step` that there is nothing else.
Whatever is shown of all steps of a party goes by cases on its turns.
-/

namespace HubDevice.Kernel

open FairLock Retry

variable {p : Party} {k k' : Kernel}

theorem liftHandler_eq_some {α β : Type} {st : Step Handler α β} {pr : Progress α β}
    (h : k.liftHandler st = some (k', pr)) :
    ∃ handler, st = some (handler, pr) ∧ k' = { k with handler } := by
  unfold liftHandler at h
  obtain ⟨⟨handler, pr'⟩, hs, he⟩ := Option.map_eq_some_iff.mp h
  obtain ⟨rfl, rfl⟩ := Prod.mk.inj he
  exact ⟨handler, hs, rfl⟩

/-! ## Operations -/

inductive Admission.Turn (p : Party) (k : Kernel) :
    Admission → Kernel → Progress Admission (Except ClientError Unit) → Prop where
  | refused : k.disposed = true → Turn p k .checkDisposed k (.done (.error .disposed))
  | admitted : k.disposed = false → Turn p k .checkDisposed k (.more .checkConnected)
  | connected : k.connected = true → Turn p k .checkConnected k (.done (.ok ()))
  | unconnected : k.connected = false → Turn p k .checkConnected k (.more .askGate)
  | asked : Turn p k .askGate { k with gate := k.gate.request p } (.more .awaitGate)
  | entered : k.gate.holder = some p → Turn p k .awaitGate k (.more .readLink)
  | read : Turn p k .readLink { k with gate := k.gate.release } (.done (checkLink k.link))

theorem Admission.turn_of_step {a : Admission} {pr : Progress Admission (Except ClientError Unit)}
    (h : a.step p k = some (k', pr)) : a.Turn p k k' pr := by
  cases a with
  | checkDisposed =>
    simp only [step] at h
    split at h <;> cases h
    · exact .refused ‹_›
    · exact .admitted (eq_false_of_ne_true ‹_›)
  | checkConnected =>
    simp only [step] at h
    split at h <;> cases h
    · exact .connected ‹_›
    · exact .unconnected (eq_false_of_ne_true ‹_›)
  | askGate =>
    cases h
    exact .asked
  | awaitGate =>
    simp only [step] at h
    split at h <;> cases h
    exact .entered (heldBy_iff.mp ‹_›)
  | readLink =>
    cases h
    exact .read

inductive Guarded.Turn (x : Exchange) (p : Party) (k : Kernel) :
    Guarded → Kernel → Progress Guarded (Except ClientError Reply) → Prop where
  | admitting {a a' : Admission} {k' : Kernel} : a.Turn p k k' (.more a') →
      Turn x p k (.admission a) k' (.more (.admission a'))
  | admitted {a : Admission} {k' : Kernel} : a.Turn p k k' (.done (.ok ())) →
      Turn x p k (.admission a) k' (.more (.calling (.start x)))
  | refused {a : Admission} {k' : Kernel} {e : ClientError} : a.Turn p k k' (.done (.error e)) →
      Turn x p k (.admission a) k' (.done (.error e))
  | calling {f f' : Forward} {handler : Handler} : f.step k.handler = some (handler, .more f') →
      Turn x p k (.calling f) { k with handler } (.more (.calling f'))
  | returned {f : Forward} {handler : Handler} {r : Except ClientError Reply} :
      f.step k.handler = some (handler, .done r) → Turn x p k (.calling f) { k with handler } (.done r)

theorem Guarded.turn_of_step {x : Exchange} {a : Guarded} {pr : Progress Guarded (Except ClientError Reply)}
    (h : a.step x p k = some (k', pr)) : a.Turn x p k k' pr := by
  cases a with
  | admission a =>
    simp only [step] at h
    split at h
    · cases h
    all_goals rename_i hs
    all_goals have ht := Admission.turn_of_step hs
    all_goals cases h
    · exact .admitting ht
    · exact .admitted ht
    · exact .refused ht
  | calling f =>
    simp only [step] at h
    split at h
    · cases h
    all_goals rename_i hs
    all_goals obtain ⟨handler, hf, rfl⟩ := liftHandler_eq_some hs
    all_goals cases h
    · exact .calling hf
    · exact .returned hf

inductive Toggling.Turn (f : Feature) (enable edge : Bool) (p : Party) (k : Kernel) :
    Toggling → Kernel → Progress Toggling (Except ClientError Reply) → Prop where
  | admitting {a a' : Admission} {k' : Kernel} : a.Turn p k k' (.more a') →
      Turn f enable edge p k (.admission a) k' (.more (.admission a'))
  | admitted {a : Admission} {k' : Kernel} : a.Turn p k k' (.done (.ok ())) →
      Turn f enable edge p k (.admission a) k' (.more .askGate)
  | refused {a : Admission} {k' : Kernel} {e : ClientError} : a.Turn p k k' (.done (.error e)) →
      Turn f enable edge p k (.admission a) k' (.done (.error e))
  | asked : Turn f enable edge p k .askGate { k with gate := k.gate.request p } (.more .awaitGate)
  | entered : k.gate.holder = some p → Turn f enable edge p k .awaitGate k (.more .check)
  | unusable {e : ClientError} : checkLink k.link = .error e →
      Turn f enable edge p k .check { k with gate := k.gate.release } (.done (.error e))
  | pointless : k.features.has f = enable →
      Turn f enable edge p k .check { k with gate := k.gate.release }
        (.done (.error (.featureState f enable)))
  | began : k.link = .connected → k.features.has f ≠ enable →
      Turn f enable edge p k .check k (.more (.calling (.start enable (f.channel edge))))
  | calling {g g' : Subscribing} {handler : Handler} : g.step k.handler = some (handler, .more g') →
      Turn f enable edge p k (.calling g) { k with handler } (.more (.calling g'))
  | changed {g : Subscribing} {handler : Handler} : g.step k.handler = some (handler, .done (.ok ())) →
      Turn f enable edge p k (.calling g)
        { k with handler, features := toggled k.features f enable edge, gate := k.gate.release }
        (.done (.ok .done))
  | failed {g : Subscribing} {handler : Handler} {e : ClientError} :
      g.step k.handler = some (handler, .done (.error e)) →
      Turn f enable edge p k (.calling g) { k with handler, gate := k.gate.release } (.done (.error e))

theorem connected_of_checkLink {l : LinkState} {v : Unit} (h : checkLink l = .ok v) : l = .connected := by
  cases l <;> cases h
  rfl

theorem Toggling.turn_of_step {f : Feature} {enable edge : Bool} {a : Toggling}
    {pr : Progress Toggling (Except ClientError Reply)} (h : a.step f enable edge p k = some (k', pr)) :
    a.Turn f enable edge p k k' pr := by
  cases a with
  | admission a =>
    simp only [step] at h
    split at h
    · cases h
    all_goals rename_i hs
    all_goals have ht := Admission.turn_of_step hs
    all_goals cases h
    · exact .admitting ht
    · exact .admitted ht
    · exact .refused ht
  | askGate =>
    cases h
    exact .asked
  | awaitGate =>
    simp only [step] at h
    split at h <;> cases h
    exact .entered (heldBy_iff.mp ‹_›)
  | check =>
    simp only [step] at h
    split at h
    · rename_i hl
      cases h
      exact .unusable hl
    · rename_i hl
      split at h
      · rename_i hf
        cases h
        exact .pointless hf
      · rename_i hf
        cases h
        exact .began (connected_of_checkLink hl) hf
  | calling g =>
    simp only [step] at h
    split at h
    · cases h
    all_goals rename_i hs
    all_goals obtain ⟨handler, hg, rfl⟩ := liftHandler_eq_some hs
    all_goals cases h
    · exact .calling hg
    · exact .changed hg
    · exact .failed hg

/-! ## Open calls -/

/-- Where an open call stands after a turn of its attempts. -/
def OpenPhase.afterTurn : Progress (Run Recovery) (Except ClientError Unit) → OpenPhase
  | .more run => .working run
  | .done (.ok ()) => .raiseLink
  | .done (.error .disposed) => .conclude (.error .disposed)
  | .done (.error e) => .reportDown e

inductive OpenPhase.Turn (token : Nat) (p : Party) (k : Kernel) :
    OpenPhase → Kernel → Progress OpenPhase (Except ClientError Unit) → Prop where
  | refused : k.disposed = true → Turn token p k .checkDisposed k (.done (.error .disposed))
  | admitted : k.disposed = false → Turn token p k .checkDisposed k (.more .checkConnected)
  | connected : k.connected = true → Turn token p k .checkConnected k (.done (.ok ()))
  | unconnected : k.connected = false → Turn token p k .checkConnected k (.more .readEpoch)
  | read : Turn token p k .readEpoch k (.more (.askGate k.epoch))
  | cancelled {epoch : Nat} : k.tokenFired token = true →
      Turn token p k (.askGate epoch) k (.done (.error .cancelled))
  | asked {epoch : Nat} : k.tokenFired token = false →
      Turn token p k (.askGate epoch) { k with gate := k.gate.request p } (.more (.awaitGate epoch))
  | gaveUp {epoch : Nat} : k.tokenFired token = true →
      Turn token p k (.awaitGate epoch) { k with gate := k.gate.withdraw p } (.done (.error .cancelled))
  | entered {epoch : Nat} : k.gate.holder = some p →
      Turn token p k (.awaitGate epoch) k (.more (.recheckDisposed epoch))
  | refusedInside {epoch : Nat} : k.disposed = true →
      Turn token p k (.recheckDisposed epoch) { k with gate := k.gate.release } (.done (.error .disposed))
  | admittedInside {epoch : Nat} : k.disposed = false →
      Turn token p k (.recheckDisposed epoch) k (.more (.consider epoch))
  | found {epoch : Nat} : k.link = .connected →
      Turn token p k (.consider epoch) { k with gate := k.gate.release } (.done (.ok ()))
  | shared {epoch : Nat} {outcome : Except ClientError Unit} : k.link ≠ .connected →
      k.sharedOutcome epoch = some outcome →
      Turn token p k (.consider epoch) { k with gate := k.gate.release } (.done outcome)
  | own {epoch : Nat} : k.link ≠ .connected → k.sharedOutcome epoch = none →
      Turn token p k (.consider epoch) k (.more .begin)
  | late : k.lifetimeOver = true → Turn token p k .begin k (.more (.conclude (.error .disposed)))
  | began : k.lifetimeOver = false →
      Turn token p k .begin k (.more (.working (.ofPolicy (openAction k token) k.policy 0)))
  | overtaken {run : Run Recovery} : k.lifetimeOver = true →
      Turn token p k (.working run) (run.abandon (openAction k token) k)
        (.more (.conclude (.error .disposed)))
  | worked {run : Run Recovery} {k' : Kernel} {q : Progress (Run Recovery) (Except ClientError Unit)} :
      k.lifetimeOver = false → Run.Turn (openAction k token) (k.tokenFired token) k run k' q →
      Turn token p k (.working run) k' (.more (afterTurn q))
  | raised : Turn token p k .raiseLink { k.setLink .connected with opened := true } (.more .startWatcher)
  | watched : Turn token p k .startWatcher k.spawnWatcher (.more .reportUp)
  | reportedUp : Turn token p k .reportUp (k.report .connected .connectionOk) (.more (.conclude (.ok ())))
  | reportedDown {e : ClientError} :
      Turn token p k (.reportDown e) (k.reportFailure e true) (.more (.conclude (.error e)))
  | concluded {outcome : Except ClientError Unit} :
      Turn token p k (.conclude outcome)
        { k with lastOpen := some outcome, epoch := k.epoch + 1, gate := k.gate.release } (.done outcome)

theorem OpenPhase.turn_of_step {token : Nat} {ph : OpenPhase}
    {pr : Progress OpenPhase (Except ClientError Unit)} (h : ph.step token p k = some (k', pr)) :
    ph.Turn token p k k' pr := by
  cases ph with
  | checkDisposed =>
    simp only [step] at h
    split at h <;> cases h
    · exact .refused ‹_›
    · exact .admitted (eq_false_of_ne_true ‹_›)
  | checkConnected =>
    simp only [step] at h
    split at h <;> cases h
    · exact .connected ‹_›
    · exact .unconnected (eq_false_of_ne_true ‹_›)
  | readEpoch =>
    cases h
    exact .read
  | askGate epoch =>
    simp only [step] at h
    split at h <;> cases h
    · exact .cancelled ‹_›
    · exact .asked (eq_false_of_ne_true ‹_›)
  | awaitGate epoch =>
    simp only [step] at h
    split at h
    · cases h
      exact .gaveUp ‹_›
    · split at h <;> cases h
      exact .entered (heldBy_iff.mp ‹_›)
  | recheckDisposed epoch =>
    simp only [step] at h
    split at h <;> cases h
    · exact .refusedInside ‹_›
    · exact .admittedInside (eq_false_of_ne_true ‹_›)
  | consider epoch =>
    simp only [step] at h
    split at h
    · rename_i hl
      cases h
      exact .found hl
    · rename_i hl
      split at h
      · rename_i outcome hs
        cases h
        exact .shared hl hs
      · rename_i hs
        cases h
        exact .own hl hs
  | begin =>
    simp only [step] at h
    split at h <;> cases h
    · exact .late ‹_›
    · exact .began (eq_false_of_ne_true ‹_›)
  | working run =>
    simp only [step] at h
    split at h
    · rename_i ho
      cases h
      exact .overtaken ho
    · rename_i ho
      have ho' : k.lifetimeOver = false := by simpa using ho
      split at h
      · cases h
      all_goals rename_i hs
      · cases h
        exact .worked ho' (Run.turn_of_step hs)
      · cases h
        exact .worked ho' (Run.turn_of_step hs)
      · cases h
        exact .worked ho' (Run.turn_of_step hs)
      · rename_i e hne
        have hq : afterTurn (.done (.error e)) = .reportDown e := by
          cases e <;> first | rfl | exact absurd rfl hne
        cases h
        exact hq ▸ .worked ho' (Run.turn_of_step hs)
  | raiseLink =>
    cases h
    exact .raised
  | startWatcher =>
    cases h
    exact .watched
  | reportUp =>
    cases h
    exact .reportedUp
  | reportDown e =>
    cases h
    exact .reportedDown
  | conclude outcome =>
    cases h
    exact .concluded

/-! ## Close calls -/

inductive ClosePhase.Turn (p : Party) (k : Kernel) :
    ClosePhase → Kernel → Progress ClosePhase (Except ClientError Unit) → Prop where
  | already : k.disposed = true → Turn p k .dispose k (.done (.ok ()))
  | disposed : k.disposed = false → Turn p k .dispose { k with disposed := true } (.more .endLifetime)
  | lifetimeEnded : Turn p k .endLifetime { k with lifetimeOver := true } (.more .askGate)
  | asked : Turn p k .askGate { k with gate := k.gate.request p } (.more .awaitGate)
  | entered : k.gate.holder = some p → Turn p k .awaitGate k (.more .lowerLink)
  | lowered : k.opened = true → Turn p k .lowerLink (k.setLink .closed) (.more (.releasing .start))
  | loweredUnopened : k.opened = false →
      Turn p k .lowerLink { k.setLink .closed with gate := k.gate.release } (.done (.ok ()))
  | releasing {c c' : Closing} {handler : Handler} : c.step k.handler = some (handler, .more c') →
      Turn p k (.releasing c) { k with handler } (.more (.releasing c'))
  | released {c : Closing} {handler : Handler} : c.step k.handler = some (handler, .done (.ok ())) →
      Turn p k (.releasing c) { k with handler, gate := k.gate.release } (.more .stopWatcher)
  | troubled {c : Closing} {handler : Handler} {e : ClientError} :
      c.step k.handler = some (handler, .done (.error e)) →
      Turn p k (.releasing c) { k with handler, gate := k.gate.release } (.more .reportTrouble)
  | reportedTrouble :
      Turn p k .reportTrouble (k.report .disconnected .communicationError) (.more .stopWatcher)
  | unwatched : k.watcher = none → Turn p k .stopWatcher k (.more .reportClosed)
  | dismissed {i : Nat} : k.watcher = some i →
      Turn p k .stopWatcher k.dismissWatcher (.more (.joinWatcher i))
  | joined {i : Nat} : k.watcherEnded i = true → Turn p k (.joinWatcher i) k (.more .reportClosed)
  | reportedClosed : Turn p k .reportClosed (k.report .disabled .clientClosed) (.done (.ok ()))

theorem ClosePhase.turn_of_step {ph : ClosePhase} {pr : Progress ClosePhase (Except ClientError Unit)}
    (h : ph.step p k = some (k', pr)) : ph.Turn p k k' pr := by
  cases ph with
  | dispose =>
    simp only [step] at h
    split at h <;> cases h
    · exact .already ‹_›
    · exact .disposed (eq_false_of_ne_true ‹_›)
  | endLifetime =>
    cases h
    exact .lifetimeEnded
  | askGate =>
    cases h
    exact .asked
  | awaitGate =>
    simp only [step] at h
    split at h <;> cases h
    exact .entered (heldBy_iff.mp ‹_›)
  | lowerLink =>
    simp only [step] at h
    split at h <;> cases h
    · exact .lowered ‹_›
    · exact .loweredUnopened (eq_false_of_ne_true ‹_›)
  | releasing c =>
    simp only [step] at h
    split at h
    · cases h
    all_goals rename_i hs
    all_goals obtain ⟨handler, hc, rfl⟩ := liftHandler_eq_some hs
    all_goals cases h
    · exact .releasing hc
    · exact .released hc
    · exact .troubled hc
  | reportTrouble =>
    cases h
    exact .reportedTrouble
  | stopWatcher =>
    simp only [step] at h
    split at h
    · rename_i hw
      cases h
      exact .unwatched hw
    · rename_i i hw
      cases h
      exact .dismissed hw
  | joinWatcher i =>
    simp only [step] at h
    split at h <;> cases h
    exact .joined ‹_›
  | reportClosed =>
    cases h
    exact .reportedClosed

/-! ## Watchers -/

/-- A run of attempts fails because it was cancelled, or with a failure of the transport. -/
theorem error_of_turn {fs : Features} {c c' : Bool} {granted : Kernel → ClientError → Kernel}
    {r : Run Recovery} {e : ClientError}
    (h : Run.Turn (recovery fs c granted) c' k r k' (.done (.error e))) :
    (e = .cancelled ∧ c' = true) ∨ ∃ t, e = .transport t := by
  cases h with
  | cancelledActing hc | cancelledPausing hc => exact .inl ⟨rfl, hc⟩
  | failed _ hs =>
    obtain ⟨_, he, -⟩ := liftHandler_eq_some hs
    exact .inr (Recovery.error_eq he)

/-- A run of attempts is cancelled by its token alone. -/
theorem cancelled_of_turn {fs : Features} {c c' : Bool} {granted : Kernel → ClientError → Kernel}
    {r : Run Recovery} (h : Run.Turn (recovery fs c granted) c' k r k' (.done (.error .cancelled))) :
    c' = true := by
  rcases error_of_turn h with ⟨-, hc⟩ | ⟨t, ht⟩
  · exact hc
  · cases ht

/-- The attempts of a watcher change nothing but the handler. -/
theorem handler_of_turn {k₀ : Kernel} {w : Watcher} {c : Bool} {r : Run Recovery}
    {q : Progress (Run Recovery) (Except ClientError Unit)}
    (h : Run.Turn (watcherAction k₀ w) c k r k' q) : ∃ handler, k' = { k with handler } := by
  have stepped : ∀ {a k' pr}, (watcherAction k₀ w).step k a = some (k', pr) →
      ∃ handler, k' = { k with handler } := by
    intro a k' pr hs
    obtain ⟨handler, -, he⟩ := liftHandler_eq_some hs
    exact ⟨handler, he⟩
  cases h with
  | cancelledActing | cancelledPausing | resumed => exact ⟨_, rfl⟩
  | advanced _ hs | succeeded _ _ hs | failed _ hs => exact stepped hs
  | retried _ hs => exact stepped hs

/-- What a turn of the attempts of a watcher leads to: more of them, success, the end of a watcher that has
to stop, or failure. -/
inductive WatchPhase.Recovers (k k₁ : Kernel) (w : Watcher) :
    Progress (Run Recovery) (Except ClientError Unit) → Kernel → WatchPhase → Prop where
  | goesOn (run : Run Recovery) : Recovers k k₁ w (.more run) k₁ (.recovering run)
  | restored : k.watcherStopped w = false → Recovers k k₁ w (.done (.ok ())) k₁ .raiseLink
  | stopped (r : Except ClientError Unit) : k.watcherStopped w = true →
      Recovers k k₁ w (.done r) { k₁ with gate := k₁.gate.release } (.ended .closedByClient)
  | failed (e : ClientError) : Recovers k k₁ w (.done (.error e)) (k₁.setLink .lost) (.reportDown e)

inductive WatchPhase.Turn (p : Party) (k : Kernel) (w : Watcher) :
    WatchPhase → Kernel → WatchPhase → Prop where
  | stopped : k.watcherStopped w = true → Turn p k w .watching k (.ended .closedByClient)
  | heard {cause : CloseCause} : k.watcherStopped w = false → k.watchedCause w = some cause →
      Turn p k w .watching k (.askGate cause)
  | stoppedAsking {cause : CloseCause} : k.watcherStopped w = true →
      Turn p k w (.askGate cause) k (.ended .closedByClient)
  | asked {cause : CloseCause} : k.watcherStopped w = false →
      Turn p k w (.askGate cause) { k with gate := k.gate.request p } (.awaitGate cause)
  | gaveUp {cause : CloseCause} : k.watcherStopped w = true →
      Turn p k w (.awaitGate cause) { k with gate := k.gate.withdraw p } (.ended .closedByClient)
  | entered {cause : CloseCause} : k.gate.holder = some p →
      Turn p k w (.awaitGate cause) k (.lowerLink cause)
  | foundClosed {cause : CloseCause} : k.link = .closed →
      Turn p k w (.lowerLink cause) { k with gate := k.gate.release } (.ended .closedByClient)
  | lowered {cause : CloseCause} : k.link ≠ .closed →
      Turn p k w (.lowerLink cause) (k.setLink .reconnecting) (.decide cause)
  | declined {cause : CloseCause} : k.policy.decide 0 (lossError cause) = .stop →
      Turn p k w (.decide cause) (k.setLink .lost) .giveUp
  | granted {cause : CloseCause} {delay : Span} : k.policy.decide 0 (lossError cause) = .retry delay →
      Turn p k w (.decide cause) k (.announce k.policy delay)
  | expired : Turn p k w .giveUp { k.report .disconnected .retryExpired with gate := k.gate.release }
      (.ended .retryExpired)
  | announced {policy : Policy} {delay : Span} : delay.isZero = true →
      Turn p k w (.announce policy delay) (k.report .retrying .communicationError)
        (.recovering (.ofPolicy (watcherAction (k.report .retrying .communicationError) w) policy 1))
  | paused {policy : Policy} {delay : Span} : delay.isZero = false →
      Turn p k w (.announce policy delay) (k.report .retrying .communicationError)
        (.pausing policy (delay.deadline (k.report .retrying .communicationError).handler.now))
  | stoppedPausing {policy : Policy} {deadline : Nat} : k.watcherStopped w = true →
      Turn p k w (.pausing policy deadline) { k with gate := k.gate.release } (.ended .closedByClient)
  | resumed {policy : Policy} {deadline : Nat} : deadline ≤ k.handler.now →
      Turn p k w (.pausing policy deadline) k (.recovering (.ofPolicy (watcherAction k w) policy 1))
  | worked {run : Run Recovery} {k₁ k' : Kernel} {q : Progress (Run Recovery) (Except ClientError Unit)}
      {ph : WatchPhase} : Run.Turn (watcherAction k w) (k.watcherStopped w) k run k₁ q →
      Recovers k k₁ w q k' ph → Turn p k w (.recovering run) k' ph
  | raised : Turn p k w .raiseLink (k.setLink .connected) .startWatcher
  | watched : Turn p k w .startWatcher k.spawnWatcher .reportUp
  | reportedUp : Turn p k w .reportUp
      { k.report .connected .connectionOk with gate := k.gate.release } (.ended .recovered)
  | reportedDown {e : ClientError} : Turn p k w (.reportDown e)
      { k.reportFailure e true with gate := k.gate.release } (.ended .failed)

theorem WatchPhase.turn_of_step {w : Watcher} {ph ph' : WatchPhase} (h : ph.step p k w = some (k', ph')) :
    ph.Turn p k w k' ph' := by
  cases ph with
  | watching =>
    simp only [step] at h
    split at h
    · cases h
      exact .stopped ‹_›
    · obtain ⟨cause, hc, he⟩ := Option.map_eq_some_iff.mp h
      cases he
      exact .heard (eq_false_of_ne_true ‹_›) hc
  | askGate cause =>
    simp only [step] at h
    split at h <;> cases h
    · exact .stoppedAsking ‹_›
    · exact .asked (eq_false_of_ne_true ‹_›)
  | awaitGate cause =>
    simp only [step] at h
    split at h
    · cases h
      exact .gaveUp ‹_›
    · split at h <;> cases h
      exact .entered (heldBy_iff.mp ‹_›)
  | lowerLink cause =>
    simp only [step] at h
    split at h <;> cases h
    · exact .foundClosed ‹_›
    · exact .lowered ‹_›
  | decide cause =>
    simp only [step] at h
    split at h <;> cases h
    · exact .declined ‹_›
    · exact .granted ‹_›
  | giveUp =>
    cases h
    exact .expired
  | announce policy delay =>
    simp only [step] at h
    split at h <;> cases h
    · exact .announced ‹_›
    · exact .paused (eq_false_of_ne_true ‹_›)
  | pausing policy deadline =>
    simp only [step] at h
    split at h
    · cases h
      exact .stoppedPausing ‹_›
    · split at h <;> cases h
      exact .resumed ‹_›
  | recovering run =>
    simp only [step] at h
    split at h
    · cases h
    all_goals rename_i hs
    all_goals have ht := Run.turn_of_step hs
    · cases h
      exact .worked ht (.goesOn _)
    · obtain ⟨handler, rfl⟩ := handler_of_turn ht
      split at h <;> cases h
      · exact .worked ht (.stopped _ ‹_›)
      · exact .worked ht (.restored (eq_false_of_ne_true ‹_›))
    · cases h
      exact .worked ht (.stopped _ (cancelled_of_turn ht))
    · cases h
      exact .worked ht (.failed _)
  | raiseLink =>
    cases h
    exact .raised
  | startWatcher =>
    cases h
    exact .watched
  | reportUp =>
    cases h
    exact .reportedUp
  | reportDown e =>
    cases h
    exact .reportedDown
  | ended exit => cases h

end HubDevice.Kernel
