import HubDevice.Proofs.Kernel.Dormant
import HubDevice.Proofs.Kernel.Script
import HubDevice.Proofs.Kernel.Watching

/-!
# What a recovery does

The watcher that interrupts a link keeps the gate until the link is up again or lost. As long as nothing
interferes with it (`Tended`), each phase of it says which attempts were made so far and what an observer has
seen (`WatchPhase.Reached`), and everything that happens keeps to that (`Mends.after`). The failure that the
first attempt is decided on is the loss itself, before there is a run of attempts; the series of the run
therefore counts from one, and `Policy.delays?` from zero with the loss in front. What follows for a whole
recovery is `Abides`; that recoveries go by every script is `path_of_decide`. `recovery_law` has both.
-/

namespace HubDevice.Kernel

open FairLock Retry Wire

variable {p : Party} {P : Policy} {k k₀ k₁ k' : Kernel} {e : Happening} {l : List (Kernel × Happening)}
  {i n : Nat} {ms : List Mark} {std : Standing} {said : List Status} {link : LinkState} {cause : CloseCause}

/-- A watcher has not ended, no close or drop has begun, and a policy is in force. -/
structure Tended (P : Policy) (i : Nat) (k : Kernel) : Prop where
  policy : k.policy = P
  lifetime : k.lifetimeOver = false
  left : k.watcherEnded i = false

/-- No attempt was made yet since a kernel, nor any other control call. -/
structure Untried (k₀ : Kernel) (ms : List Mark) (said : List Status) (link : LinkState) (k : Kernel) :
    Prop where
  none : ms = []
  quiet : k.Quiet
  control : k.handler.wire.control = k₀.handler.wire.control
  clock : k₀.handler.now ≤ k.handler.now
  shows : k₀.Shows said link k

/-- The attempts of a recovery since a kernel, the first of them after a delay that was granted for the loss,
and what an observer has seen of them. -/
structure Tried (P : Policy) (cause : CloseCause) (k₀ : Kernel) (ms : List Mark) (n : Nat) (std : Standing)
    (said : List Status) (link : LinkState) (k : Kernel) : Prop where
  series : ∃ d since, P.decide 0 (lossError cause) = .retry d ∧ k₀.handler.now ≤ since ∧
    P.SeriesFrom 1 (d.deadline since) ms n std
  shows : k₀.Shows said link k

/-- The report that a lost connection is not restored. -/
def expired : Status := ⟨.disconnected, .retryExpired⟩

/-- The attempts of a recovery whose watcher is in a phase, and what an observer has seen of them. -/
def WatchPhase.Reached (P : Policy) (cause : CloseCause) (k₀ : Kernel) (ms : List Mark) (k : Kernel) :
    WatchPhase → Prop
  | .decide c => c = cause ∧ Untried k₀ ms [] .reconnecting k
  | .giveUp => P.decide 0 (lossError cause) = .stop ∧ Untried k₀ ms [] .lost k
  | .announce policy d => policy = P ∧ P.decide 0 (lossError cause) = .retry d ∧
      Untried k₀ ms [] .reconnecting k
  | .pausing policy t => policy = P ∧ (∃ d since, P.decide 0 (lossError cause) = .retry d ∧
      k₀.handler.now ≤ since ∧ d.deadline since ≤ t) ∧ Untried k₀ ms [retrying] .reconnecting k
  | .recovering run => ∃ n std, Tried P cause k₀ ms n std [retrying] .reconnecting k ∧
      run.Pursues Recovery.isStart P 1 n std k.handler.now
  | .raiseLink => ∃ n, Tried P cause k₀ ms n (.settled (.ok ())) [retrying] .reconnecting k
  | .startWatcher | .reportUp => ∃ n, Tried P cause k₀ ms n (.settled (.ok ())) [retrying] .connected k
  | .reportDown e => ∃ n, Tried P cause k₀ ms n (.settled (.error e)) [retrying] .lost k
  | .ended .retryExpired => P.decide 0 (lossError cause) = .stop ∧ Untried k₀ ms [expired] .lost k
  | .ended .recovered => ∃ n, Tried P cause k₀ ms n (.settled (.ok ())) [finalStatus (.ok ()), retrying]
      .connected k
  | .ended .failed => ∃ n e, Tried P cause k₀ ms n (.settled (.error e)) [finalStatus (.error e), retrying] .lost k
  | _ => False

/-- As long as no close or drop begins no watcher is told to stop. -/
theorem Orderly.unstopped (h : k.Orderly) {w : Watcher} (hw : k.watchers[i]? = some w)
    (hl : k.lifetimeOver = false) : k.watcherStopped w = false := by
  cases hst : k.watcherStopped w with
  | false => rfl
  | true =>
    rw [h.watcherStopped hw hst] at hl
    cases hl

/-! ## What happens unseen -/

theorem Untried.unseen (h : Untried k₀ ms said link k) (hb : Unseen k k') : Untried k₀ ms said link k' where
  none := h.none
  quiet := h.quiet.touches hb.wire fun _ => id
  control := (hb.wire.control_eq (fun _ => id) h.quiet.owned).2.trans h.control
  clock := Nat.le_trans h.clock hb.clock
  shows := h.shows.unseen hb

theorem Tried.unseen (h : Tried P cause k₀ ms n std said link k) (hb : Unseen k k') :
    Tried P cause k₀ ms n std said link k' := ⟨h.series, h.shows.unseen hb⟩

/-- What was reached stays so where what was tried does. -/
theorem WatchPhase.Reached.mono {ph : WatchPhase} (h : ph.Reached P cause k₀ ms k)
    (hu : ∀ {said link}, Untried k₀ ms said link k → Untried k₀ ms said link k')
    (ht : ∀ {n std said link}, Tried P cause k₀ ms n std said link k → Tried P cause k₀ ms n std said link k')
    (hn : k.handler.now ≤ k'.handler.now) : ph.Reached P cause k₀ ms k' := by
  cases ph with
  | watching | askGate | awaitGate | lowerLink => exact h.elim
  | decide | giveUp => exact ⟨h.1, hu h.2⟩
  | announce | pausing => exact ⟨h.1, h.2.1, hu h.2.2⟩
  | recovering run =>
    obtain ⟨n, std, htried, hr⟩ := h
    exact ⟨n, std, ht htried, hr.mono hn⟩
  | raiseLink | startWatcher | reportUp | reportDown =>
    obtain ⟨n, htried⟩ := h
    exact ⟨n, ht htried⟩
  | ended exit =>
    cases exit with
    | closedByClient => exact h.elim
    | retryExpired => exact ⟨h.1, hu h.2⟩
    | recovered =>
      obtain ⟨n, htried⟩ := h
      exact ⟨n, ht htried⟩
    | failed =>
      obtain ⟨n, e, htried⟩ := h
      exact ⟨n, e, ht htried⟩

theorem WatchPhase.Reached.unseen {ph : WatchPhase} (h : ph.Reached P cause k₀ ms k) (hb : Unseen k k') :
    ph.Reached P cause k₀ ms k' := h.mono (fun hu => hu.unseen hb) (fun ht => ht.unseen hb) hb.clock

/-! ## What the watcher does -/

theorem Untried.of_handler {link' : LinkState} (h : Untried k₀ ms said link k) (hh : k'.handler = k.handler)
    (hf : k'.features = k.features) (hl : k'.link = link') : Untried k₀ ms said link' k' where
  none := h.none
  quiet := h.quiet.of_handler hh
  control := (congrArg (fun h : Handler => h.wire.control) hh).trans h.control
  clock := hh.symm ▸ h.clock
  shows := h.shows.of_handler hh hf hl

theorem Untried.report (h : Untried k₀ ms said link k) (st : Status) :
    Untried k₀ ms (st :: said) link (k.report st.state st.reason) where
  none := h.none
  quiet := h.quiet.touches (Touch.reported (A := { statuses := fun _ => True }) trivial).touches fun _ => False.elim
  control := h.control
  clock := h.clock
  shows := h.shows.report st

theorem Tried.of_handler {link' : LinkState} (h : Tried P cause k₀ ms n std said link k)
    (hh : k'.handler = k.handler) (hf : k'.features = k.features) (hl : k'.link = link') :
    Tried P cause k₀ ms n std said link' k' := ⟨h.series, h.shows.of_handler hh hf hl⟩

/-- What is seen while the attempts of a recovery go on: nothing. -/
theorem counts_watcherAction (k₁ : Kernel) (w : Watcher) :
    Run.Counts (watcherAction k₁ w) P fun _ k => k₀.Shows said link k where
  step h hs := by
    obtain ⟨_, he, rfl⟩ := liftHandler_eq_some hs
    exact h.relays (relays_of_touches _ (Recovery.touches_step he)) fun _ => id
  granted _ _ h _ _ := h

/-- No step of a watcher in a phase but one at work notes anything. -/
theorem mark?_of_watching {w : Watcher} (hw : k.watchers[i]? = some w)
    (hph : ∀ run, w.phase ≠ .recovering run) : mark? (.watcher i) (k, e) = none := by
  unfold mark?
  split
  · have hn : k.working? (.watcher i) = none := by
      simp only [working?]
      rw [hw, Option.bind_some]
      split
      · exact absurd ‹_› (hph _)
      · rfl
    simp [hn]
  · rfl

theorem Tried.worked {w : Watcher} (hst : k.watcherStopped w = false)
    {run : Run Recovery} {q : Progress (Run Recovery) (Except ClientError Unit)}
    (hP : P.transient = ClientError.transient)
    (hm : Tried P cause k₀ ms n std [retrying] .reconnecting k)
    (hr : run.Pursues Recovery.isStart P 1 n std k.handler.now)
    (h : Run.Turn (watcherAction k w) false k run k₁ q) {ph : WatchPhase}
    (hq : WatchPhase.Recovers k k₁ w q k' ph) :
    ph.Reached P cause k₀ ((run.mark? (watcherAction k w) Recovery.isStart false k).toList ++ ms) k' := by
  have hcanc : P.transient .cancelled = false := by rw [hP]; rfl
  have hx : Run.Timed (watcherAction k w) Recovery.isStart := timed_recovery fun _ _ => rfl
  obtain ⟨⟨d, since, hd, hsince, hser⟩, hsh⟩ := hm
  obtain ⟨-, n', std', hs, hsh', hon⟩ := h.series hx (counts_watcherAction k w) hcanc hr hser hsh
  cases hq with
  | goesOn run' => exact ⟨n', std', ⟨⟨d, since, hd, hsince, hs⟩, hsh'⟩, hon⟩
  | restored =>
    have hon : std' = .settled (.ok ()) := hon
    exact ⟨n', ⟨d, since, hd, hsince, hon ▸ hs⟩, hsh'⟩
  | stopped r ht =>
    rw [hst] at ht
    cases ht
  | failed e =>
    have hon : std' = .settled (.error e) := hon
    exact ⟨n', ⟨d, since, hd, hsince, hon ▸ hs⟩, hsh'.setLink .lost⟩

/-- One step of a watcher that nothing interferes with keeps to its phase. -/
theorem WatchPhase.reached_step (hP : P.transient = ClientError.transient) (hr : k.Reachable)
    (hc : Tended P i k) {w : Watcher} {ph ph' : WatchPhase} (hw : k.watchers[i]? = some w) (hph : w.phase = ph)
    (hk : ph.Reached P cause k₀ ms k) (h : ph.step (.watcher i) k w = some (k₁, ph')) :
    ph'.Reached P cause k₀ ((mark? (.watcher i) (k, .stepWatcher i)).toList ++ ms) k₁ := by
  have hst := (orderly_of_reachable hr).unstopped hw hc.lifetime
  by_cases hwork : ∃ run, ph = .recovering run
  · obtain ⟨run, rfl⟩ := hwork
    obtain ⟨n, std, hm, hrun⟩ := hk
    rw [show Happening.stepWatcher i = Party.step (.watcher i) from rfl,
      mark?_of_working (working?_of_watcher hw hph hst)]
    cases turn_of_step h with
    | worked hturn hq => exact hm.worked hst hP hrun (hst ▸ hturn) hq
  · rw [mark?_of_watching hw fun run he => hwork ⟨run, hph.symm.trans he⟩]
    cases turn_of_step h with
    | stopped | heard | stoppedAsking | asked | gaveUp | entered | foundClosed | lowered => exact hk.elim
    | stoppedPausing hs =>
      rw [hst] at hs
      cases hs
    | worked => exact absurd ⟨_, rfl⟩ hwork
    | declined hd =>
      obtain ⟨rfl, hu⟩ := hk
      exact ⟨hc.policy ▸ hd, hu.of_handler rfl rfl rfl⟩
    | granted hd =>
      obtain ⟨rfl, hu⟩ := hk
      exact ⟨hc.policy, hc.policy ▸ hd, hu⟩
    | expired => exact ⟨hk.1, (hk.2.report expired).of_handler rfl rfl hk.2.shows.link⟩
    | @announced policy delay hz =>
      obtain ⟨rfl, hd, hu⟩ := hk
      obtain ⟨rfl, -, -, hcl, hsh⟩ := hu.report retrying
      refine ⟨0, .due k.handler.now, ⟨⟨delay, _, hd, hcl, _, ?_, .start⟩, hsh⟩, ?_⟩
      · exact Nat.le_of_eq (delay.deadline_of_isZero hz _)
      · exact Run.pursues_ofPolicy (timed_recovery fun _ _ => rfl) (by decide) (Nat.le_refl _)
    | @paused policy delay hz =>
      obtain ⟨rfl, hd, hu⟩ := hk
      exact ⟨rfl, ⟨delay, _, hd, hu.clock, Nat.le_refl _⟩, hu.report retrying⟩
    | @resumed policy t ht =>
      obtain ⟨rfl, ⟨d, since, hd, hsince, hle⟩, hu⟩ := hk
      obtain ⟨rfl, -, -, -, hsh⟩ := hu
      refine ⟨0, .due t, ⟨⟨d, since, hd, hsince, t, hle, .start⟩, hsh⟩, ?_⟩
      exact Run.pursues_ofPolicy (timed_recovery fun _ _ => rfl) (by decide) ht
    | raised =>
      obtain ⟨n, hm⟩ := hk
      exact ⟨n, hm.of_handler rfl rfl rfl⟩
    | watched =>
      obtain ⟨n, hm⟩ := hk
      exact ⟨n, hm.of_handler rfl rfl hm.shows.link⟩
    | reportedUp =>
      obtain ⟨n, hm⟩ := hk
      exact ⟨n, hm.series, (hm.shows.report (finalStatus (.ok ()))).of_handler rfl rfl hm.shows.link⟩
    | @reportedDown err =>
      obtain ⟨n, hm⟩ := hk
      refine ⟨n, err, hm.series, ?_⟩
      rw [reportFailure, hc.policy, statusOf_final hP]
      exact (hm.shows.report (finalStatus (.error err))).of_handler rfl rfl hm.shows.link

theorem WatchPhase.Reached.of_handler {ph : WatchPhase} (h : ph.Reached P cause k₀ ms k)
    (hh : k'.handler = k.handler) (hf : k'.features = k.features) (hl : k'.link = k.link) :
    ph.Reached P cause k₀ ms k' :=
  h.mono (fun hu => hu.of_handler hh hf (hl.trans hu.shows.link))
    (fun ht => ht.of_handler hh hf (hl.trans ht.shows.link)) (Nat.le_of_eq (congrArg Handler.now hh.symm))

/-! ## Runs -/

theorem watcher_of_post {s : Option SessionId} {ph : WatchPhase} (h : k.posts[i]? = some (s, ph)) :
    ∃ w, k.watchers[i]? = some w ∧ w.session = s ∧ w.phase = ph := by
  simp only [posts, List.getElem?_map] at h
  obtain ⟨w, hw, he⟩ := Option.map_eq_some_iff.mp h
  obtain ⟨hs, hp⟩ := Prod.mk.inj he
  exact ⟨w, hw, hs, hp⟩

/-- Where the watcher of a recovery stands; once it has ended nobody is inside the gate. -/
structure Mends (P : Policy) (cause : CloseCause) (k₀ : Kernel) (i : Nat) (ms : List Mark) (k : Kernel) :
    Prop where
  post : ∃ s ph, k.posts[i]? = some (s, ph) ∧ ph.Reached P cause k₀ ms k
  outside : k.watcherEnded i = true → ∀ p, k.stance p ≠ .inside

/-- A watcher that has not ended is inside the gate all through the recovery. -/
theorem WatchPhase.Reached.inside {ph : WatchPhase} (h : ph.Reached P cause k₀ ms k) (ho : ph.isOver = false) :
    ph.stance = .inside := by
  cases ph with
  | watching | askGate | awaitGate | lowerLink => exact h.elim
  | ended => cases ho
  | _ => rfl

theorem Mends.inside (h : Mends P cause k₀ i ms k) (hc : Tended P i k) : k.stance (.watcher i) = .inside := by
  obtain ⟨s, ph, hp, hk⟩ := h.post
  have ho : ph.isOver = false := by
    have hl := hc.left
    rwa [watcherEnded_eq, hp] at hl
  simp [stance, hp, hk.inside ho]

theorem Mends.after (hP : P.transient = ClientError.transient) (hr : k.Reachable) (hc : Tended P i k)
    (h : Mends P cause k₀ i ms k) (he : k.after e = some k') :
    Mends P cause k₀ i ((mark? (.watcher i) (k, e)).toList ++ ms) k' := by
  have ho := orderly_of_reachable hr
  have hin := h.inside hc
  obtain ⟨s, ph, hp, hk⟩ := h.post
  by_cases hparty : e.party? = some (.watcher i)
  · have hstep : e = .stepWatcher i := by
      cases e <;> first | cases hparty; rfl | cases hparty
    subst hstep
    obtain ⟨w, k₁, ph', hw, hs, rfl⟩ := stepWatcher_eq_some he
    have hpost := posts_stepped hw hs
    rw [getElem?_posts hw] at hp
    cases hp
    have hk' : ph'.Reached P cause k₀ _ (k₁.setPhase i ph') :=
      (WatchPhase.reached_step hP hr hc hw rfl hk hs).of_handler rfl rfl rfl
    refine ⟨⟨_, _, hpost, hk'⟩, fun hend p => ?_⟩
    rw [watcherEnded_eq, hpost] at hend
    by_cases hpi : p = .watcher i
    · subst hpi
      have hst : (k₁.setPhase i ph').stance (.watcher i) = ph'.stance := by simp [stance, hpost]
      rw [hst]
      cases ph' with
      | ended exit => simp [WatchPhase.stance]
      | _ => cases hend
    · rw [(stance_stepWatcher he).2 p hpi]
      exact unrivalled_of_inside ho hin p hpi
  · rw [mark?_of_ne hparty]
    have hb := beside_of_after ho (unrivalled_of_inside ho hin) hc.lifetime he hparty
    have hpost := hb.post rfl hp
    refine ⟨⟨s, ph, hpost, hk.unseen hb.toUnseen⟩, fun hend => ?_⟩
    have hl := hc.left
    rw [watcherEnded_eq, hp] at hl
    rw [watcherEnded_eq, hpost, hl] at hend
    cases hend

theorem mends_of_path (hP : P.transient = ClientError.transient) (hr : k₀.Reachable)
    (h₀ : Mends P cause k₀ i [] k₀) (h : PathIn (Tended P i) k₀ l k) :
    Mends P cause k₀ i (marks (.watcher i) l) k := by
  obtain ⟨h, hx⟩ := h
  induction h with
  | refl => exact h₀
  | tail e hp he ih =>
    rw [marks_cons]
    exact (ih fun x hm => hx x (List.mem_cons_of_mem _ hm)).after hP (hp.reachable hr) (hx _ List.mem_cons_self) he

/-! ## The start of a recovery -/

theorem path_of_alone (h : Alone i k k') : ∃ l, Path k l k' := by
  induction h with
  | refl => exact ⟨[], .refl⟩
  | tail _ hs ih =>
    obtain ⟨l, hp⟩ := ih
    exact ⟨_, hp.tail (Happening.stepWatcher i) hs⟩

/-- A link that is up is interrupted when its session has ended. -/
theorem interrupts_of_loss (hr : k.Reachable) (hl : k.link = .connected) (hf : k.gate.holder = none)
    (hlife : k.lifetimeOver = false) {s : SessionId} (hs : k.handler.slot = some s)
    (hc : k.handler.wire.cause? s = some cause) :
    ∃ i l k₁ k₀, Path k l k₁ ∧ k₁.Interrupts (.stepWatcher i) k₀ ∧ k₀.handler = k.handler ∧
      k₀.policy = k.policy ∧ k₀.lifetimeOver = false := by
  obtain ⟨i, hw⟩ := watchedOnce_of_connected hr hf hl hlife
  obtain ⟨s', ph, hpost, hs', hph⟩ := hw.post
  rw [hs] at hs'
  cases hs'
  obtain ⟨w, hw, hsession, hwp⟩ := watcher_of_post hpost
  have hst := (orderly_of_reachable hr).unstopped hw hlife
  have hn : k.link ≠ .closed := by simp [hl]
  rcases hph with rfl | ⟨cause', rfl, -⟩
  · have hcause : k.watchedCause w = some cause := by
      unfold watchedCause
      rw [hsession]
      exact hc
    have hstep : k.stepWatcher i = some (k.setPhase i (.askGate cause)) :=
      stepWatcher_of_step hw (by simp [hwp, WatchPhase.step, hst, hcause])
    obtain ⟨_, _, _, ha, he⟩ := lowered_of_askGate (k := k.setPhase i (.askGate cause))
      (getElem?_watchers_setPhase hw _) rfl hst hf hn
    obtain ⟨l, hp⟩ := path_of_alone ((Alone.step hstep).trans ha)
    exact ⟨i, l, _, _, hp, ⟨he, hl, rfl⟩, rfl, rfl, hlife⟩
  · obtain ⟨_, _, _, ha, he⟩ := lowered_of_askGate hw hwp hst hf hn
    obtain ⟨l, hp⟩ := path_of_alone ha
    exact ⟨i, l, _, _, hp, ⟨he, hl, rfl⟩, rfl, rfl, hlife⟩

/-- A recovery has just begun: the link went down, and the watcher of the session that ended is about to decide
on the first attempt. -/
structure Begun (k : Kernel) (i : Nat) (cause : CloseCause) (k₀ : Kernel) : Prop where
  session : ∃ s, k.handler.slot = some s ∧ k.handler.wire.cause? s = some cause
  post : ∃ s, k₀.posts[i]? = some (some s, .decide cause)
  handler : k₀.handler = k.handler
  features : k₀.features = k.features
  link : k₀.link = .reconnecting

/-- An interruption is the beginning of a recovery. -/
theorem begun_of_interrupts (hr : k.Reachable) (hint : k.Interrupts e k₀) :
    ∃ i cause, e = .stepWatcher i ∧ Begun k i cause k₀ := by
  obtain ⟨i, s, hi⟩ := watcher_of_interrupts hr hint
  obtain ⟨cause, hpost, hc⟩ := hi.post
  obtain ⟨he, hl, hl'⟩ := hint
  have ho := orderly_of_reachable hr
  obtain ⟨w, hw, hsession, hph⟩ := watcher_of_post hpost
  have hin : k.stance (.watcher i) = .inside := by rw [stance_of_watchers hw, hph]; rfl
  have hparty : e.party? = some (.watcher i) := by
    refine Classical.byContradiction fun hne => ?_
    have hl₀ := (aside_after ho he fun q hq hqi => hne (ho.eq_of_inside hqi hin ▸ hq)).link
    rw [hl', hl] at hl₀
    cases hl₀
  obtain rfl : e = .stepWatcher i := step_of_party hparty
  refine ⟨i, cause, rfl, ?_⟩
  obtain ⟨w', k₁, ph, hw', hs, rfl⟩ := stepWatcher_eq_some he
  rw [hw] at hw'
  cases hw'
  have hpost' := posts_stepped hw hs
  rw [hph] at hs
  cases WatchPhase.turn_of_step hs with
  | foundClosed hclosed =>
    rw [hl] at hclosed
    cases hclosed
  | lowered => exact ⟨⟨s, hi.slot, hc⟩, ⟨s, hsession ▸ hpost'⟩, rfl, rfl, rfl⟩

theorem Begun.mends (h : Begun k i cause k₀) (hr₀ : k₀.Reachable) : Mends P cause k₀ i [] k₀ := by
  obtain ⟨s, hpost⟩ := h.post
  obtain ⟨w, hw, -, hph⟩ := watcher_of_post hpost
  have hquiet : k₀.Quiet := by
    have hk := recordRegime_kept.watching_of_inside hr₀ hw (by rw [hph]; rfl)
    rw [hph] at hk
    exact hk
  refine ⟨⟨_, _, hpost, rfl, rfl, hquiet, rfl, Nat.le_refl _, rfl, h.link, rfl⟩, fun hend => ?_⟩
  rw [watcherEnded_eq, hpost] at hend
  cases hend

/-! ## A recovery that comes to its end -/

/-- The watcher of a recovery stands in a phase inside the gate, and nothing interferes with it. -/
structure Tends (P : Policy) (i : Nat) (ph : WatchPhase) (k : Kernel) : Prop where
  policy : k.policy = P
  lifetime : k.lifetimeOver = false
  reachable : k.Reachable
  post : ∃ s, k.posts[i]? = some (s, ph)
  inside : ph.stance = .inside

theorem Tends.tended {ph : WatchPhase} (h : Tends P i ph k) : Tended P i k where
  policy := h.policy
  lifetime := h.lifetime
  left := by
    obtain ⟨s, hp⟩ := h.post
    have hi := h.inside
    rw [watcherEnded_eq, hp]
    cases ph <;> first | rfl | cases hi

theorem Tends.watcher {ph : WatchPhase} (h : Tends P i ph k) :
    ∃ w, k.watchers[i]? = some w ∧ w.phase = ph ∧ k.watcherStopped w = false := by
  obtain ⟨s, hp⟩ := h.post
  obtain ⟨w, hw, -, hph⟩ := watcher_of_post hp
  exact ⟨w, hw, hph, (orderly_of_reachable h.reachable).unstopped hw h.lifetime⟩

/-- The watcher takes a step. -/
theorem Tends.after {ph ph' : WatchPhase} {w : Watcher} (h : Tends P i ph k) (hw : k.watchers[i]? = some w)
    (hph : w.phase = ph) (hs : ph.step (.watcher i) k w = some (k₁, ph')) :
    k.after (.stepWatcher i) = some (k₁.setPhase i ph') ∧
      (k₁.setPhase i ph').posts[i]? = some (w.session, ph') := by
  subst hph
  exact ⟨stepWatcher_of_step hw hs, posts_stepped hw hs⟩

/-- The watcher takes a step inside the gate. -/
theorem Tends.next {ph ph' : WatchPhase} {w : Watcher} (h : Tends P i ph k) (hw : k.watchers[i]? = some w)
    (hph : w.phase = ph) (hs : ph.step (.watcher i) k w = some (k₁, ph')) (hal : Alike k k₁)
    (hi : ph'.stance = .inside) :
    ∃ k', k.after (.stepWatcher i) = some k' ∧ Tends P i ph' k' ∧ k'.handler = k₁.handler := by
  obtain ⟨he, hp⟩ := h.after hw hph hs
  exact ⟨_, he, ⟨hal.policy.trans h.policy, hal.lifetimeOver.trans h.lifetime,
    (History.refl.tail _ he).reachable h.reachable, ⟨_, hp⟩, hi⟩, rfl⟩

/-- Time passes for a watcher. -/
theorem Tends.pass {ph : WatchPhase} (h : Tends P i ph k) (t : Nat) :
    k.after (.pass t) = some (k.setTime (k.handler.now + t)) ∧ Tends P i ph (k.setTime (k.handler.now + t)) := by
  have he : k.after (.pass t) = some (k.setTime (k.handler.now + t)) := rfl
  exact ⟨he, h.policy, h.lifetime, (History.refl.tail _ he).reachable h.reachable, h.post, h.inside⟩

/-- A watcher ends without any attempt or delay. -/
def ComesToEnd (P : Policy) (i : Nat) (k : Kernel) : Prop :=
  ∃ l k', PathIn (Tended P i) k l k' ∧ k'.watcherEnded i = true ∧ k'.handler.now = k.handler.now ∧
    marks (.watcher i) l = []

theorem comesToEnd_of_last {ph : WatchPhase} {exit : WatcherExit} {w : Watcher} (h : Tends P i ph k)
    (hw : k.watchers[i]? = some w) (hwp : w.phase = ph) (hph : ∀ run, ph ≠ .recovering run)
    (hs : ph.step (.watcher i) k w = some (k₁, .ended exit)) (hnow : k₁.handler.now = k.handler.now) :
    ComesToEnd P i k := by
  obtain ⟨he, hp⟩ := h.after hw hwp hs
  refine ⟨_, _, (PathIn.refl _ k).tail h.tended he, ?_, hnow, ?_⟩
  · rw [watcherEnded_eq, hp]
    rfl
  · rw [marks_cons, mark?_of_watching hw (hwp ▸ hph)]
    rfl

theorem comesToEnd_of_next {ph ph' : WatchPhase} {w : Watcher} (h : Tends P i ph k)
    (hw : k.watchers[i]? = some w) (hwp : w.phase = ph) (hph : ∀ run, ph ≠ .recovering run)
    (hs : ph.step (.watcher i) k w = some (k₁, ph')) (hal : Alike k k₁) (hi : ph'.stance = .inside)
    (hnow : k₁.handler.now = k.handler.now) (hn : ∀ k', Tends P i ph' k' → ComesToEnd P i k') :
    ComesToEnd P i k := by
  obtain ⟨k', he, hk', hh⟩ := h.next hw hwp hs hal hi
  obtain ⟨l, k₂, hp, hend, hnow', hm⟩ := hn k' hk'
  refine ⟨_, k₂, ((PathIn.refl _ k).tail h.tended he).trans hp, hend, ?_, ?_⟩
  · rw [hnow', hh, hnow]
  · rw [marks_append, hm, marks_cons, mark?_of_watching hw (hwp ▸ hph)]
    rfl

theorem comesToEnd_of_giveUp (h : Tends P i .giveUp k) : ComesToEnd P i k := by
  obtain ⟨w, hw, hwp, -⟩ := h.watcher
  exact comesToEnd_of_last h hw hwp (by simp) rfl rfl

theorem comesToEnd_of_reportDown {err : ClientError} (h : Tends P i (.reportDown err) k) :
    ComesToEnd P i k := by
  obtain ⟨w, hw, hwp, -⟩ := h.watcher
  exact comesToEnd_of_last h hw hwp (by simp) rfl rfl

theorem comesToEnd_of_raiseLink (h : Tends P i .raiseLink k) : ComesToEnd P i k := by
  obtain ⟨w, hw, hwp, -⟩ := h.watcher
  refine comesToEnd_of_next h hw hwp (by simp) rfl ⟨rfl, rfl, rfl, rfl, rfl⟩ rfl rfl fun k' h => ?_
  obtain ⟨w, hw, hwp, -⟩ := h.watcher
  refine comesToEnd_of_next h hw hwp (by simp) rfl ⟨rfl, rfl, rfl, rfl, rfl⟩ rfl rfl fun k' h => ?_
  obtain ⟨w, hw, hwp, -⟩ := h.watcher
  exact comesToEnd_of_last h hw hwp (by simp) rfl rfl

/-- When the policy does not grant a first attempt, the watcher ends at once. -/
theorem comesToEnd_of_decide (h : Tends P i (.decide cause) k) (hd : P.decide 0 (lossError cause) = .stop) :
    ComesToEnd P i k := by
  obtain ⟨w, hw, hwp, -⟩ := h.watcher
  have hs : (WatchPhase.decide cause).step (.watcher i) k w = some (k.setLink .lost, .giveUp) := by
    simp [WatchPhase.step, h.policy, hd]
  exact comesToEnd_of_next h hw hwp (by simp) hs ⟨rfl, rfl, rfl, rfl, rfl⟩ rfl rfl fun k' h => comesToEnd_of_giveUp h

theorem Undisturbed.tended (h : Undisturbed (.watcher i) k k') (hp : k.policy = P)
    (hl : k.lifetimeOver = false) : Tended P i k' := by
  obtain ⟨hal, run, x, hx⟩ := h
  rcases working?_cases hx with ⟨_, _, he, -⟩ | ⟨j, w, he, hw, hph, -⟩
  · cases he
  · cases he
    refine ⟨hal.policy.trans hp, hal.lifetimeOver.trans hl, ?_⟩
    rw [watcherEnded_eq, getElem?_posts hw, hph]
    rfl

/-- A watcher whose last attempt ends. -/
theorem WatchPhase.step_last {a : Recovery} {h' : Handler} {m : Nat} {o : Except TransportError Unit} {w : Watcher}
    (hst : k.watcherStopped w = false)
    (hs : (watcherAction k w).step k a = some ({ k with handler := h' }, .done (o.mapError .transport)))
    (hfin : ∀ t, o = .error t → P.transient (.transport t) = false ∨ P.decide m (.transport t) = .stop) :
    ∃ k₁ ph', (WatchPhase.recovering ⟨P, m, .acting a⟩).step p k w = some (k₁, ph') ∧ Alike k k₁ ∧
      k₁.handler = h' ∧ (ph' = .raiseLink ∨ ∃ err, ph' = .reportDown err) := by
  have hrun : Run.step (watcherAction k w) false k ⟨P, m, .acting a⟩ =
      some ({ k with handler := h' }, .done (o.mapError .transport)) :=
    Run.step_of_done hs (final_of_script hfin)
  cases o with
  | ok v =>
    refine ⟨{ k with handler := h' }, .raiseLink, ?_, ⟨rfl, rfl, rfl, rfl, rfl⟩, rfl, .inl rfl⟩
    have hst' : watcherStopped { k with handler := h' } w = false := hst
    have granted : Run.step (watcherAction k w) false k ⟨P, m, .acting a⟩ =
        some ({ k with handler := h' }, .done (.ok v)) := hrun
    simp [WatchPhase.step, hst, granted, hst']
  | error t =>
    refine ⟨setLink { k with handler := h' } .lost, .reportDown (.transport t), ?_, ⟨rfl, rfl, rfl, rfl, rfl⟩, rfl, .inr ⟨_, rfl⟩⟩
    have refused : Run.step (watcherAction k w) false k ⟨P, m, .acting a⟩ =
        some ({ k with handler := h' }, .done (.error (.transport t))) := hrun
    simp [WatchPhase.step, hst, refused]

/-- A watcher at the start of its attempts can be made to go by any script that its policy grants. -/
theorem path_of_scripted_recovery {es : List TransportError} {ds : List Span} {o : Except TransportError Unit}
    (h : Tends P i (.recovering ⟨P, 1, .acting (.opening .start)⟩) k)
    (hd : P.delays? 1 (es.map .transport) = some ds)
    (hfin : ∀ t, o = .error t → P.transient (.transport t) = false ∨
      P.decision (1 + es.length) (.transport t) = .stop) :
    ∃ l k', PathIn (Tended P i) k l k' ∧ k'.watcherEnded i = true ∧
      outcomes (marks (.watcher i) l) = o.mapError .transport :: (es.map fun t => .error (.transport t)).reverse ∧
      k'.handler.now = Policy.afterDelays ds k.handler.now := by
  obtain ⟨w, hw, hwp, hst⟩ := h.watcher
  have hpur : k.Pursuing (.watcher i) ⟨P, min 1 maxAttempt, .acting (.opening .start)⟩ :=
    pursuing_of_watcher hw hwp hst
  obtain ⟨l, k₁, x, a, h', hp, hx, hact, hnow, hal, ho⟩ := path_of_script h.reachable hpur hd o
  have hp := hp.mono fun _ hu => Undisturbed.tended hu h.policy h.lifetime
  rcases working?_cases hx with ⟨_, _, he, -⟩ | ⟨j, w₁, he, hw₁, hwp₁, hst₁, rfl⟩
  · cases he
  · cases he
    have ho₁ : Tends P i _ k₁ := {
      policy := hal.policy.trans h.policy
      lifetime := hal.lifetimeOver.trans h.lifetime
      reachable := hp.path.reachable h.reachable
      post := ⟨_, (getElem?_posts hw₁).trans (by rw [hwp₁])⟩
      inside := rfl }
    obtain ⟨k₂, ph', hs, hal₂, hh₂, hph'⟩ := WatchPhase.step_last (p := .watcher i) hst₁ hact
      fun t ht => by simpa [Policy.decision] using hfin t ht
    have hin : ph'.stance = .inside := by
      rcases hph' with rfl | ⟨_, rfl⟩ <;> rfl
    obtain ⟨k₃, he, hk₃, hh₃⟩ := ho₁.next hw₁ hwp₁ hs hal₂ hin
    have hend : ComesToEnd P i k₃ := by
      rcases hph' with rfl | ⟨_, rfl⟩
      · exact comesToEnd_of_raiseLink hk₃
      · exact comesToEnd_of_reportDown hk₃
    obtain ⟨l', k', hp', hend, hnow', hm⟩ := hend
    refine ⟨_, k', (hp.tail ho₁.tended he).trans hp', hend, ?_, ?_⟩
    · have hlast : mark? (.watcher i) (k₁, .stepWatcher i) = _ := mark?_of_end hx hact
      rw [marks_append, hm, marks_cons, hlast]
      exact congrArg (_ :: ·) ho
    · rw [hnow', hh₃, hh₂, hnow]

/-- A watcher that waits for a time begins the first attempt as soon as it has come. -/
theorem path_of_pause {t : Nat} (h : Tends P i (.pausing P (k.handler.now + t)) k) :
    ∃ l k', PathIn (Tended P i) k l k' ∧ Tends P i (.recovering ⟨P, 1, .acting (.opening .start)⟩) k' ∧
      k'.handler.now = k.handler.now + t ∧ marks (.watcher i) l = [] := by
  obtain ⟨he, h₁⟩ := h.pass t
  obtain ⟨w, hw, hwp, hst⟩ := h₁.watcher
  have hs : (WatchPhase.pausing P (k.handler.now + t)).step (.watcher i) (k.setTime (k.handler.now + t)) w =
      some (k.setTime (k.handler.now + t), .recovering ⟨P, 1, .acting (.opening .start)⟩) := by
    simp only [WatchPhase.step, hst]
    simp [setTime]
    rfl
  obtain ⟨k₂, he₂, h₂, hh₂⟩ := h₁.next hw hwp hs (.refl _) rfl
  refine ⟨_, k₂, ((PathIn.refl _ k).tail h.tended he).tail h₁.tended he₂, h₂, congrArg Handler.now hh₂, ?_⟩
  rw [marks_cons, mark?_of_watching hw (by simp [hwp]), marks_cons, mark?_of_ne (by simp [Happening.party?])]
  rfl

/-- A watcher that was granted a first attempt comes to make it as soon as the delay is over. -/
theorem path_of_announce {d : Span} (h : Tends P i (.announce P d) k) :
    ∃ l k', PathIn (Tended P i) k l k' ∧ Tends P i (.recovering ⟨P, 1, .acting (.opening .start)⟩) k' ∧
      k'.handler.now = d.deadline k.handler.now ∧ marks (.watcher i) l = [] := by
  obtain ⟨w, hw, hwp, -⟩ := h.watcher
  have hp : ∀ {k₁}, k.after (.stepWatcher i) = some k₁ → PathIn (Tended P i) k [(k, .stepWatcher i)] k₁ :=
    fun he => (PathIn.refl _ k).tail h.tended he
  have hm : marks (.watcher i) [(k, .stepWatcher i)] = [] := by
    rw [marks_cons, mark?_of_watching hw (by simp [hwp])]
    rfl
  cases hz : d.isZero with
  | true =>
    have hs : (WatchPhase.announce P d).step (.watcher i) k w = some (k.report .retrying .communicationError,
        .recovering ⟨P, 1, .acting (.opening .start)⟩) := by
      simp only [WatchPhase.step, hz]
      rfl
    obtain ⟨k₁, he, h₁, hh⟩ := h.next hw hwp hs ⟨rfl, rfl, rfl, rfl, rfl⟩ rfl
    refine ⟨_, k₁, hp he, h₁, ?_, hm⟩
    rw [hh, d.deadline_of_isZero hz]
    rfl
  | false =>
    have hs : (WatchPhase.announce P d).step (.watcher i) k w = some (k.report .retrying .communicationError,
        .pausing P (d.deadline k.handler.now)) := by
      simp only [WatchPhase.step, hz]
      rfl
    obtain ⟨k₁, he, h₁, hh⟩ := h.next hw hwp hs ⟨rfl, rfl, rfl, rfl, rfl⟩ rfl
    have hnow : k₁.handler.now = k.handler.now := by
      rw [hh]
      rfl
    obtain ⟨t, ht⟩ := Nat.exists_eq_add_of_le (d.le_deadline k.handler.now)
    rw [ht, ← hnow] at h₁
    obtain ⟨l, k₂, hp', h₂, hnow', hm'⟩ := path_of_pause h₁
    refine ⟨_, k₂, (hp he).trans hp', h₂, hnow'.trans (by rw [hnow, ht]), ?_⟩
    rw [marks_append, hm', hm]
    rfl

/-- When the policy grants a first attempt, the watcher comes to make it as soon as the delay is over. -/
theorem path_of_granted {d : Span} (h : Tends P i (.decide cause) k)
    (hd : P.decide 0 (lossError cause) = .retry d) :
    ∃ l k', PathIn (Tended P i) k l k' ∧ Tends P i (.recovering ⟨P, 1, .acting (.opening .start)⟩) k' ∧
      k'.handler.now = d.deadline k.handler.now ∧ marks (.watcher i) l = [] := by
  obtain ⟨w, hw, hwp, -⟩ := h.watcher
  have hs : (WatchPhase.decide cause).step (.watcher i) k w = some (k, .announce P d) := by
    simp [WatchPhase.step, h.policy, hd]
  obtain ⟨k₁, he, h₁, hh⟩ := h.next hw hwp hs (.refl k) rfl
  obtain ⟨l, k₂, hp, h₂, hnow, hm⟩ := path_of_announce h₁
  refine ⟨_, k₂, ((PathIn.refl _ k).tail h.tended he).trans hp, h₂, by rw [hnow, hh], ?_⟩
  rw [marks_append, hm, marks_cons, mark?_of_watching hw (by simp [hwp])]
  rfl

/-! ## The law -/

/-- Where the link stands after a recovery. -/
def restoredLink : Except ClientError Unit → LinkState
  | .ok _ => .connected
  | .error _ => .lost

/-- What a recovery has done that ended with an outcome, after failures that were granted a retry each. -/
structure Restored (P : Policy) (cause : CloseCause) (k₀ : Kernel) (ms : List Mark) (failures : List ClientError)
    (delay : Span) (delays : List Span) (r : Except ClientError Unit) (k : Kernel) : Prop where
  /-- The loss and all failures but a last one are followed by the delays that the policy decided on. -/
  delays : P.delays? 0 (lossError cause :: failures) = some (delay :: delays)
  /-- The delay after the loss begins after it, and no attempt began before this delay, or the one after the attempt
  before it, was over. -/
  series : ∃ since, k₀.handler.now ≤ since ∧ P.SeriesFrom 1 (delay.deadline since) ms failures.length (.settled r)
  outcomes : outcomes ms = r :: (failures.map .error).reverse
  attempts : attempts ms = failures.length + 1
  /-- A failure that was not granted a retry was not transient, or the policy says that it is enough. -/
  final : ∀ e, r = .error e → e.transient = false ∨ P.decision (failures.length + 1) e = .stop
  reports : k.handler.wire.reports = finalStatus r :: retrying :: k₀.handler.wire.reports
  link : k.link = restoredLink r
  features : k.features = k₀.features

theorem Tried.restored (hP : P.transient = ClientError.transient) {r : Except ClientError Unit}
    (h : Tried P cause k₀ ms n (.settled r) [finalStatus r, retrying] (restoredLink r) k) :
    ∃ failures delay delays, Restored P cause k₀ ms failures delay delays r k := by
  obtain ⟨⟨d, since, hd, hsince, hs⟩, hsh⟩ := h
  obtain ⟨_, -, hser⟩ := id hs
  obtain ⟨es, ds, hds, rfl, hout⟩ := hser.granted
  refine ⟨es, d, ds, ?_, ⟨since, hsince, hs⟩, hout, hser.attempts_eq, ?_, hsh.reports, hsh.link, hsh.features⟩
  · have ht : P.transient (lossError cause) = true := by rw [hP]; rfl
    have hdec : P.decision 0 (lossError cause) = .retry d := hd
    simp [Policy.delays?, ht, hdec, hds]
  · rintro e rfl
    have hf := hser.final
    rwa [hP, Nat.add_comm] at hf

/-- What a recovery has done up to now: nothing but to decide, when the policy does not grant a first attempt;
otherwise it has reported that the connection is being restored before it made any. -/
theorem Mends.sofar (h : Mends P cause k₀ i ms k) :
    (P.decide 0 (lossError cause) = .stop → ms = [] ∧ k.handler.wire.control = k₀.handler.wire.control) ∧
    (ms ≠ [] → ∃ new, k.handler.wire.reports = new ++ retrying :: k₀.handler.wire.reports) := by
  obtain ⟨s, ph, -, hk⟩ := h.post
  have untried : ∀ {said link}, Untried k₀ ms said link k →
      (P.decide 0 (lossError cause) = .stop → ms = [] ∧ k.handler.wire.control = k₀.handler.wire.control) ∧
      (ms ≠ [] → ∃ new, k.handler.wire.reports = new ++ retrying :: k₀.handler.wire.reports) :=
    fun hu => ⟨fun _ => ⟨hu.none, hu.control⟩, fun hne => absurd hu.none hne⟩
  have tried : ∀ {n std link} said, Tried P cause k₀ ms n std (said ++ [retrying]) link k →
      (P.decide 0 (lossError cause) = .stop → ms = [] ∧ k.handler.wire.control = k₀.handler.wire.control) ∧
      (ms ≠ [] → ∃ new, k.handler.wire.reports = new ++ retrying :: k₀.handler.wire.reports) := by
    intro n std link said ht
    obtain ⟨⟨d, _, hd, -⟩, hsh⟩ := ht
    refine ⟨fun hstop => ?_, fun _ => ⟨said, ?_⟩⟩
    · rw [hd] at hstop
      cases hstop
    · rw [hsh.reports, List.append_assoc]
      rfl
  cases ph with
  | watching | askGate | awaitGate | lowerLink => exact hk.elim
  | decide | giveUp => exact untried hk.2
  | announce | pausing => exact untried hk.2.2
  | recovering run =>
    obtain ⟨n, std, ht, -⟩ := hk
    exact tried [] ht
  | raiseLink | startWatcher | reportUp | reportDown =>
    obtain ⟨n, ht⟩ := hk
    exact tried [] ht
  | ended exit =>
    cases exit with
    | closedByClient => exact hk.elim
    | retryExpired => exact untried hk.2
    | recovered =>
      obtain ⟨n, ht⟩ := hk
      exact tried [_] ht
    | failed =>
      obtain ⟨n, e, ht⟩ := hk
      exact tried [_] ht

/-- A recovery that was not begun: the policy grants no first attempt. -/
structure Declined (P : Policy) (cause : CloseCause) (k₀ : Kernel) (ms : List Mark) (k : Kernel) : Prop where
  stop : P.decide 0 (lossError cause) = .stop
  none : ms = []
  reports : k.handler.wire.reports = expired :: k₀.handler.wire.reports
  link : k.link = .lost
  features : k.features = k₀.features

/-- How a recovery ends. -/
theorem Mends.ended (hP : P.transient = ClientError.transient) (h : Mends P cause k₀ i ms k)
    (hend : k.watcherEnded i = true) :
    Declined P cause k₀ ms k ∨ ∃ failures delay delays r, Restored P cause k₀ ms failures delay delays r k := by
  obtain ⟨s, ph, hp, hk⟩ := h.post
  rw [watcherEnded_eq, hp] at hend
  cases ph with
  | ended exit =>
    cases exit with
    | closedByClient => exact hk.elim
    | retryExpired =>
      obtain ⟨hd, hu⟩ := hk
      exact .inl ⟨hd, hu.none, hu.shows.reports, hu.shows.link, hu.shows.features⟩
    | recovered =>
      obtain ⟨n, ht⟩ := hk
      obtain ⟨es, d, ds, hr⟩ := Tried.restored (r := .ok ()) hP ht
      exact .inr ⟨es, d, ds, _, hr⟩
    | failed =>
      obtain ⟨n, e, ht⟩ := hk
      obtain ⟨es, d, ds, hr⟩ := Tried.restored (r := .error e) hP ht
      exact .inr ⟨es, d, ds, _, hr⟩
  | _ => cases hend

/-- With a limit on the number of retries, a recovery that fails with transient failures only uses it up. -/
theorem Mends.attempts_of_limit (hP : P.transient = ClientError.transient) (h : Mends P cause k₀ i ms k)
    (hend : k.watcherEnded i = true) {N : Nat} (hN : N ≤ maxAttempt)
    (hd : ∀ m e, P.decide m e = .stop ↔ N ≤ m)
    (ht : ∀ r ∈ outcomes ms, ∃ e, r = .error e ∧ e.transient = true) : attempts ms = N := by
  rcases h.ended hP hend with hdec | ⟨es, d, ds, r, hres⟩
  · have hle := (hd 0 _).mp hdec.stop
    rw [hdec.none]
    exact (Nat.le_zero.mp hle).symm
  · obtain ⟨e, rfl, he⟩ := ht r (hres.outcomes ▸ List.mem_cons_self)
    obtain ⟨_, -, since, -, hser⟩ := hres.series
    have hpos : 1 ≤ N := by
      refine Nat.pos_of_ne_zero fun hz => ?_
      have hstop := (hd 0 (lossError cause)).mpr (Nat.le_of_eq hz)
      have hgranted := hres.delays
      simp [Policy.delays?, Policy.decision, hstop] at hgranted
    have hlim := hser.attempts_of_limit hN hd hpos (by rw [hP]; exact he)
    omega

/-- What is true of every course of a recovery. -/
structure Abides (P : Policy) (cause : CloseCause) (k₀ : Kernel) (i : Nat) (ms : List Mark) (k : Kernel) :
    Prop where
  /-- Without a first attempt nothing is asked of the transport; no session is created. -/
  declined : P.decide 0 (lossError cause) = .stop → ms = [] ∧
    k.handler.wire.control = k₀.handler.wire.control ∧
    k.handler.wire.sessions.length = k₀.handler.wire.sessions.length
  /-- Before any attempt it was reported that the connection is being restored. -/
  announced : ms ≠ [] → ∃ new, k.handler.wire.reports = new ++ retrying :: k₀.handler.wire.reports
  ended : k.watcherEnded i = true →
    Declined P cause k₀ ms k ∨ ∃ failures delay delays r, Restored P cause k₀ ms failures delay delays r k
  limited : k.watcherEnded i = true → ∀ N ≤ maxAttempt, (∀ m e, P.decide m e = .stop ↔ N ≤ m) →
    (∀ r ∈ outcomes ms, ∃ e, r = .error e ∧ e.transient = true) → attempts ms = N
  /-- A connection that was given up stays so until somebody opens it. -/
  rests : k.watcherEnded i = true → k.link = .lost → ∀ l k', Path k l k' →
    (∀ x ∈ l, x.1.lifetimeOver = false ∧ ¬ BeginsOpen x) → k.Rests k'

theorem Mends.abides (hP : P.transient = ClientError.transient) (hr₀ : k₀.Reachable) (hr : k.Reachable)
    (h : Mends P cause k₀ i ms k) : Abides P cause k₀ i ms k where
  declined hd := by
    obtain ⟨hm, hc⟩ := h.sofar.1 hd
    exact ⟨hm, hc, (chronicled_of_reachable hr₀).length_eq (chronicled_of_reachable hr) hc⟩
  announced := h.sofar.2
  ended := h.ended hP
  limited hend _ hN hd ht := h.attempts_of_limit hP hend hN hd ht
  rests hend hl _ _ hp hx := (dormant_of_path hr (dormant_of_outside hr hl (h.outside hend)) hp
    (fun x hm => (hx x hm).1) fun x hm => (hx x hm).2).2

/-- A recovery can be made to go by any script that the policy grants, and takes no longer than the delays. -/
theorem path_of_decide {es : List TransportError} {ds : List Span} {o : Except TransportError Unit}
    (h : Tends P i (.decide cause) k) (hd : P.delays? 0 (lossError cause :: es.map .transport) = some ds)
    (hfin : ∀ t, o = .error t → P.transient (.transport t) = false ∨
      P.decision (es.length + 1) (.transport t) = .stop) :
    ∃ l k', PathIn (Tended P i) k l k' ∧ k'.watcherEnded i = true ∧
      outcomes (marks (.watcher i) l) = o.mapError .transport :: (es.map fun t => .error (.transport t)).reverse ∧
      k'.handler.now = Policy.afterDelays ds k.handler.now := by
  simp only [Policy.delays?] at hd
  split at hd
  · split at hd
    · cases hd
    · rename_i d hdec
      obtain ⟨ds', hds, rfl⟩ := Option.map_eq_some_iff.mp hd
      obtain ⟨l, k₁, hp, h₁, hnow, hm⟩ := path_of_granted h hdec
      obtain ⟨l', k', hp', hend, ho, hnow'⟩ := path_of_scripted_recovery h₁ hds
        fun t ht => Nat.add_comm es.length 1 ▸ hfin t ht
      refine ⟨l' ++ l, k', hp.trans hp', hend, ?_, ?_⟩
      · rw [marks_append, hm, List.append_nil, ho]
      · rw [hnow', hnow, Policy.afterDelays_cons]
  · cases hd

/-- The law of recovery. When the session of a link that is up has ended, and nobody is at work on it, the link
is interrupted. From then on, if the client is not closed or dropped or given another policy, whatever else
happens: `Abides` says what the recovery does. When the policy grants no first attempt, there is a run on which
it ends; and for every script of failures that are granted a retry, and a last attempt that succeeds or is not
granted a retry, there is a run on which its attempts end so and take no more time than the delays after the
loss and between them. -/
theorem recovery_law (hP : P.transient = ClientError.transient) (hr : k.Reachable) :
    (∀ s cause, k.link = .connected → k.gate.holder = none → k.lifetimeOver = false → k.handler.slot = some s →
      k.handler.wire.cause? s = some cause → ∃ i l k₁ k₀, Path k l k₁ ∧ k₁.Interrupts (.stepWatcher i) k₀ ∧
        k₀.handler = k.handler ∧ k₀.policy = k.policy ∧ k₀.lifetimeOver = false) ∧
    ∀ e k₀, k.Interrupts e k₀ → k₀.policy = P → k₀.lifetimeOver = false →
      ∃ i cause, e = .stepWatcher i ∧ Begun k i cause k₀ ∧
        (∀ l k', PathIn (Tended P i) k₀ l k' → Abides P cause k₀ i (marks (.watcher i) l) k') ∧
        (P.decide 0 (lossError cause) = .stop →
          ∃ l k', PathIn (Tended P i) k₀ l k' ∧ k'.watcherEnded i = true) ∧
        ∀ (failures : List TransportError) (delays : List Span) (last : Except TransportError Unit),
          P.delays? 0 (lossError cause :: failures.map .transport) = some delays →
          (∀ t, last = .error t → P.transient (.transport t) = false ∨
            P.decision (failures.length + 1) (.transport t) = .stop) →
          ∃ l k', PathIn (Tended P i) k₀ l k' ∧ k'.watcherEnded i = true ∧
            outcomes (marks (.watcher i) l) =
              last.mapError .transport :: (failures.map fun t => .error (.transport t)).reverse ∧
            k'.handler.now = Policy.afterDelays delays k₀.handler.now := by
  refine ⟨fun s cause hl hf hlife hs hc => interrupts_of_loss hr hl hf hlife hs hc, fun e k₀ hint hp hlife => ?_⟩
  obtain ⟨i, cause, he, hb⟩ := begun_of_interrupts hr hint
  have hr₀ := hr.after hint.1
  have htends : Tends P i (.decide cause) k₀ := by
    obtain ⟨s, hpost⟩ := hb.post
    exact ⟨hp, hlife, hr₀, ⟨_, hpost⟩, rfl⟩
  refine ⟨i, cause, he, hb, fun l k' hpath => ?_, fun hd => ?_, fun _ _ _ hd hfin => path_of_decide htends hd hfin⟩
  · exact (mends_of_path hP hr₀ (hb.mends hr₀) hpath).abides hP hr₀ (hpath.path.reachable hr₀)
  · obtain ⟨l, k', hpath, hend, -⟩ := comesToEnd_of_decide htends hd
    exact ⟨l, k', hpath, hend⟩

/-- The session of a first connection ends, and its watcher comes to lower the link. -/
def firstLoss : List Happening :=
  firstOpening ++ [Happening.endSession 0 (.remote "reset")] ++ List.replicate 3 (Happening.stepWatcher 0)

/-- With the standard policy the loss of a first connection can be followed by a failed attempt after 100 ms,
and one that succeeds after 200 ms more. -/
theorem recovery_law_firstLoss :
    ∃ k k₀ l k', (initial none .standard).course firstLoss = some k ∧ k.Interrupts (.stepWatcher 0) k₀ ∧
      PathIn (Tended .standard 0) k₀ l k' ∧ k'.watcherEnded 0 = true ∧ attempts (marks (.watcher 0) l) = 2 ∧
      k'.handler.now = k₀.handler.now + 300 ∧ k'.link = .connected ∧
      k'.handler.wire.reports = ⟨.connected, .connectionOk⟩ :: retrying :: k₀.handler.wire.reports := by
  have hc : ∃ k, (initial none .standard).course firstLoss = some k ∧ k.link = .connected ∧
      ∃ k₀, k.after (.stepWatcher 0) = some k₀ ∧ k₀.link = .reconnecting ∧ k₀.policy = .standard ∧
        k₀.lifetimeOver = false ∧ k₀.handler.now = 0 := ⟨_, rfl, rfl, _, rfl, rfl, rfl, rfl, rfl⟩
  obtain ⟨k, hc, hl, k₀, he, hl₀, hp, hlife, hzero⟩ := hc
  have hint : k.Interrupts (.stepWatcher 0) k₀ := ⟨he, hl, hl₀⟩
  have law := (recovery_law (P := .standard) rfl ⟨none, .standard, reaches_of_course hc⟩).2 _ _ hint hp hlife
  obtain ⟨i, cause, hi, -, habides, -, hscript⟩ := law
  cases hi
  obtain ⟨l, k', hpath, hend, hout, hnow⟩ := hscript [.network "down"] [.ofMillis 100, .ofMillis 200] (.ok ()) rfl
    fun _ h => by cases h
  have hpassed : Policy.afterDelays [.ofMillis 100, .ofMillis 200] k₀.handler.now = k₀.handler.now + 300 := by
    rw [hzero]
    decide
  refine ⟨k, k₀, l, k', hc, hint, hpath, hend, ?_⟩
  rcases (habides l k' hpath).ended hend with hdec | ⟨es, d, ds, r, hres⟩
  · rw [hdec.none] at hout
    cases hout
  · obtain ⟨rfl, hes⟩ := List.cons.inj (hres.outcomes.symm.trans hout)
    have hlen : es.length = 1 := by simpa using congrArg List.length hes
    exact ⟨hres.attempts.trans (by rw [hlen]), hnow.trans hpassed, hres.link, hres.reports⟩

end HubDevice.Kernel
