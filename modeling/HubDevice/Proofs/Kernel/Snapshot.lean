import HubDevice.Proofs.Kernel.Reports
import HubDevice.Proofs.Kernel.Attempts
import HubDevice.Proofs.Kernel.Twins

/-!
# What a party makes of the policy that it took

An open call takes the policy when its attempts begin, a watcher when it decides whether to make any. From then
on all that it does follows from this policy and from what it meets on its way: the time, whether it has to
stop, and how its attempts end (`Encounter`). `OpenPhase.next` and `WatchPhase.next` compute it, over outlines
of the phases that leave out what an attempt has come to; neither asks for the policy in force. The one thing
that does is which status a failure is reported as.
-/

namespace HubDevice.Kernel

open Retry Wire

variable {p : Party} {k k' : Kernel} {e : Happening} {l : List (Kernel × Happening)}

/-! ## Outlines -/

/-- What a party meets in a step: the time, whether everything is over, whether it has to stop, and how the
attempt on its way ends in this step, if it does. -/
structure Encounter where
  now : Nat
  lifetimeOver : Bool
  stop : Bool
  ended : Option (Except ClientError Unit)

/-- An attempt of which no more is known than whether it has yet to begin. -/
def Recovery.outline (a : Recovery) : Recovery := if a.isStart then .opening .start else .replaying []

/-- A run of which no more is known of the attempt on its way than whether it has yet to begin. -/
def outline (run : Run Recovery) : Run Recovery :=
  { run with phase := match run.phase with
      | .acting a => .acting a.outline
      | .pausing t => .pausing t }

/-- An attempt that does what is met. -/
def echo : Action Encounter Recovery Unit where
  start := .opening .start
  step m _ := some (m, match m.ended with
    | none => .more (.replaying [])
    | some r => .done r)
  abandon m _ := m
  granted m _ _ _ := m
  now m := m.now

/-- How the attempt on its way ends in the next step of a run, if it does. -/
def ending (x : Action Kernel Recovery Unit) (k : Kernel) (run : Run Recovery) :
    Option (Except ClientError Unit) :=
  match run.phase with
  | .acting a => match x.step k a with
    | some (_, .done r) => some r
    | _ => none
  | .pausing _ => none

variable {x : Action Kernel Recovery Unit} {run : Run Recovery} {c : Bool} {m : Encounter}
  {q : Progress (Run Recovery) (Except ClientError Unit)}

theorem ending_of_done {a : Recovery} {r : Except ClientError Unit} (hp : run.phase = .acting a)
    (hs : x.step k a = some (k', .done r)) : ending x k run = some r := by
  simp only [ending, hp, hs]

theorem ending_of_more {a a' : Recovery} (hp : run.phase = .acting a) (hs : x.step k a = some (k', .more a')) :
    ending x k run = none := by
  simp only [ending, hp, hs]

/-- The outline of a run takes the same step over what the run meets. -/
theorem outline_step (hx : Run.Timed x Recovery.isStart) (hstart : x.start = .opening .start)
    (hnow : m.now = x.now k) (hended : m.ended = ending x k run) (h : run.step x c k = some (k', q)) :
    (outline run).step echo c m = some (m, q.map outline) := by
  obtain ⟨P, n, ph⟩ := run
  cases c with
  | true =>
    cases ph <;> cases h <;> rfl
  | false =>
    cases Run.turn_of_step h with
    | cancelledActing hc | cancelledPausing hc => cases hc
    | advanced hp hs =>
      cases hp
      have hm : m.ended = none := hended.trans (ending_of_more rfl hs)
      simp [outline, Run.step, echo, hm, Progress.map, Recovery.outline, hx.more hs]
    | succeeded _ hp hs =>
      cases hp
      have hm := hended.trans (ending_of_done rfl hs)
      simp [outline, Run.step, echo, hm, Progress.map]
    | failed hp hs hfin =>
      cases hp
      have hm := hended.trans (ending_of_done rfl hs)
      simp only [outline, Run.step, echo, hm, Run.afterFailure, Progress.map]
      rcases hfin with rfl | ht | hd
      · simp
      · have ht : P.transient _ = false := ht
        simp [ht]
      · have hd : P.decide n _ = .stop := hd
        simp [hd]
    | @retried _ e k₁ delay hp hs hne ht hd =>
      cases hp
      have hm := hended.trans (ending_of_done rfl hs)
      have ht : P.transient e = true := ht
      have hd : P.decide n e = .retry delay := hd
      have hpause : x.now (x.granted k₁ e n delay) = m.now :=
        (hx.granted k₁ e n delay).trans ((hx.now hs).trans hnow.symm)
      simp only [outline, Run.step, echo, hm, Run.afterFailure, Progress.map, Run.awaiting, hpause, hne, ht, hd]
      by_cases hz : delay.isZero
      · simp [hz, hstart, Recovery.outline, Recovery.isStart]
      · simp [hz]
    | resumed hp hle =>
      cases hp
      simp [outline, Run.step, echo, hnow, hle, Progress.map, hstart, Recovery.outline, Recovery.isStart]

/-! ## Phases -/

def OpenPhase.outline : OpenPhase → OpenPhase
  | .working run => .working (Kernel.outline run)
  | ph => ph

def WatchPhase.outline : WatchPhase → WatchPhase
  | .recovering run => .recovering (Kernel.outline run)
  | ph => ph

/-- Where a watcher stands after a turn of its attempts. -/
def WatchPhase.afterTurn : Progress (Run Recovery) (Except ClientError Unit) → WatchPhase
  | .more run => .recovering run
  | .done (.ok ()) => .raiseLink
  | .done (.error .cancelled) => .ended .closedByClient
  | .done (.error e) => .reportDown e

/-- What an open call that has taken its policy makes of what it meets. -/
def OpenPhase.next (m : Encounter) : OpenPhase → Progress OpenPhase (Except ClientError Unit)
  | .working run =>
    if m.lifetimeOver then .more (.conclude (.error .disposed))
    else match run.step echo m.stop m with
      | none => .more (.working run)
      | some (_, q) => .more (afterTurn q)
  | .raiseLink => .more .startWatcher
  | .startWatcher => .more .reportUp
  | .reportUp => .more (.conclude (.ok ()))
  | .reportDown e => .more (.conclude (.error e))
  | .conclude r => .done r
  | ph => .more ph

/-- What a watcher that has taken its policy makes of what it meets. -/
def WatchPhase.next (m : Encounter) : WatchPhase → WatchPhase
  | .announce policy delay =>
    if delay.isZero then .recovering (.ofPolicy echo policy 1) else .pausing policy (delay.deadline m.now)
  | .pausing policy _ => if m.stop then .ended .closedByClient else .recovering (.ofPolicy echo policy 1)
  | .recovering run => match run.step echo m.stop m with
    | none => .recovering run
    | some (_, q) => afterTurn q
  | .giveUp => .ended .retryExpired
  | .raiseLink => .startWatcher
  | .startWatcher => .reportUp
  | .reportUp => .ended .recovered
  | .reportDown _ => .ended .failed
  | ph => ph

/-- The phases in which a watcher has taken its policy. -/
def WatchPhase.Bound : WatchPhase → Prop
  | .watching | .askGate _ | .awaitGate _ | .lowerLink _ | .decide _ => False
  | _ => True

theorem timed_openAction (k : Kernel) (token : Nat) : Run.Timed (openAction k token) Recovery.isStart :=
  timed_recovery fun _ _ => rfl

theorem timed_watcherAction (k : Kernel) (w : Watcher) : Run.Timed (watcherAction k w) Recovery.isStart :=
  timed_recovery fun _ _ => rfl

theorem OpenPhase.outline_afterTurn (q : Progress (Run Recovery) (Except ClientError Unit)) :
    (afterTurn q).outline = afterTurn (q.map Kernel.outline) := by
  rcases q with run | (e | v)
  · rfl
  · cases e <;> rfl
  · rfl

theorem WatchPhase.outline_afterTurn (q : Progress (Run Recovery) (Except ClientError Unit)) :
    (afterTurn q).outline = afterTurn (q.map Kernel.outline) := by
  rcases q with run | (e | v)
  · rfl
  · cases e <;> rfl
  · rfl

theorem OpenPhase.works_afterTurn (q : Progress (Run Recovery) (Except ClientError Unit)) :
    (afterTurn q).Works := by
  rcases q with run | (e | v)
  · trivial
  · cases e <;> trivial
  · trivial

theorem WatchPhase.bound_afterTurn (q : Progress (Run Recovery) (Except ClientError Unit)) :
    (afterTurn q).Bound := by
  rcases q with run | (e | v)
  · trivial
  · cases e <;> trivial
  · trivial

theorem OpenPhase.works_outline (ph : OpenPhase) : ph.outline.Works ↔ ph.Works := by
  cases ph <;> exact Iff.rfl

theorem WatchPhase.bound_outline (ph : WatchPhase) : ph.outline.Bound ↔ ph.Bound := by
  cases ph <;> exact Iff.rfl

theorem OpenPhase.worked_of_step {token : Nat} {pr : Progress OpenPhase (Except ClientError Unit)}
    (ho : k.lifetimeOver = false) (h : (working run).step token p k = some (k', pr)) :
    ∃ q, run.step (openAction k token) (k.tokenFired token) k = some (k', q) ∧ pr = .more (afterTurn q) := by
  simp only [OpenPhase.step, ho, Bool.false_eq_true, if_false] at h
  split at h <;> cases h <;> rename_i hs <;> refine ⟨_, hs, ?_⟩ <;> try rfl
  rename_i e hne
  cases e <;> first | rfl | exact absurd rfl hne

theorem WatchPhase.worked_of_step {w : Watcher} {ph : WatchPhase}
    (h : (recovering run).step p k w = some (k', ph)) :
    ∃ k₁ q, run.step (watcherAction k w) (k.watcherStopped w) k = some (k₁, q) ∧ ph = afterTurn q ∧
      k'.handler = k₁.handler := by
  simp only [WatchPhase.step] at h
  split at h
  · cases h
  all_goals rename_i hs
  · cases h
    exact ⟨_, _, hs, rfl, rfl⟩
  · have hst : k.watcherStopped w = false := by
      cases Run.turn_of_step hs with
      | succeeded hc => exact hc
    obtain ⟨handler, rfl⟩ := handler_of_turn (Run.turn_of_step hs)
    rw [if_neg (by simp [watcherStopped, Bool.or_eq_false_iff.mp hst])] at h
    cases h
    exact ⟨_, _, hs, rfl, rfl⟩
  · cases h
    exact ⟨_, _, hs, rfl, rfl⟩
  · rename_i e hne
    cases h
    refine ⟨_, _, hs, ?_, rfl⟩
    cases e <;> first | rfl | exact absurd rfl hne

theorem OpenPhase.outline_step {token : Nat} {ph : OpenPhase}
    {pr : Progress OpenPhase (Except ClientError Unit)} (hw : ph.Works) (hnow : m.now = k.handler.now)
    (hover : m.lifetimeOver = k.lifetimeOver) (hstop : m.stop = k.tokenFired token)
    (hended : ∀ run, ph = .working run → m.ended = ending (openAction k token) k run)
    (h : ph.step token p k = some (k', pr)) :
    ph.outline.next m = pr.map OpenPhase.outline ∧ pr.Leaves OpenPhase.Works True True := by
  cases ph with
  | working run =>
    cases ho : k.lifetimeOver with
    | true =>
      simp only [OpenPhase.step, ho, if_true] at h
      cases h
      simp [OpenPhase.outline, OpenPhase.next, hover, ho, Progress.map, Progress.Leaves, Works]
    | false =>
      obtain ⟨q, hs, rfl⟩ := worked_of_step ho h
      have hout := Kernel.outline_step (timed_openAction k token) rfl hnow (hended run rfl) hs
      refine ⟨?_, works_afterTurn q⟩
      show (working (Kernel.outline run)).next m = .more (afterTurn q).outline
      rw [outline_afterTurn]
      simp [OpenPhase.next, hover, ho, hstop, hout]
  | raiseLink | startWatcher | reportUp | reportDown =>
    cases h
    exact ⟨rfl, trivial⟩
  | conclude r =>
    cases h
    cases r <;> exact ⟨rfl, trivial⟩
  | _ => exact hw.elim

theorem WatchPhase.outline_step {w : Watcher} {ph ph' : WatchPhase} (hb : ph.Bound)
    (hnow : m.now = k.handler.now) (hstop : m.stop = k.watcherStopped w)
    (hended : ∀ run, ph = .recovering run → m.ended = ending (watcherAction k w) k run)
    (h : ph.step p k w = some (k', ph')) : ph.outline.next m = ph'.outline ∧ ph'.Bound := by
  cases ph with
  | announce policy delay =>
    simp only [WatchPhase.step] at h
    split at h <;> cases h <;> rename_i hz
    · simp only [WatchPhase.outline, WatchPhase.next, hz, if_true]
      exact ⟨rfl, trivial⟩
    · simp only [WatchPhase.outline, WatchPhase.next, hz, hnow]
      exact ⟨rfl, trivial⟩
  | pausing policy deadline =>
    simp only [WatchPhase.step] at h
    split at h
    · rename_i hs
      cases h
      simp [WatchPhase.outline, WatchPhase.next, hstop, hs, Bound]
    · rename_i hs
      split at h <;> cases h
      simp only [WatchPhase.outline, WatchPhase.next, hstop, hs]
      exact ⟨rfl, trivial⟩
  | recovering run =>
    obtain ⟨k₁, q, hs, rfl, -⟩ := worked_of_step h
    have hout := Kernel.outline_step (timed_watcherAction k w) rfl hnow (hended run rfl) hs
    refine ⟨?_, bound_afterTurn q⟩
    show (recovering (Kernel.outline run)).next m = (afterTurn q).outline
    rw [outline_afterTurn]
    simp [WatchPhase.next, hstop, hout]
  | giveUp | raiseLink | startWatcher | reportUp | reportDown =>
    cases h
    exact ⟨rfl, trivial⟩
  | ended exit => cases h
  | _ => exact hb.elim

/-! ## Marks and reports -/

/-- What an attempt that is granted a retry is reported as. -/
def granting (P : Policy) (m : Encounter) (run : Run Recovery) : Option Status :=
  match run.step echo m.stop m with
  | some (_, .more _) => match m.ended with
    | some (.error e) => some (statusOf P e false)
    | _ => none
  | _ => none

/-- What an open call reports of what it meets, when failures are reported as a policy classifies them. -/
def OpenPhase.tells (P : Policy) (m : Encounter) : OpenPhase → Option Status
  | .working run => if m.lifetimeOver then none else granting P m run
  | .reportUp => some ⟨.connected, .connectionOk⟩
  | .reportDown e => some (statusOf P e true)
  | _ => none

/-- What a watcher reports, when failures are reported as a policy classifies them. -/
def WatchPhase.tells (P : Policy) : WatchPhase → Option Status
  | .giveUp => some ⟨.disconnected, .retryExpired⟩
  | .announce _ _ => some retrying
  | .reportUp => some ⟨.connected, .connectionOk⟩
  | .reportDown e => some (statusOf P e true)
  | _ => none

/-- Of a policy only the classification counts. -/
theorem statusOf_congr {P P' : Policy} (h : P.transient = P'.transient) (e : ClientError) (final : Bool) :
    statusOf P e final = statusOf P' e final := by
  unfold statusOf
  rw [h]

theorem OpenPhase.tells_congr {P P' : Policy} (h : P.transient = P'.transient) (ph : OpenPhase) :
    ph.tells P m = ph.tells P' m := by
  cases ph with
  | working run =>
    simp only [tells, granting]
    split
    · rfl
    · split
      · split <;> simp only [statusOf_congr h]
      · rfl
  | reportDown e => simp only [tells, statusOf_congr h]
  | _ => rfl

theorem WatchPhase.tells_congr {P P' : Policy} (h : P.transient = P'.transient) (ph : WatchPhase) :
    ph.tells P = ph.tells P' := by
  cases ph with
  | reportDown e => simp only [tells, statusOf_congr h]
  | _ => rfl

theorem reports_of_abandon (x : Action Kernel Recovery Unit) (run : Run Recovery)
    (hx : ∀ k a, (x.abandon k a).handler.wire.reports = k.handler.wire.reports) :
    (run.abandon x k).handler.wire.reports = k.handler.wire.reports := by
  unfold Run.abandon
  split
  · exact hx k _
  · rfl

theorem reports_abandon (a : Recovery) (h : Handler) : (a.abandon h).wire.reports = h.wire.reports :=
  (a.uses_abandon (A := .nothing) h).touches.reports_eq fun _ => id

/-- A turn of the attempts of an open call reports the failure that it is granted a retry after. -/
theorem reports_of_step {token : Nat} (hnow : m.now = k.handler.now) (hstop : m.stop = c)
    (hended : m.ended = ending (openAction k token) k run)
    (h : run.step (openAction k token) c k = some (k', q)) :
    k'.handler.wire.reports = (granting k.policy m (Kernel.outline run)).toList ++ k.handler.wire.reports := by
  have hout := outline_step (timed_openAction k token) rfl hnow hended h
  have stepped : ∀ {a k₁ pr}, (openAction k token).step k a = some (k₁, pr) →
      k₁.handler.wire.reports = k.handler.wire.reports ∧ k₁.policy = k.policy := by
    intro a k₁ pr hs
    obtain ⟨handler, he, rfl⟩ := liftHandler_eq_some hs
    exact ⟨(Recovery.touches_step he).reports_eq fun _ => id, rfl⟩
  unfold granting
  rw [hstop, hout]
  cases Run.turn_of_step h with
  | @cancelledActing a => exact reports_abandon a k.handler
  | cancelledPausing => rfl
  | succeeded _ _ hs | failed _ hs => exact (stepped hs).1
  | advanced hp hs =>
    rw [hended, ending_of_more hp hs]
    exact (stepped hs).1
  | @retried _ e k₁ _ hp hs =>
    rw [hended, ending_of_done hp hs]
    obtain ⟨hrep, hpol⟩ := stepped hs
    show statusOf k₁.policy e false :: k₁.handler.wire.reports = _
    rw [hrep, hpol]
    rfl
  | resumed hp =>
    have hnone : ending (openAction k token) k run = none := by simp only [ending, hp]
    rw [hended, hnone]
    rfl

theorem OpenPhase.reports_of_step {token : Nat} {ph : OpenPhase}
    {pr : Progress OpenPhase (Except ClientError Unit)} (hw : ph.Works) (hnow : m.now = k.handler.now)
    (hover : m.lifetimeOver = k.lifetimeOver) (hstop : m.stop = k.tokenFired token)
    (hended : ∀ run, ph = .working run → m.ended = ending (openAction k token) k run)
    (h : ph.step token p k = some (k', pr)) :
    k'.handler.wire.reports = (ph.outline.tells k.policy m).toList ++ k.handler.wire.reports := by
  cases ph with
  | working run =>
    show _ = (tells k.policy m (.working (Kernel.outline run))).toList ++ _
    cases ho : k.lifetimeOver with
    | true =>
      simp only [OpenPhase.step, ho, if_true] at h
      cases h
      simp only [tells, hover, ho, if_true]
      exact reports_of_abandon _ run fun k a => reports_abandon a k.handler
    | false =>
      obtain ⟨q, hs, rfl⟩ := worked_of_step ho h
      simp only [tells, hover, ho, Bool.false_eq_true, if_false]
      exact Kernel.reports_of_step hnow hstop (hended run rfl) hs
  | raiseLink | startWatcher | reportUp | reportDown | conclude =>
    cases h
    rfl
  | _ => exact hw.elim

theorem WatchPhase.reports_of_step {w : Watcher} {ph ph' : WatchPhase} (hb : ph.Bound)
    (h : ph.step p k w = some (k', ph')) :
    k'.handler.wire.reports = (ph.outline.tells k.policy).toList ++ k.handler.wire.reports := by
  cases ph with
  | announce policy delay | pausing policy deadline => cases WatchPhase.turn_of_step h <;> rfl
  | recovering run =>
    obtain ⟨k₁, q, hs, -, hh⟩ := worked_of_step h
    rw [hh]
    exact (relays_recovering (Run.turn_of_step hs)).touches.reports_eq fun _ => id
  | giveUp | raiseLink | startWatcher | reportUp | reportDown =>
    cases h
    rfl
  | ended exit => cases h
  | _ => exact hb.elim

/-- What a step notes of an attempt can be read off its outline. -/
theorem mark?_outline (hnow : m.now = x.now k)
    (hended : m.ended = ending x k run) (h : c = true ∨ ∃ k' q, run.step x c k = some (k', q)) :
    run.mark? x Recovery.isStart c k = (outline run).mark? echo Recovery.isStart c m := by
  obtain ⟨P, n, ph⟩ := run
  cases ph with
  | pausing t => rfl
  | acting a =>
    cases c with
    | true => rfl
    | false =>
      obtain ⟨k', q, hs⟩ := h.resolve_left (by simp)
      have hstart : a.outline.isStart = a.isStart := by
        unfold Recovery.outline
        split <;> rename_i ha
        · exact ha.symm
        · exact (eq_false_of_ne_true ha).symm
      simp only [Run.step, Bool.false_eq_true, if_false] at hs
      simp only [Run.mark?, outline, echo, Bool.false_eq_true, if_false, hended]
      split at hs
      · cases hs
      all_goals rename_i hact
      · rw [ending_of_more rfl hact, hact, hnow, hstart]
      all_goals rw [ending_of_done rfl hact, hact, hnow]

/-! ## Postures -/

/-- How far a party has come, in outline. -/
inductive Posture where
  | calling (phase : OpenPhase)
  | returned (result : Except ClientError Reply)
  | watching (phase : WatchPhase)

namespace Posture

/-- The party has taken its policy. -/
def Bound : Posture → Prop
  | .calling ph => ph.Works
  | .returned _ => True
  | .watching ph => ph.Bound

def next (m : Encounter) : Posture → Posture
  | .calling ph => match ph.next m with
    | .more ph => .calling ph
    | .done r => .returned (r.map fun _ => .done)
  | .returned r => .returned r
  | .watching ph => .watching (ph.next m)

/-- The time that a party waits for. -/
def deadline? : Posture → Option Nat
  | .calling (.working ⟨_, _, .pausing t⟩) | .watching (.pausing _ t)
  | .watching (.recovering ⟨_, _, .pausing t⟩) => some t
  | _ => none

/-- How the party has ended. -/
def outcome? : Posture → Option (Except ClientError Reply ⊕ WatcherExit)
  | .returned r => some (.inl r)
  | .watching (.ended exit) => some (.inr exit)
  | _ => none

/-- What is noted of the attempts. -/
def mark? (m : Encounter) : Posture → Option Mark
  | .calling (.working run) => run.mark? echo Recovery.isStart (m.lifetimeOver || m.stop) m
  | .watching (.recovering run) => run.mark? echo Recovery.isStart m.stop m
  | _ => none

/-- How long the party is left waiting. -/
def wait? (m : Encounter) (s : Posture) : Option Nat := (s.next m).deadline?.map (· - m.now)

/-- What the party reports, when failures are reported as a policy classifies them. -/
def tells (P : Policy) (m : Encounter) : Posture → Option Status
  | .calling ph => ph.tells P m
  | .returned _ => none
  | .watching ph => ph.tells P

theorem tells_congr {P P' : Policy} (h : P.transient = P'.transient) (s : Posture) :
    s.tells P m = s.tells P' m := by
  cases s with
  | calling ph => exact OpenPhase.tells_congr h ph
  | returned r => rfl
  | watching ph => exact WatchPhase.tells_congr h ph

end Posture

/-- How far a party has come that opens or watches. -/
def posture? (k : Kernel) : Party → Option Posture
  | .task i => match k.tasks[i]? with
    | some ⟨_, .opening ph⟩ => some (.calling ph.outline)
    | some ⟨_, .ended r⟩ => some (.returned r)
    | _ => none
  | .watcher i => k.posts[i]?.map fun q => .watching q.2.outline

/-- Whether a party has to stop. -/
def stops (k : Kernel) : Party → Bool
  | .task i => (k.tasks[i]?.map fun o => k.tokenFired o.token).getD false
  | .watcher i => (k.watchers[i]?.map k.watcherStopped).getD false

/-- What a party meets in its next step. -/
def encounter (k : Kernel) (p : Party) : Encounter where
  now := k.handler.now
  lifetimeOver := k.lifetimeOver
  stop := k.stops p
  ended := (k.working? p).bind fun w => ending w.2.1 k w.1

variable {s : Posture}

/-- What others do leaves a party where it is. -/
theorem posture_of_ne (ho : k.Orderly) (he : k.after e = some k') (hne : e.party? ≠ some p)
    (hs : k.posture? p = some s) : k'.posture? p = some s := by
  cases p with
  | task i =>
    have ht : k'.tasks[i]? = k.tasks[i]? := by
      rcases tasks_after ho he i with ht | ⟨hn, -⟩ | ⟨_, _, _, rfl, -⟩
      · exact ht
      · simp [posture?, hn] at hs
      · exact absurd rfl hne
    rw [← hs]
    simp only [posture?, ht]
  | watcher i =>
    obtain ⟨q, hq, hs⟩ := Option.map_eq_some_iff.mp hs
    exact Option.map_eq_some_iff.mpr ⟨q, posts_of_ne ho he hne hq, hs⟩

/-- What a party that has taken its policy does in a step: it goes on as that policy and what it meets say, and
reports failures as the policy in force classifies them. -/
structure Onwards (p : Party) (s : Posture) (k k' : Kernel) : Prop where
  posture : k'.posture? p = some (s.next (k.encounter p))
  bound : (s.next (k.encounter p)).Bound
  reports : k'.handler.wire.reports = (s.tells k.policy (k.encounter p)).toList ++ k.handler.wire.reports
  mark : mark? p (k, p.step) = s.mark? (k.encounter p)

theorem onwards_of_opening {i token : Nat} {ph : OpenPhase} {k₁ : Kernel} {t : Task}
    (ho : k.Orderly) (ht : k.tasks[i]? = some ⟨token, .opening ph⟩) (hw : ph.Works)
    (hs : Task.step token (.task i) k (.opening ph) = some (k₁, t)) :
    Onwards (.task i) (.calling ph.outline) k { k₁ with tasks := k₁.tasks.set i ⟨token, t⟩ } := by
  have hstop : (k.encounter (.task i)).stop = k.tokenFired token := by simp [encounter, stops, ht]
  have hended : ∀ run, ph = .working run →
      (k.encounter (.task i)).ended = ending (openAction k token) k run := by
    rintro run rfl
    simp [encounter, working?, ht]
  have hi : i < k₁.tasks.length := by
    rw [(Task.movement (ho.lifetimeOver ht) hs).tasks]
    exact (List.getElem?_eq_some_iff.mp ht).1
  obtain ⟨pr, hph, rfl⟩ := ofPart_eq_some hs
  obtain ⟨hout, hworks⟩ := OpenPhase.outline_step hw rfl rfl hstop hended hph
  have hreports := OpenPhase.reports_of_step hw rfl rfl hstop hended hph
  refine ⟨?_, ?_, hreports, ?_⟩
  · simp only [Posture.next, hout, posture?, List.getElem?_set_self hi]
    cases pr <;> rfl
  · simp only [Posture.next, hout]
    cases pr with
    | more ph' => exact (OpenPhase.works_outline ph').mpr hworks
    | done r => trivial
  · have hparty : (Party.task i).step.party? = some (.task i) := rfl
    simp only [mark?, hparty, if_true]
    cases ph with
    | working run =>
      have hwork : k.working? (.task i) =
          some (run, openAction k token, k.lifetimeOver || k.tokenFired token) := by simp [working?, ht]
      rw [hwork]
      show run.mark? _ _ _ k = (Kernel.outline run).mark? echo _ (k.lifetimeOver || (k.encounter _).stop) _
      rw [hstop]
      refine mark?_outline rfl (hended run rfl) ?_
      cases hover : k.lifetimeOver with
      | true => exact .inl rfl
      | false =>
        obtain ⟨q, hq, -⟩ := OpenPhase.worked_of_step hover hph
        exact .inr ⟨_, q, hq⟩
    | _ => simp [working?, ht, Posture.mark?, OpenPhase.outline]

theorem onwards_of_watching {i : Nat} {w : Watcher} {k₁ : Kernel} {ph : WatchPhase}
    (hw : k.watchers[i]? = some w) (hb : w.phase.Bound) (hs : w.phase.step (.watcher i) k w = some (k₁, ph)) :
    Onwards (.watcher i) (.watching w.phase.outline) k (k₁.setPhase i ph) := by
  have hstop : (k.encounter (.watcher i)).stop = k.watcherStopped w := by simp [encounter, stops, hw]
  have hended : ∀ run, w.phase = .recovering run →
      (k.encounter (.watcher i)).ended = ending (watcherAction k w) k run := by
    intro run hph
    simp [encounter, working?, hw, hph]
  obtain ⟨hout, hbound⟩ := WatchPhase.outline_step hb rfl hstop hended hs
  have hnext : (Posture.watching w.phase.outline).next (k.encounter (.watcher i)) = .watching ph.outline := by
    simp only [Posture.next, hout]
  have hreports := WatchPhase.reports_of_step hb hs
  refine ⟨?_, ?_, hreports, ?_⟩
  · rw [hnext]
    simp only [posture?, posts_stepped hw hs, Option.map_some]
  · rw [hnext]
    exact (WatchPhase.bound_outline ph).mpr hbound
  · have hparty : (Party.watcher i).step.party? = some (.watcher i) := rfl
    simp only [mark?, hparty, if_true]
    cases hph : w.phase with
    | recovering run =>
      have hwork : k.working? (.watcher i) = some (run, watcherAction k w, k.watcherStopped w) := by
        simp [working?, hw, hph]
      rw [hwork]
      show run.mark? _ _ _ k = (Kernel.outline run).mark? echo _ (k.encounter _).stop _
      rw [hstop]
      rw [hph] at hs
      obtain ⟨k₂, q, hq, -⟩ := WatchPhase.worked_of_step hs
      exact mark?_outline rfl (hended run hph) (.inr ⟨k₂, q, hq⟩)
    | _ => simp [working?, hw, hph, Posture.mark?, WatchPhase.outline]

theorem onwards_of_step (ho : k.Orderly) (hs : k.posture? p = some s) (hb : s.Bound)
    (he : k.after p.step = some k') : Onwards p s k k' := by
  cases p with
  | task i =>
    obtain ⟨⟨token, t⟩, k₁, t', ht, hstep, rfl⟩ := stepTask_eq_some he
    simp only [posture?, ht] at hs
    cases t with
    | opening ph =>
      cases hs
      exact onwards_of_opening ho ht ((OpenPhase.works_outline ph).mp hb) hstep
    | ended r => cases hstep
    | _ => cases hs
  | watcher i =>
    obtain ⟨w, k₁, ph, hw, hstep, rfl⟩ := stepWatcher_eq_some he
    simp only [posture?, getElem?_posts hw] at hs
    cases hs
    exact onwards_of_watching hw ((WatchPhase.bound_outline w.phase).mp hb) hstep

/-! ## Without the calls that set the policy -/

theorem ending_of_twin {P : Policy} (ht : k.Twin P k') (hx : x.Blind (Twin P)) (run : Run Recovery) :
    ending x k run = ending x k' run := by
  unfold ending
  split
  · rename_i a _
    obtain ⟨ha, hb⟩ | ⟨_, _, q, ha, hb, -⟩ := (hx.step ht a).cases <;> rw [ha, hb]
    cases q <;> rfl
  · rfl

theorem blind_of_working {P : Policy} (h : k.working? p = some (run, x, c)) : x.Blind (Twin P) := by
  cases p with
  | task i =>
    simp only [working?] at h
    split at h <;> cases h
    exact blind_openAction k _
  | watcher i =>
    obtain ⟨w, -, h⟩ := Option.bind_eq_some_iff.mp h
    split at h <;> cases h
    exact blind_watcherAction k w

/-- The policy, the status and the history are nothing that a party meets. -/
theorem encounter_of_twin {P : Policy} (ht : k.Twin P k') : k.encounter p = k'.encounter p := by
  have hended : (k.working? p).bind (fun w => ending w.2.1 k w.1) =
      (k.working? p).bind (fun w => ending w.2.1 k' w.1) := by
    cases hw : k.working? p with
    | none => rfl
    | some w => exact ending_of_twin ht (blind_of_working hw) w.1
  obtain ⟨status, handler, hh, rfl⟩ := ht
  have hnow := hh.now
  unfold encounter
  rw [hended, ← hnow]
  cases p <;> rfl

/-! ## Runs -/

/-- What a party meets in a run, the newest first. -/
def encounters (p : Party) (l : List (Kernel × Happening)) : List Encounter :=
  l.filterMap fun x => if x.2.party? = some p then some (x.1.encounter p) else none

/-- Where what it meets leads a party. -/
def Posture.follow (s : Posture) (ms : List Encounter) : Posture := ms.foldr Posture.next s

/-- What there is to be seen of a party that meets all this, the newest first. -/
def Posture.trail {β : Type} (f : Encounter → Posture → Option β) (s : Posture) : List Encounter → List β
  | [] => []
  | m :: ms => (f m (s.follow ms)).toList ++ trail f s ms

/-- A party follows what it meets. -/
theorem follow_of_path (hr : k.Reachable) (hs : k.posture? p = some s) (hb : s.Bound) (h : Path k l k') :
    k'.posture? p = some (s.follow (encounters p l)) ∧ (s.follow (encounters p l)).Bound := by
  induction h with
  | refl => exact ⟨hs, hb⟩
  | @tail l k' k'' e hp he ih =>
    have ho := orderly_of_reachable (hp.reachable hr)
    by_cases hparty : e.party? = some p
    · obtain rfl := step_of_party hparty
      have hon := onwards_of_step ho ih.1 ih.2 he
      simp only [encounters, List.filterMap_cons, hparty, if_true]
      exact ⟨hon.posture, hon.bound⟩
    · simp only [encounters, List.filterMap_cons, hparty, if_false]
      exact ⟨posture_of_ne ho he hparty ih.1, ih.2⟩

/-- What is seen of a party in each step of a run is determined by what the party meets. -/
theorem trail_of_path {β : Type} {f : Encounter → Posture → Option β} {o : Kernel × Happening → Option β}
    {G : Kernel → Prop} (hr : k.Reachable) (hs : k.posture? p = some s) (hb : s.Bound) (h : Path k l k')
    (hother : ∀ x, x.2.party? ≠ some p → o x = none)
    (hown : ∀ {k k' s}, k.Reachable → G k → k.after p.step = some k' → Onwards p s k k' →
      o (k, p.step) = f (k.encounter p) s)
    (hg : ∀ x ∈ l, x.2.party? = some p → G x.1) :
    l.filterMap o = s.trail f (encounters p l) := by
  induction h with
  | refl => rfl
  | @tail l k' k'' e hp he ih =>
    have ih := ih fun x hx => hg x (List.mem_cons_of_mem _ hx)
    have hr' := hp.reachable hr
    by_cases hparty : e.party? = some p
    · have hgood := hg (k', e) List.mem_cons_self hparty
      obtain rfl := step_of_party hparty
      obtain ⟨hpost, hbound⟩ := follow_of_path hr hs hb hp
      have hon := onwards_of_step (orderly_of_reachable hr') hpost hbound he
      have henc : encounters p ((k', p.step) :: l) = k'.encounter p :: encounters p l := by
        simp only [encounters, List.filterMap_cons, hparty, if_true]
      rw [henc, Posture.trail, ← ih, ← hown hr' hgood he hon, List.filterMap_cons]
      cases o (k', p.step) <;> rfl
    · -- What somebody else does is not seen, and the party meets nothing in it.
      have henc : encounters p ((k', e) :: l) = encounters p l := by
        simp only [encounters, List.filterMap_cons, hparty, if_false]
      rw [henc, ← ih, List.filterMap_cons, hother _ hparty]

/-! ## What is seen of a party -/

/-- A party has taken its policy: an open call that has begun its attempts, a watcher that has decided whether
to make any. -/
def HasPolicy (k : Kernel) : Party → Prop
  | .task i => ∃ token ph, k.tasks[i]? = some ⟨token, .opening ph⟩ ∧ ph.Works
  | .watcher i => ∃ w, k.watchers[i]? = some w ∧ w.phase.Bound

/-- How an open call or a watcher has ended. -/
def outcome? (k : Kernel) : Party → Option (Except ClientError Reply ⊕ WatcherExit)
  | .task i => (k.result? i).map .inl
  | .watcher i => match k.posts[i]? with
    | some (_, .ended exit) => some (.inr exit)
    | _ => none

/-- The time that an open call or a watcher waits for before its next attempt. -/
def deadline? (k : Kernel) : Party → Option Nat
  | .task i => match k.tasks[i]? with
    | some ⟨_, .opening (.working ⟨_, _, .pausing t⟩)⟩ => some t
    | _ => none
  | .watcher i => match k.posts[i]? with
    | some (_, .pausing _ t) => some t
    | some (_, .recovering ⟨_, _, .pausing t⟩) => some t
    | _ => none

/-- The delay that a step leaves a party to wait for. -/
def wait? (p : Party) (x : Kernel × Happening) : Option Nat :=
  if x.2.party? = some p then
    (x.1.after x.2).bind fun k' => (k'.deadline? p).map (· - x.1.handler.now)
  else none

/-- The status that a party reports in a step; it never is more than one. -/
def report? (p : Party) (x : Kernel × Happening) : Option Status :=
  if x.2.party? = some p then
    (x.1.after x.2).bind fun k' =>
      if k'.handler.wire.reports.length = x.1.handler.wire.reports.length then none
      else k'.handler.wire.reports.head?
  else none

/-- The delays that a party waits for in a run, the newest first. -/
def waits (p : Party) (l : List (Kernel × Happening)) : List Nat := l.filterMap (wait? p)

/-- The statuses that a party reports in a run, the newest first. -/
def tidings (p : Party) (l : List (Kernel × Happening)) : List Status := l.filterMap (report? p)

theorem posture_of_hasPolicy (h : k.HasPolicy p) : ∃ s, k.posture? p = some s ∧ s.Bound := by
  cases p with
  | task i =>
    obtain ⟨token, ph, ht, hw⟩ := h
    exact ⟨.calling ph.outline, by simp only [posture?, ht], (OpenPhase.works_outline ph).mpr hw⟩
  | watcher i =>
    obtain ⟨w, hw, hb⟩ := h
    refine ⟨.watching w.phase.outline, ?_, (WatchPhase.bound_outline w.phase).mpr hb⟩
    simp only [posture?, getElem?_posts hw, Option.map_some]

/-- How a party has ended shows in its outline. -/
theorem outcome?_eq (hs : k.posture? p = some s) : k.outcome? p = s.outcome? := by
  cases p with
  | task i =>
    simp only [posture?] at hs
    split at hs
    · rename_i token ph ht
      cases hs
      simp only [outcome?, result?, ht]
      rfl
    · rename_i token r ht
      cases hs
      simp only [outcome?, result?, ht]
      rfl
    · cases hs
  | watcher i =>
    obtain ⟨⟨t, ph⟩, hq, rfl⟩ := Option.map_eq_some_iff.mp hs
    simp only [outcome?, hq]
    cases ph <;> rfl

/-- The time that a party waits for shows in its outline. -/
theorem deadline?_eq (hs : k.posture? p = some s) : k.deadline? p = s.deadline? := by
  cases p with
  | task i =>
    simp only [posture?] at hs
    split at hs
    · rename_i token ph ht
      cases hs
      simp only [deadline?, ht]
      cases ph with
      | working run =>
        obtain ⟨P, n, ph⟩ := run
        cases ph <;> rfl
      | _ => rfl
    · rename_i token r ht
      cases hs
      simp only [deadline?, ht]
      rfl
    · cases hs
  | watcher i =>
    obtain ⟨⟨t, ph⟩, hq, rfl⟩ := Option.map_eq_some_iff.mp hs
    simp only [deadline?, hq]
    cases ph with
    | recovering run =>
      obtain ⟨P, n, ph⟩ := run
      cases ph <;> rfl
    | _ => rfl

theorem wait_of_onwards (he : k.after p.step = some k') (h : Onwards p s k k') :
    wait? p (k, p.step) = s.wait? (k.encounter p) := by
  have hparty : p.step.party? = some p := by cases p <;> rfl
  simp only [wait?, hparty, if_true, he, Option.bind_some, deadline?_eq h.posture]
  rfl

theorem report_of_onwards (he : k.after p.step = some k') (h : Onwards p s k k') :
    report? p (k, p.step) = s.tells k.policy (k.encounter p) := by
  have hparty : p.step.party? = some p := by cases p <;> rfl
  simp only [report?, hparty, if_true, he, Option.bind_some, h.reports]
  cases s.tells k.policy (k.encounter p) <;> simp

/-- Two runs in which a party does the same: it ends alike, makes the same attempts and waits as long. It also
reports the same, if the policies in force when it does something classify failures alike. -/
structure SameConduct (p : Party) (l₁ : List (Kernel × Happening)) (k₁ : Kernel) (l₂ : List (Kernel × Happening))
    (k₂ : Kernel) : Prop where
  outcome : k₁.outcome? p = k₂.outcome? p
  marks : marks p l₁ = marks p l₂
  waits : waits p l₁ = waits p l₂
  tidings : ∀ T : ClientError → Bool,
    (∀ x ∈ l₁ ++ l₂, x.2.party? = some p → x.1.policy.transient = T) → tidings p l₁ = tidings p l₂

variable {k₁ k₂ : Kernel} {l₁ l₂ : List (Kernel × Happening)}

/-- A party that has taken its policy does the same wherever it meets the same. -/
theorem sameConduct_of_encounters (hr : k.Reachable) (hp : k.HasPolicy p) (h₁ : Path k l₁ k₁) (h₂ : Path k l₂ k₂)
    (he : encounters p l₁ = encounters p l₂) : SameConduct p l₁ k₁ l₂ k₂ := by
  obtain ⟨s, hs, hb⟩ := posture_of_hasPolicy hp
  have hmarks : ∀ {l k'}, Path k l k' → marks p l = s.trail Posture.mark? (encounters p l) := fun h =>
    trail_of_path (G := fun _ => True) hr hs hb h (fun _ => mark?_of_ne) (fun _ _ _ hon => hon.mark)
      fun _ _ _ => trivial
  have hwaits : ∀ {l k'}, Path k l k' → waits p l = s.trail Posture.wait? (encounters p l) := fun h =>
    trail_of_path (G := fun _ => True) hr hs hb h (fun _ hn => if_neg hn)
      (fun _ _ he hon => wait_of_onwards he hon) fun _ _ _ => trivial
  have htidings : ∀ {l k' T}, Path k l k' → (∀ x ∈ l, x.2.party? = some p → x.1.policy.transient = T) →
      tidings p l = s.trail (Posture.tells { k.policy with transient := T }) (encounters p l) := by
    intro l k' T h hg
    refine trail_of_path (G := fun k => k.policy.transient = T) hr hs hb h (fun _ hn => if_neg hn) ?_ hg
    intro k k' s _ hT he hon
    rw [report_of_onwards he hon]
    exact Posture.tells_congr hT s
  refine ⟨?_, ?_, ?_, fun T hT => ?_⟩
  · rw [outcome?_eq (follow_of_path hr hs hb h₁).1, outcome?_eq (follow_of_path hr hs hb h₂).1, he]
  · rw [hmarks h₁, hmarks h₂, he]
  · rw [hwaits h₁, hwaits h₂, he]
  · rw [htidings h₁ fun x hx => hT x (List.mem_append_left l₂ hx),
      htidings h₂ fun x hx => hT x (List.mem_append_right l₁ hx), he]

/-- In a run that is repeated without the calls that set the policy a party meets the same. -/
theorem encounters_without {P : Policy}
    (h : List.Forall₂ (fun x y => x.1.Twin P y.1 ∧ x.2 = y.2) (l₁.filter fun x => !x.2.setsPolicy) l₂) :
    l₂.map Prod.snd = (l₁.map Prod.snd).filter (fun e => !e.setsPolicy) ∧ encounters p l₁ = encounters p l₂ := by
  induction l₁ generalizing l₂ with
  | nil =>
    cases h
    exact ⟨rfl, rfl⟩
  | cons x l₁ ih =>
    obtain ⟨k, e⟩ := x
    by_cases hset : e.setsPolicy
    · rw [List.filter_cons_of_neg (by simpa using hset)] at h
      obtain ⟨hmap, henc⟩ := ih h
      cases e <;> cases hset
      exact ⟨hmap, henc⟩
    · rw [List.filter_cons_of_pos (by simpa using hset)] at h
      obtain _ | ⟨hx, hl⟩ := h
      rename_i y l₂
      obtain ⟨k', e'⟩ := y
      obtain ⟨ht, rfl⟩ := hx
      obtain ⟨hmap, henc⟩ := ih hl
      refine ⟨?_, ?_⟩
      · simp [hmap, hset]
      · simp only [encounters, List.filterMap_cons] at henc ⊢
        rw [encounter_of_twin ht, henc]

/-- What an open call or a watcher that has taken its policy does depends on what it meets and on no policy set
later, but for the statuses that it reports. In particular it does the same in the run without the calls that
set the policy, if nobody else takes a policy that they set. -/
theorem policy_taken_once (hr : k.Reachable) (hp : k.HasPolicy p) (h₁ : Path k l₁ k₁) :
    (∀ l₂ k₂, Path k l₂ k₂ → encounters p l₁ = encounters p l₂ → SameConduct p l₁ k₁ l₂ k₂) ∧
    ((∀ x ∈ l₁, x.1.takesPolicy x.2 = true → x.1.policy = k.policy) →
      ∃ l₂ k₂, Path k l₂ k₂ ∧ l₂.map Prod.snd = (l₁.map Prod.snd).filter (fun e => !e.setsPolicy) ∧
        encounters p l₁ = encounters p l₂ ∧ SameConduct p l₁ k₁ l₂ k₂) := by
  refine ⟨fun l₂ k₂ h₂ he => sameConduct_of_encounters hr hp h₁ h₂ he, fun htakes => ?_⟩
  obtain ⟨l₂, k₂, h₂, -, htwins⟩ := path_without h₁ htakes
  obtain ⟨hmap, he⟩ := encounters_without htwins
  exact ⟨l₂, k₂, h₂, hmap, he, sameConduct_of_encounters hr hp h₁ h₂ he⟩

/-- An open call has asked for the session of its first attempt to be connected. -/
def connecting : List Happening :=
  [Happening.start 0 .open] ++ List.replicate 10 (Happening.stepTask 0) ++ [Happening.answer 0 (.ok .done), .stepTask 0]

/-- The policy is replaced by one under which no failure is worth a retry. -/
def hardening : Happening := .setPolicy { Policy.standard with transient := fun _ => false }

/-- The session cannot be connected. -/
def unreachable : Happening := .answer 1 (.error (.network "no route"))

/-- The call waits for the delay of the policy that it took, whether or not the policy is replaced. -/
theorem policy_taken_once_connecting : ∃ k l₁ k₁ l₂ k₂, (initial none .standard).course connecting = some k ∧
    k.HasPolicy (.task 0) ∧ Path k l₁ k₁ ∧ l₁.map Prod.snd = [.stepTask 0, unreachable, hardening] ∧
    Path k l₂ k₂ ∧ l₂.map Prod.snd = [.stepTask 0, unreachable] ∧ SameConduct (.task 0) l₁ k₁ l₂ k₂ ∧
    Kernel.waits (.task 0) l₂ = [100] := by
  obtain ⟨k, k₁, k₂, k₃, hc, hp, h₁, h₂, h₃, htakes, hw⟩ : ∃ k k₁ k₂ k₃,
      (initial none .standard).course connecting = some k ∧ k.HasPolicy (.task 0) ∧
      k.after hardening = some k₁ ∧ k₁.after unreachable = some k₂ ∧ k₂.after (.stepTask 0) = some k₃ ∧
      k₂.takesPolicy (.stepTask 0) = false ∧
      Kernel.waits (.task 0) [(k₂, .stepTask 0), (k₁, unreachable), (k, hardening)] = [100] :=
    ⟨_, _, _, _, rfl, ⟨_, _, rfl, trivial⟩, rfl, rfl, rfl, rfl, rfl⟩
  have hpath := ((History.refl.tail _ h₁).tail _ h₂).tail _ h₃
  obtain ⟨hall, hwithout⟩ := policy_taken_once ⟨none, .standard, reaches_of_course hc⟩ hp hpath
  have hnone : ∀ x ∈ [(k₂, .stepTask 0), (k₁, unreachable), (k, hardening)], x.1.takesPolicy x.2 = false := by
    simp only [List.forall_mem_cons]
    exact ⟨htakes, rfl, rfl, by simp⟩
  obtain ⟨l₂, k₄, h₄, hmap, he, -⟩ := hwithout fun x hx ht => by simp [hnone x hx] at ht
  have hsame := hall l₂ k₄ h₄ he
  exact ⟨k, _, k₃, l₂, k₄, hc, hp, hpath, rfl, h₄, hmap, hsame, hsame.waits ▸ hw⟩

/-- The call reports its failure as the policy that replaced its own classifies it, although it tries again. -/
theorem failure_told_by_replacement : ∃ k l₁ k₁ l₂ k₂, (initial none .standard).course connecting = some k ∧
    k.HasPolicy (.task 0) ∧ Path k l₁ k₁ ∧ l₁.map Prod.snd = [.stepTask 0, unreachable, hardening] ∧
    Path k l₂ k₂ ∧ l₂.map Prod.snd = [.stepTask 0, unreachable] ∧
    tidings (.task 0) l₁ = [⟨.disconnected, .communicationError⟩] ∧
    tidings (.task 0) l₂ = [⟨.retrying, .communicationError⟩] :=
  ⟨_, _, _, _, _, rfl, ⟨_, _, rfl, trivial⟩,
    ((History.refl.tail hardening rfl).tail unreachable rfl).tail (.stepTask 0) rfl, rfl,
    (History.refl.tail unreachable rfl).tail (.stepTask 0) rfl, rfl, rfl, rfl⟩

end HubDevice.Kernel
