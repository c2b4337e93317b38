import HubDevice.Proofs.Kernel.Script

/-!
# What an open call does

While nothing interferes with an open call (`Calm`), each phase of it says which attempts were made so far and
what an observer has seen (`OpenPhase.Reached`), and every step keeps to that (`OpenPhase.reached_step`). When
it returns, `Concluded` says what it has done. That open calls go by every script is `path_of_ready`: a call
approaches its attempts (`Approaches`), makes them with the transport that the script asks for, and comes to
return (`ComesTo`). `open_law` has both.
-/

namespace HubDevice.Kernel

open FairLock Retry Wire

variable {p : Party} {P : Policy} {k k₀ k' : Kernel} {e : Happening} {l : List (Kernel × Happening)}
  {i token n : Nat} {ms : List Mark} {std : Standing} {said : List Status} {link : LinkState}

/-- Nothing interferes with an open call: no close or drop has begun, its token has not fired, and a policy is
in force. -/
structure Calm (P : Policy) (token : Nat) (k : Kernel) : Prop where
  policy : k.policy = P
  undisposed : k.disposed = false
  lifetime : k.lifetimeOver = false
  unfired : k.tokenFired token = false

/-- The statuses that are reported with the retries that are granted. -/
def retries (n : Nat) : List Status := List.replicate n retrying

/-- The attempts of an open call since a kernel, and what an observer has seen of them. -/
structure Made (P : Policy) (k₀ : Kernel) (ms : List Mark) (n : Nat) (std : Standing) (said : List Status)
    (link : LinkState) (k : Kernel) : Prop where
  series : P.SeriesFrom 0 k₀.handler.now ms n std
  shows : k₀.Shows (said ++ retries n) link k

/-- No attempt was made yet, and nothing was seen. -/
structure Before (k₀ : Kernel) (ms : List Mark) (k : Kernel) : Prop where
  none : ms = []
  clock : k₀.handler.now ≤ k.handler.now
  shows : k₀.Shows [] k₀.link k

/-- Where the link stands after an open call. -/
def endLink (k₀ : Kernel) : Except ClientError Unit → LinkState
  | .ok _ => .connected
  | .error _ => k₀.link

/-- The attempts of an open call that is in a phase, and what an observer has seen of them. -/
def OpenPhase.Reached (P : Policy) (k₀ : Kernel) (ms : List Mark) (k : Kernel) : OpenPhase → Prop
  | .checkDisposed | .checkConnected | .readEpoch | .begin => Before k₀ ms k
  | .askGate epoch | .awaitGate epoch | .recheckDisposed epoch | .consider epoch =>
    Before k₀ ms k ∧ epoch = k.epoch
  | .working run => ∃ n std, Made P k₀ ms n std [] k₀.link k ∧
      run.Pursues Recovery.isStart P 0 n std k.handler.now
  | .raiseLink => ∃ n, Made P k₀ ms n (.settled (.ok ())) [] k₀.link k
  | .startWatcher | .reportUp => ∃ n, Made P k₀ ms n (.settled (.ok ())) [] .connected k
  | .reportDown e => ∃ n, Made P k₀ ms n (.settled (.error e)) [] k₀.link k
  | .conclude r => ∃ n, Made P k₀ ms n (.settled r) [finalStatus r] (endLink k₀ r) k

/-! ## What happens unseen -/

theorem Before.unseen (h : Before k₀ ms k) (hb : Unseen k k') : Before k₀ ms k' :=
  ⟨h.none, Nat.le_trans h.clock hb.clock, h.shows.unseen hb⟩

theorem Made.unseen (h : Made P k₀ ms n std said link k) (hb : Unseen k k') :
    Made P k₀ ms n std said link k' := ⟨h.series, h.shows.unseen hb⟩

theorem OpenPhase.Reached.unseen {ph : OpenPhase} (h : ph.Reached P k₀ ms k) (hb : Unseen k k') :
    ph.Reached P k₀ ms k' := by
  cases ph with
  | checkDisposed | checkConnected | readEpoch | begin => exact Before.unseen h hb
  | askGate | awaitGate | recheckDisposed | consider => exact ⟨h.1.unseen hb, h.2.trans hb.epoch.symm⟩
  | working run =>
    obtain ⟨n, std, hm, hr⟩ := h
    exact ⟨n, std, hm.unseen hb, hr.mono hb.clock⟩
  | raiseLink | startWatcher | reportUp | reportDown | conclude =>
    obtain ⟨n, hm⟩ := h
    exact ⟨n, hm.unseen hb⟩

/-! ## What the call does -/

/-- What is seen while the attempts of an open call go on: one report for each retry that was granted. -/
theorem counts_openAction (hP : P.transient = ClientError.transient) (k₁ : Kernel) :
    Run.Counts (openAction k₁ token) P fun n k => k₀.Shows (retries n) link k ∧ k.policy = P where
  step h hs := by
    obtain ⟨_, he, rfl⟩ := liftHandler_eq_some hs
    exact ⟨h.1.relays (relays_of_touches _ (Recovery.touches_step he)) fun _ => id, h.2⟩
  granted {n s₀ a s e} _ _ h hs ht := by
    obtain ⟨hsh, hp⟩ := h
    rw [hP] at ht
    have hst : statusOf s.policy e false = retrying := by rw [hp, statusOf_granted hP ht]
    refine ⟨?_, hp⟩
    simp only [openAction, recovery, reportFailure, hst]
    exact hsh.report retrying

theorem Made.worked (hP : P.transient = ClientError.transient) (hp : k.policy = P)
    {run : Run Recovery} {q : Progress (Run Recovery) (Except ClientError Unit)}
    (hm : Made P k₀ ms n std [] k₀.link k)
    (hr : run.Pursues Recovery.isStart P 0 n std k.handler.now)
    (h : Run.Turn (openAction k token) false k run k' q) :
    (OpenPhase.afterTurn q).Reached P k₀ ((run.mark? (openAction k token) Recovery.isStart false k).toList ++ ms)
      k' := by
  have hcanc : P.transient .cancelled = false := by rw [hP]; rfl
  have hx : Run.Timed (openAction k token) Recovery.isStart := timed_recovery fun _ _ => rfl
  obtain ⟨-, n', std', hs, ⟨hsh, -⟩, hq⟩ := h.series hx (counts_openAction hP k) hcanc hr hm.series ⟨hm.shows, hp⟩
  cases q with
  | more run' => exact ⟨n', std', ⟨hs, hsh⟩, hq⟩
  | done r =>
    have hq : std' = .settled r := hq
    subst hq
    cases r with
    | ok v => exact ⟨n', hs, hsh⟩
    | error err =>
      rcases error_of_turn h with ⟨-, hc⟩ | ⟨t, rfl⟩
      · cases hc
      · exact ⟨n', hs, hsh⟩

/-- No step of an open call in a phase but one at work notes anything. -/
theorem mark?_of_opening {ph : OpenPhase} (ht : k.tasks[i]? = some ⟨token, .opening ph⟩)
    (hph : ∀ run, ph ≠ .working run) : mark? (.task i) (k, e) = none := by
  unfold mark?
  split
  · have hw : k.working? (.task i) = none := by
      cases ph with
      | working run => exact absurd rfl (hph run)
      | _ => simp only [working?, ht]
    simp [hw]
  · rfl

/-- One step of an open call that nothing interferes with keeps to its phase; what it returns is the outcome of
its attempts. -/
theorem OpenPhase.reached_step (hP : P.transient = ClientError.transient) (hr : k.Reachable)
    (hc : k.Calm P token) (hl₀ : k₀.link ≠ .connected) {ph : OpenPhase}
    {pr : Progress OpenPhase (Except ClientError Unit)} (ht : k.tasks[i]? = some ⟨token, .opening ph⟩)
    (hk : ph.Reached P k₀ ms k) (h : ph.step token (.task i) k = some (k', pr)) :
    match pr with
    | .more ph' => ph'.Reached P k₀ ((mark? (.task i) (k, .stepTask i)).toList ++ ms) k'
    | .done r => (OpenPhase.conclude r).Reached P k₀ ((mark? (.task i) (k, .stepTask i)).toList ++ ms) k' := by
  by_cases hw : ∃ run, ph = .working run
  · obtain ⟨run, rfl⟩ := hw
    obtain ⟨n, std, hm, hrun⟩ := hk
    have hm' := mark?_of_working (working?_of_task ht hc.lifetime hc.unfired)
    rw [show Happening.stepTask i = Party.step (.task i) from rfl, hm']
    cases turn_of_step h with
    | overtaken ho =>
      rw [hc.lifetime] at ho
      cases ho
    | worked _ hturn => exact hm.worked hP hc.policy hrun (hc.unfired ▸ hturn)
  · rw [mark?_of_opening ht fun run he => hw ⟨run, he⟩]
    have unconnected : Before k₀ ms k → k.link ≠ .connected := fun hb => hb.shows.link ▸ hl₀
    cases turn_of_step h with
    | refused hd | refusedInside hd =>
      rw [hc.undisposed] at hd
      cases hd
    | connected hcon =>
      have hb : Before k₀ ms k := hk
      rw [(steady_of_reachable hr).connected, decide_eq_true_eq] at hcon
      exact absurd hcon (unconnected hb)
    | cancelled hf | gaveUp hf =>
      rw [hc.unfired] at hf
      cases hf
    | found hl => exact absurd hl (unconnected hk.1)
    | shared _ hs =>
      simp [sharedOutcome, hk.2] at hs
    | late ho =>
      rw [hc.lifetime] at ho
      cases ho
    | overtaken | worked => exact absurd ⟨_, rfl⟩ hw
    | admitted | unconnected => exact hk
    | read => exact ⟨hk, rfl⟩
    | asked =>
      exact ⟨hk.1.unseen { Aside.refl k with reports := rfl }, hk.2⟩
    | entered | admittedInside => exact hk
    | own => exact hk.1
    | began =>
      have hb : Before k₀ ms k := hk
      obtain ⟨rfl, hcl, hsh⟩ := hb
      refine ⟨0, .due k.handler.now, ⟨⟨_, hcl, .start⟩, hsh⟩, ?_⟩
      rw [hc.policy]
      exact Run.pursues_ofPolicy (timed_recovery fun _ _ => rfl) (by decide) (Nat.le_refl _)
    | raised =>
      obtain ⟨n, hm⟩ := hk
      exact ⟨n, hm.series, hm.shows.reports, rfl, hm.shows.features⟩
    | watched =>
      obtain ⟨n, hm⟩ := hk
      exact ⟨n, hm.series, hm.shows.reports, hm.shows.link, hm.shows.features⟩
    | reportedUp =>
      obtain ⟨n, hm⟩ := hk
      exact ⟨n, hm.series, hm.shows.report (finalStatus (.ok ()))⟩
    | @reportedDown err =>
      obtain ⟨n, hm⟩ := hk
      refine ⟨n, hm.series, ?_⟩
      rw [reportFailure, hc.policy, statusOf_final hP]
      exact hm.shows.report (finalStatus (.error err))
    | concluded =>
      obtain ⟨n, hm⟩ := hk
      exact ⟨n, hm.series, hm.shows.reports, hm.shows.link, hm.shows.features⟩

/-! ## Runs -/

/-- Where an open call stands that was about to start, or to begin its attempts, on an earlier kernel. -/
inductive Called (P : Policy) (k₀ : Kernel) (i token : Nat) (ms : List Mark) (k : Kernel) : Prop where
  | ready : k.tasks[i]? = some ⟨token, .ready .open⟩ → Before k₀ ms k → Called P k₀ i token ms k
  | opening {ph : OpenPhase} : k.tasks[i]? = some ⟨token, .opening ph⟩ → ph.Reached P k₀ ms k →
      Called P k₀ i token ms k
  | returned {r : Except ClientError Unit} : k.tasks[i]? = some ⟨token, .ended (r.map fun _ => .done)⟩ →
      (OpenPhase.conclude r).Reached P k₀ ms k → Called P k₀ i token ms k

theorem Called.beside (h : Called P k₀ i token ms k) (hb : Beside (.task i) k k') :
    Called P k₀ i token ms k' := by
  cases h with
  | ready ht hk => exact .ready (hb.task rfl ht) (hk.unseen hb.toUnseen)
  | opening ht hk => exact .opening (hb.task rfl ht) (hk.unseen hb.toUnseen)
  | returned ht hk => exact .returned (hb.task rfl ht) (hk.unseen hb.toUnseen)

theorem Called.step (hP : P.transient = ClientError.transient) (hr : k.Reachable) (hc : k.Calm P token)
    (hl₀ : k₀.link ≠ .connected) (hn : k.result? i = none) (h : Called P k₀ i token ms k)
    (hs : k.stepTask i = some k') :
    Called P k₀ i token ((mark? (.task i) (k, .stepTask i)).toList ++ ms) k' := by
  obtain ⟨o, k₁, t, ho, hstep, rfl⟩ := stepTask_eq_some hs
  have hi : i < k₁.tasks.length := by
    rw [(Task.movement ((orderly_of_reachable hr).lifetimeOver ho) hstep).tasks]
    exact (List.getElem?_eq_some_iff.mp ho).1
  have set : Unseen k₁ { k₁ with tasks := k₁.tasks.set i { o with task := t } } :=
    { Aside.refl k₁ with reports := rfl }
  have entry := List.getElem?_set_self (a := { o with task := t }) hi
  cases h with
  | ready ht hk =>
    rw [ht] at ho
    cases ho
    cases hstep
    have hm : mark? (.task i) (k, .stepTask i) = none := by simp [mark?, working?, ht]
    rw [hm]
    exact .opening entry (hk.unseen set)
  | @opening ph ht hk =>
    rw [ht] at ho
    cases ho
    obtain ⟨pr, hp, rfl⟩ := ofPart_eq_some hstep
    have hreached := OpenPhase.reached_step hP hr hc hl₀ ht hk hp
    cases pr with
    | more ph' => exact .opening entry (hreached.unseen set)
    | done r => exact .returned entry (hreached.unseen set)
  | returned ht hk =>
    rw [result?_eq_some.mpr ⟨token, ht⟩] at hn
    cases hn

theorem Called.after (hP : P.transient = ClientError.transient) (hr : k.Reachable) (hc : k.Calm P token)
    (hu : k.Unrivalled (.task i)) (hl₀ : k₀.link ≠ .connected) (hn : k.result? i = none)
    (h : Called P k₀ i token ms k) (he : k.after e = some k') :
    Called P k₀ i token ((mark? (.task i) (k, e)).toList ++ ms) k' := by
  by_cases hp : e.party? = some (.task i)
  · have hstep : e = .stepTask i := by
      cases e <;> first | cases hp; rfl | cases hp
    subst hstep
    exact h.step hP hr hc hl₀ hn he
  · rw [mark?_of_ne hp]
    exact h.beside (beside_of_after (orderly_of_reachable hr) hu hc.lifetime he hp)

/-- Nothing interferes with an open call that has not returned, and nobody else is inside the gate. -/
structure Unhindered (P : Policy) (i token : Nat) (k : Kernel) : Prop extends Calm P token k where
  alone : k.Unrivalled (.task i)
  pending : k.result? i = none

theorem called_of_path (hP : P.transient = ClientError.transient) (hr : k₀.Reachable)
    (hl₀ : k₀.link ≠ .connected) (h₀ : Called P k₀ i token [] k₀)
    (h : PathIn (Unhindered P i token) k₀ l k) : Called P k₀ i token (marks (.task i) l) k := by
  obtain ⟨h, hx⟩ := h
  induction h with
  | refl => exact h₀
  | tail e hp he ih =>
    have hu : Unhindered P i token _ := hx _ List.mem_cons_self
    rw [marks_cons]
    exact (ih fun x hm => hx x (List.mem_cons_of_mem _ hm)).after hP (hp.reachable hr) hu.toCalm hu.alone hl₀
      hu.pending he

/-! ## A call that comes to begin its attempts -/

/-- The kernel after an open call has come to a phase, and the gate has passed into other hands. -/
def openingAt (k : Kernel) (i token : Nat) (gate : FairLock Party) (ph : OpenPhase) : Kernel :=
  { k with gate, tasks := k.tasks.set i ⟨token, .opening ph⟩ }

theorem getElem?_openingAt {gate : FairLock Party} {ph : OpenPhase} (hi : i < k.tasks.length) :
    (k.openingAt i token gate ph).tasks[i]? = some ⟨token, .opening ph⟩ := List.getElem?_set_self hi

theorem after_openingAt {gate gate' : FairLock Party} {ph ph' : OpenPhase} (hi : i < k.tasks.length)
    (hs : ph.step token (.task i) (k.openingAt i token gate ph) =
      some (k.openingAt i token gate' ph, .more ph')) :
    (k.openingAt i token gate ph).after (.stepTask i) = some (k.openingAt i token gate' ph') := by
  have ht : Task.step token (.task i) (k.openingAt i token gate ph) (.opening ph) =
      some (k.openingAt i token gate' ph, .opening ph') := by simp [Task.step, ofPart, hs]
  refine (stepTask_of_step (getElem?_openingAt hi) ht).trans ?_
  simp [openingAt]

theorem unhindered_openingAt {gate : FairLock Party} {ph : OpenPhase} (hc : k.Calm P token)
    (hi : i < k.tasks.length) (hr : (k.openingAt i token gate ph).Reachable)
    (hg : gate.holder = none ∨ gate.holder = some (.task i)) :
    Unhindered P i token (k.openingAt i token gate ph) where
  policy := hc.policy
  undisposed := hc.undisposed
  lifetime := hc.lifetime
  unfired := hc.unfired
  alone := unrivalled_of_holder (orderly_of_reachable hr) fun q hq => by
    rcases hg with hg | hg
    · exact absurd (hg.symm.trans hq) (by simp)
    · exact (Option.some.inj (hg.symm.trans hq)).symm
  pending := by
    unfold result?
    rw [getElem?_openingAt hi]

/-- A call that has just been started comes to a phase without any attempt, and leaves the gate in these hands. -/
def Approaches (P : Policy) (i token : Nat) (k : Kernel) (gate : FairLock Party) (ph : OpenPhase) : Prop :=
  ∃ l, PathIn (Unhindered P i token) k l (k.openingAt i token gate ph) ∧ marks (.task i) l = []

theorem Approaches.next {gate : FairLock Party} {ph : OpenPhase} (h : Approaches P i token k gate ph)
    (gate' : FairLock Party) (ph' : OpenPhase) (hr : k.Reachable) (hc : k.Calm P token) (hi : i < k.tasks.length)
    (hph : ∀ run, ph ≠ .working run) (hg : gate.holder = none ∨ gate.holder = some (.task i))
    (hs : ph.step token (.task i) (k.openingAt i token gate ph) =
      some (k.openingAt i token gate' ph, .more ph')) : Approaches P i token k gate' ph' := by
  obtain ⟨l, hp, hm⟩ := h
  refine ⟨_, hp.tail (unhindered_openingAt hc hi (hp.path.reachable hr) hg) (after_openingAt hi hs), ?_⟩
  rw [marks_cons, mark?_of_opening (getElem?_openingAt hi) hph, hm]
  rfl

/-- A call that is started while nobody holds the gate and the link is not up comes to begin its attempts. -/
theorem approaches_begin (hr : k.Reachable) (hc : k.Calm P token) (hl : k.link ≠ .connected)
    (hf : k.gate.holder = none) (ht : k.tasks[i]? = some ⟨token, .ready .open⟩) :
    Approaches P i token k (k.gate.request (.task i)) .begin := by
  have hi : i < k.tasks.length := (List.getElem?_eq_some_iff.mp ht).1
  have hcon : k.connected = false := by
    rw [(steady_of_reachable hr).connected]
    exact decide_eq_false hl
  have hu : Unhindered P i token k :=
    { hc with
      alone := unrivalled_of_holder (orderly_of_reachable hr) fun q hq => absurd (hf.symm.trans hq) (by simp)
      pending := by
        unfold result?
        rw [ht] }
  have hstart : k.after (.stepTask i) = some (k.openingAt i token k.gate .checkDisposed) :=
    stepTask_of_step ht rfl
  have h₁ : Approaches P i token k k.gate .checkDisposed :=
    ⟨_, (PathIn.refl _ k).tail hu hstart, by simp [marks, mark?, working?, ht]⟩
  have hasked : (k.gate.request (.task i)).holder = some (.task i) := by simp [request, hf]
  have h₂ := h₁.next k.gate .checkConnected hr hc hi (by simp) (.inl hf) (by
    simp [OpenPhase.step, openingAt, hc.undisposed])
  have h₃ := h₂.next k.gate .readEpoch hr hc hi (by simp) (.inl hf) (by simp [OpenPhase.step, openingAt, hcon])
  have h₄ := h₃.next k.gate (.askGate k.epoch) hr hc hi (by simp) (.inl hf) rfl
  have h₅ := h₄.next (k.gate.request (.task i)) (.awaitGate k.epoch) hr hc hi (by simp) (.inl hf) (by
    have hun : (k.openingAt i token k.gate (.askGate k.epoch)).tokenFired token = false := hc.unfired
    simp only [OpenPhase.step, hun]
    rfl)
  have h₆ := h₅.next (k.gate.request (.task i)) (.recheckDisposed k.epoch) hr hc hi (by simp) (.inr hasked) (by
    have hun : (k.openingAt i token (k.gate.request (.task i)) (.awaitGate k.epoch)).tokenFired token = false :=
      hc.unfired
    simp only [OpenPhase.step, hun]
    simp [openingAt, hasked])
  have h₇ := h₆.next (k.gate.request (.task i)) (.consider k.epoch) hr hc hi (by simp) (.inr hasked) (by
    simp [OpenPhase.step, openingAt, hc.undisposed])
  exact h₇.next (k.gate.request (.task i)) .begin hr hc hi (by simp) (.inr hasked) (by
    simp [OpenPhase.step, openingAt, hl, sharedOutcome])

/-! ## A call that comes to its end -/

theorem Calm.alike (h : Calm P token k) (hal : Alike k k') : Calm P token k' where
  policy := hal.policy.trans h.policy
  undisposed := hal.disposed.trans h.undisposed
  lifetime := hal.lifetimeOver.trans h.lifetime
  unfired := (congrArg (fun f : List Nat => f.contains token) hal.fired).trans h.unfired

/-- An open call stands in a phase inside the gate, and nothing interferes with it. -/
structure Opens (P : Policy) (i token : Nat) (ph : OpenPhase) (k : Kernel) : Prop extends Calm P token k where
  reachable : k.Reachable
  task : k.tasks[i]? = some ⟨token, .opening ph⟩
  inside : ph.stance = .inside

theorem Opens.unhindered {ph : OpenPhase} (h : Opens P i token ph k) : Unhindered P i token k where
  toCalm := h.toCalm
  alone := unrivalled_of_inside (orderly_of_reachable h.reachable) ((stance_of_tasks h.task).trans h.inside)
  pending := by
    unfold result?
    rw [h.task]

/-- The call takes a step inside the gate. -/
theorem Opens.next {ph ph' : OpenPhase} {k₁ : Kernel} (h : Opens P i token ph k)
    (hs : ph.step token (.task i) k = some (k₁, .more ph')) (hal : Alike k k₁) (hi : ph'.stance = .inside) :
    ∃ k', k.after (.stepTask i) = some k' ∧ Opens P i token ph' k' ∧ k'.handler = k₁.handler := by
  have hstep : Task.step token (.task i) k (.opening ph) = some (k₁, .opening ph') := by
    simp [Task.step, ofPart, hs]
  have hlen : i < k₁.tasks.length := by
    rw [(Task.movement ((orderly_of_reachable h.reachable).lifetimeOver h.task) hstep).tasks]
    exact (List.getElem?_eq_some_iff.mp h.task).1
  have he : k.after (.stepTask i) = _ := stepTask_of_step h.task hstep
  refine ⟨_, he, ?_, rfl⟩
  exact {
    h.toCalm.alike (hal.trans ⟨rfl, rfl, rfl, rfl, rfl⟩) with
    reachable := (History.refl.tail _ he).reachable h.reachable
    task := List.getElem?_set_self hlen
    inside := hi }

/-- The call begins its attempts. -/
theorem Opens.begun (h : Opens P i token .begin k) :
    ∃ k', k.after (.stepTask i) = some k' ∧ Opens P i token (.working ⟨P, 0, .acting (.opening .start)⟩) k' ∧
      k'.handler = k.handler := by
  have hs : OpenPhase.begin.step token (.task i) k = some (k, .more (.working ⟨P, 0, .acting (.opening .start)⟩)) := by
    simp only [OpenPhase.step, h.lifetime, h.policy]
    rfl
  exact h.next hs (.refl k) rfl

/-- An open call returns without any attempt or delay. -/
def ComesTo (P : Policy) (i token : Nat) (r : Except ClientError Unit) (k : Kernel) : Prop :=
  ∃ l k', PathIn (Unhindered P i token) k l k' ∧ k'.result? i = some (r.map fun _ => .done) ∧
    k'.handler.now = k.handler.now ∧ marks (.task i) l = []

theorem comesTo_of_conclude {r : Except ClientError Unit} (h : Opens P i token (.conclude r) k) :
    ComesTo P i token r k := by
  have hstep : Task.step token (.task i) k (.opening (.conclude r)) =
      some ({ k with lastOpen := some r, epoch := k.epoch + 1, gate := k.gate.release },
        .ended (r.map fun _ => .done)) := rfl
  have he : k.after (.stepTask i) = _ := stepTask_of_step h.task hstep
  refine ⟨_, _, (PathIn.refl _ k).tail h.unhindered he, ?_, rfl, ?_⟩
  · exact result?_eq_some.mpr ⟨token, List.getElem?_set_self (List.getElem?_eq_some_iff.mp h.task).1⟩
  · rw [marks_cons, mark?_of_opening h.task (by simp)]
    rfl

theorem comesTo_of_next {ph ph' : OpenPhase} {k₁ : Kernel} {r : Except ClientError Unit}
    (h : Opens P i token ph k) (hph : ∀ run, ph ≠ .working run)
    (hs : ph.step token (.task i) k = some (k₁, .more ph')) (hal : Alike k k₁) (hi : ph'.stance = .inside)
    (hnow : k₁.handler.now = k.handler.now) (hn : ∀ k', Opens P i token ph' k' → ComesTo P i token r k') :
    ComesTo P i token r k := by
  obtain ⟨k', he, hk', hh⟩ := h.next hs hal hi
  obtain ⟨l, k₂, hp, hr, hnow', hm⟩ := hn k' hk'
  refine ⟨_, k₂, ((PathIn.refl _ k).tail h.unhindered he).trans hp, hr, ?_, ?_⟩
  · rw [hnow', hh, hnow]
  · rw [marks_append, hm, marks_cons, mark?_of_opening h.task hph]
    rfl

/-- A call whose attempts are over comes to return their outcome. -/
theorem comesTo_afterTurn (o : Except TransportError Unit)
    (h : Opens P i token (.afterTurn (.done (o.mapError .transport))) k) :
    ComesTo P i token (o.mapError .transport) k := by
  cases o with
  | ok v =>
    have granted : Opens P i token .raiseLink k := h
    refine comesTo_of_next granted (by simp) rfl ⟨rfl, rfl, rfl, rfl, rfl⟩ rfl rfl fun _ h => ?_
    refine comesTo_of_next h (by simp) rfl ⟨rfl, rfl, rfl, rfl, rfl⟩ rfl rfl fun _ h => ?_
    exact comesTo_of_next h (by simp) rfl ⟨rfl, rfl, rfl, rfl, rfl⟩ rfl rfl fun _ h => comesTo_of_conclude h
  | error t =>
    have refused : Opens P i token (.reportDown (.transport t)) k := h
    exact comesTo_of_next refused (by simp) rfl ⟨rfl, rfl, rfl, rfl, rfl⟩ rfl rfl
      fun _ h => comesTo_of_conclude h

theorem Undisturbed.unhindered (h : Undisturbed (.task i) k k') (hc : Calm P token k) (hr : k'.Reachable) :
    Unhindered P i token k' := by
  obtain ⟨hal, run, x, hx⟩ := h
  rcases working?_cases hx with ⟨j, token', he, ht, -⟩ | ⟨j, w, he, -⟩
  · cases he
    exact {
      hc.alike hal with
      alone := unrivalled_of_inside (orderly_of_reachable hr) ((stance_of_tasks ht).trans rfl)
      pending := by
        unfold result?
        rw [ht] }
  · cases he

/-- A call whose failures are over: the step that ends its last attempt. -/
theorem Opens.last {a : Recovery} {h' : Handler} {m : Nat} {o : Except TransportError Unit}
    (h : Opens P i token (.working ⟨P, m, .acting a⟩) k)
    (hs : (openAction k token).step k a = some ({ k with handler := h' }, .done (o.mapError .transport)))
    (hfin : ∀ t, o = .error t → P.transient (.transport t) = false ∨ P.decide m (.transport t) = .stop) :
    (OpenPhase.working ⟨P, m, .acting a⟩).step token (.task i) k =
      some ({ k with handler := h' }, .more (.afterTurn (.done (o.mapError .transport)))) := by
  have hrun : Run.step (openAction k token) false k ⟨P, m, .acting a⟩ =
      some ({ k with handler := h' }, .done (o.mapError .transport)) :=
    Run.step_of_done hs (final_of_script hfin)
  simp only [OpenPhase.step, h.lifetime, h.unfired, hrun]
  cases o <;> rfl

/-- A call at the start of its attempts can be made to go by any script that its policy grants. -/
theorem path_of_scripted_call {es : List TransportError} {ds : List Span} {o : Except TransportError Unit}
    (h : Opens P i token (.working ⟨P, 0, .acting (.opening .start)⟩) k)
    (hd : P.delays? 0 (es.map .transport) = some ds)
    (hfin : ∀ t, o = .error t → P.transient (.transport t) = false ∨
      P.decision es.length (.transport t) = .stop) :
    ∃ l k', PathIn (Unhindered P i token) k l k' ∧
      k'.result? i = some ((o.mapError .transport).map fun _ => .done) ∧
      outcomes (marks (.task i) l) = o.mapError .transport :: (es.map fun t => .error (.transport t)).reverse ∧
      k'.handler.now = Policy.afterDelays ds k.handler.now := by
  have hpur : k.Pursuing (.task i) ⟨P, min 0 maxAttempt, .acting (.opening .start)⟩ :=
    pursuing_of_task h.task h.lifetime h.unfired
  obtain ⟨l, k₁, x, a, h', hp, hx, hact, hnow, hal, ho⟩ := path_of_script h.reachable hpur hd o
  have hr₁ := hp.path.reachable h.reachable
  have hp := hp.mono_of_reachable h.reachable fun _ hr hu => Undisturbed.unhindered hu h.toCalm hr
  obtain ⟨t, ht⟩ := token_of_path hp.path h.reachable h.task
  rcases working?_cases hx with ⟨j, token', he, ht', -, -, rfl⟩ | ⟨_, _, he, -⟩
  · cases he
    rw [ht'] at ht
    cases ht
    have ho₁ : Opens P i token _ k₁ :=
      { h.toCalm.alike hal with reachable := hp.path.reachable h.reachable, task := ht', inside := rfl }
    have hi : (OpenPhase.afterTurn (.done (o.mapError .transport))).stance = .inside := by cases o <;> rfl
    have hs := ho₁.last hact fun t ht => by simpa [Policy.decision] using hfin t ht
    obtain ⟨k₂, he, hk₂, hh⟩ := ho₁.next hs ⟨rfl, rfl, rfl, rfl, rfl⟩ hi
    obtain ⟨l', k', hp', hres, hnow', hm⟩ := comesTo_afterTurn o hk₂
    refine ⟨_, k', (hp.tail ho₁.unhindered he).trans hp', hres, ?_, ?_⟩
    · have hlast : mark? (.task i) (k₁, .stepTask i) = _ := mark?_of_end hx hact
      rw [marks_append, hm, marks_cons, hlast]
      exact congrArg (_ :: ·) ho
    · rw [hnow', hh, hnow]
  · cases he

/-! ## The law -/

/-- What an open call has done that returned with an outcome, after failures that were granted a retry each. -/
structure Concluded (P : Policy) (k₀ : Kernel) (i : Nat) (ms : List Mark) (failures : List ClientError)
    (delays : List Span) (r : Except ClientError Unit) (k : Kernel) : Prop where
  /-- All failures but a last one were transient, and are followed by the delays that the policy decided on. -/
  delays : P.delays? 0 failures = some delays
  /-- No attempt began before the delay after the one before it was over. -/
  series : P.SeriesFrom 0 k₀.handler.now ms failures.length (.settled r)
  outcomes : outcomes ms = r :: (failures.map .error).reverse
  attempts : attempts ms = failures.length + 1
  /-- A failure that was not granted a retry was not transient, or the policy says that it is enough. -/
  final : ∀ e, r = .error e → e.transient = false ∨ P.decision failures.length e = .stop
  result : k.result? i = some (r.map fun _ => .done)
  reports : k.handler.wire.reports = finalStatus r :: retries failures.length ++ k₀.handler.wire.reports
  link : k.link = endLink k₀ r
  features : k.features = k₀.features

theorem Called.concluded (hP : P.transient = ClientError.transient) (h : Called P k₀ i token ms k)
    {v : Except ClientError Reply} (hv : k.result? i = some v) :
    ∃ failures delays r, v = r.map (fun _ => .done) ∧ Concluded P k₀ i ms failures delays r k := by
  obtain ⟨token', ht'⟩ := result?_eq_some.mp hv
  cases h with
  | ready ht _ | opening ht _ =>
    rw [ht] at ht'
    cases ht'
  | @returned r ht hk =>
    rw [ht] at ht'
    cases ht'
    obtain ⟨n, ⟨hs, hsh⟩⟩ := hk
    obtain ⟨since, -, hser⟩ := id hs
    obtain ⟨es, ds, hds, rfl, hout⟩ := hser.granted
    refine ⟨es, ds, r, rfl, hds, hs, hout, hser.attempts_eq, ?_, hv, hsh.reports, hsh.link, hsh.features⟩
    rintro e rfl
    have hf := hser.final
    rwa [Nat.zero_add, hP] at hf

/-- An open call inside the gate stays there until it returns. -/
theorem OpenPhase.Turn.inside {p : Party} {ph ph' : OpenPhase} (h : ph.Turn token p k k' (.more ph'))
    (hi : ph.stance = .inside) : ph'.stance = .inside := by
  cases h with
  | @worked _ _ q =>
    rcases q with run | (err | v)
    · rfl
    · cases err <;> rfl
    · rfl
  | _ => first | rfl | cases hi

/-- A call that is inside the gate when it begins its attempts stays inside until it returns. -/
theorem unhindered_of_pending (hr : k₀.Reachable) (h₀ : k₀.tasks[i]? = some ⟨token, .opening .begin⟩)
    (h : PathIn (fun k => Calm P token k ∧ k.result? i = none) k₀ l k) :
    PathIn (Unhindered P i token) k₀ l k := by
  have working : PathIn (Unhindered P i token) k₀ l k ∧
      (k.result? i = none → ∃ ph, k.tasks[i]? = some ⟨token, .opening ph⟩ ∧ ph.stance = .inside) := by
    obtain ⟨hp, hx⟩ := h
    induction hp with
    | refl => exact ⟨.refl _ _, fun _ => ⟨_, h₀, rfl⟩⟩
    | @tail l k' k'' e hp he ih =>
      obtain ⟨hpath, hin⟩ := ih fun x hm => hx x (List.mem_cons_of_mem _ hm)
      obtain ⟨hcalm, hnone⟩ : Calm P token k' ∧ k'.result? i = none := hx _ List.mem_cons_self
      obtain ⟨ph, ht, hph⟩ := hin hnone
      have ho : Opens P i token ph k' := { hcalm with reachable := hp.reachable hr, task := ht, inside := hph }
      refine ⟨hpath.tail ho.unhindered he, fun hn => ?_⟩
      rcases tasks_after (orderly_of_reachable ho.reachable) he i with
        hs | ⟨hs, -⟩ | ⟨o, k₁, t, -, hto, hs, -, hs'⟩
      · exact ⟨ph, hs.trans ht, hph⟩
      · rw [hs] at ht
        cases ht
      · rw [ht] at hto
        cases hto
        obtain ⟨pr, hpr, rfl⟩ := ofPart_eq_some hs
        cases pr with
        | more ph' => exact ⟨ph', hs', (OpenPhase.turn_of_step hpr).inside hph⟩
        | done r =>
          rw [result?_eq_some.mpr ⟨token, hs'⟩] at hn
          cases hn
  exact working.1

/-- A call that is started while nobody holds the gate and the link is not up can be made to go by any script
that its policy grants, and takes no longer than the delays. -/
theorem path_of_ready {es : List TransportError} {ds : List Span} {o : Except TransportError Unit}
    (hr : k.Reachable) (hc : k.Calm P token) (hl : k.link ≠ .connected) (hf : k.gate.holder = none)
    (ht : k.tasks[i]? = some ⟨token, .ready .open⟩) (hd : P.delays? 0 (es.map .transport) = some ds)
    (hfin : ∀ t, o = .error t → P.transient (.transport t) = false ∨
      P.decision es.length (.transport t) = .stop) :
    ∃ l k', PathIn (Unhindered P i token) k l k' ∧
      k'.result? i = some ((o.mapError .transport).map fun _ => .done) ∧
      outcomes (marks (.task i) l) = o.mapError .transport :: (es.map fun t => .error (.transport t)).reverse ∧
      k'.handler.now = Policy.afterDelays ds k.handler.now := by
  obtain ⟨l, hp, hm⟩ := approaches_begin hr hc hl hf ht
  have hi : i < k.tasks.length := (List.getElem?_eq_some_iff.mp ht).1
  have hbegin : Opens P i token .begin (k.openingAt i token (k.gate.request (.task i)) .begin) :=
    { hc.alike ⟨rfl, rfl, rfl, rfl, rfl⟩ with reachable := hp.path.reachable hr, task := getElem?_openingAt hi, inside := rfl }
  obtain ⟨k₁, he, hk₁, hh⟩ := hbegin.begun
  obtain ⟨l', k', hp', hres, ho, hnow⟩ := path_of_scripted_call hk₁ hd hfin
  refine ⟨_, k', (hp.tail hbegin.unhindered he).trans hp', hres, ?_, ?_⟩
  · rw [marks_append, marks_cons, mark?_of_opening hbegin.task (by simp), hm]
    simpa using ho
  · rw [hnow, hh]
    rfl

/-- The law of an open call that finds the link not up and is not closed, cancelled or given another policy on
the way. Whether it has the gate to itself from the start, or has begun its attempts and anything else happens
beside it: when it returns, `Concluded` says what it has done. And for every script of failures that are granted
a retry and a last attempt that succeeds, or that is not granted a retry, there is a run on which its attempts
end so and take no more time than the delays between them. -/
theorem open_law (hP : P.transient = ClientError.transient) (hr : k₀.Reachable) (hc : k₀.Calm P token)
    (hl : k₀.link ≠ .connected) :
    (k₀.tasks[i]? = some ⟨token, .ready .open⟩ → ∀ l k v, PathIn (Unhindered P i token) k₀ l k →
      k.result? i = some v → ∃ failures delays r, v = r.map (fun _ => .done) ∧
        Concluded P k₀ i (marks (.task i) l) failures delays r k) ∧
    (k₀.tasks[i]? = some ⟨token, .opening .begin⟩ → ∀ l k v,
      PathIn (fun k => Calm P token k ∧ k.result? i = none) k₀ l k →
      k.result? i = some v → ∃ failures delays r, v = r.map (fun _ => .done) ∧
        Concluded P k₀ i (marks (.task i) l) failures delays r k) ∧
    (k₀.tasks[i]? = some ⟨token, .ready .open⟩ → k₀.gate.holder = none →
      ∀ (failures : List TransportError) (delays : List Span) (last : Except TransportError Unit),
      P.delays? 0 (failures.map .transport) = some delays →
      (∀ t, last = .error t → P.transient (.transport t) = false ∨
        P.decision failures.length (.transport t) = .stop) →
      ∃ l k, PathIn (Unhindered P i token) k₀ l k ∧
        k.result? i = some ((last.mapError .transport).map fun _ => .done) ∧
        outcomes (marks (.task i) l) =
          last.mapError .transport :: (failures.map fun t => .error (.transport t)).reverse ∧
        k.handler.now = Policy.afterDelays delays k₀.handler.now) := by
  have before : Before k₀ [] k₀ := ⟨rfl, Nat.le_refl _, shows_refl k₀⟩
  refine ⟨fun ht l k v hp hv => ?_, fun ht l k v hp hv => ?_, fun ht hf _ _ _ hd hfin => ?_⟩
  · exact (called_of_path hP hr hl (.ready ht before) hp).concluded hP hv
  · exact (called_of_path hP hr hl (.opening ht before) (unhindered_of_pending hr ht hp)).concluded hP hv
  · exact path_of_ready hr hc hl hf ht hd hfin

/-- With the standard policy a call can fail twice, wait for 100 ms and then for 200 ms, and succeed. -/
theorem open_law_two_failures :
    ∃ k₀ l k, (initial none .standard).course [.start 0 .open] = some k₀ ∧
      PathIn (Unhindered .standard 0 0) k₀ l k ∧ k.result? 0 = some (.ok .done) ∧
      attempts (marks (.task 0) l) = 3 ∧ k.handler.now = 300 ∧
      k.handler.wire.reports = [⟨.connected, .connectionOk⟩, retrying, retrying] := by
  have hc : (initial none .standard).course [.start 0 .open] = some _ := rfl
  have law := open_law (i := 0) rfl ⟨none, .standard, reaches_of_course hc⟩
    (⟨rfl, rfl, rfl, rfl⟩ : Calm .standard 0 _) (by decide)
  obtain ⟨l, k, hp, hres, hout, hnow⟩ := law.2.2 rfl rfl [.network "down", .timeout "slow"]
    [.ofMillis 100, .ofMillis 200] (.ok ()) rfl (fun _ h => by cases h)
  obtain ⟨es, ds, r, hr, hcon⟩ := law.1 rfl l k _ hp hres
  obtain ⟨rfl, hes⟩ := List.cons.inj (hcon.outcomes.symm.trans hout)
  have hlen : es.length = 2 := by simpa using congrArg List.length hes
  refine ⟨_, l, k, hc, hp, hres, hcon.attempts.trans (by rw [hlen]), hnow, ?_⟩
  rw [hcon.reports, hlen]
  rfl

end HubDevice.Kernel
