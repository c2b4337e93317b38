import HubDevice.Proofs.Concurrent.FairLock
import HubDevice.Proofs.Kernel.Step

/-!
# The gate of the kernel

Every operation and every watcher has a stance towards the gate and a scope on the wire, which can be read
off how far it has come. A step of a party is a passage of that party through the gate, keeps to its scope,
and leaves the other parties alone: this is `Movement`, proved here for the steps of every kind of party
(`Task.movement`, `WatchPhase.movement`).
-/

namespace HubDevice

open FairLock

/-- The stance after a step: whatever has a result is outside. -/
def Progress.stance {α β : Type} (f : α → Stance) : Progress α β → Stance
  | .more a => f a
  | .done _ => .outside

namespace Kernel

open Retry Wire

/-! ## Stances -/

def Admission.stance : Admission → Stance
  | .awaitGate => .waiting
  | .readLink => .inside
  | _ => .outside

def Guarded.stance : Guarded → Stance
  | .admission a => a.stance
  | .calling _ => .outside

def Toggling.stance : Toggling → Stance
  | .admission a => a.stance
  | .askGate => .outside
  | .awaitGate => .waiting
  | .check | .calling _ => .inside

def OpenPhase.stance : OpenPhase → Stance
  | .checkDisposed | .checkConnected | .readEpoch | .askGate _ => .outside
  | .awaitGate _ => .waiting
  | _ => .inside

def ClosePhase.stance : ClosePhase → Stance
  | .awaitGate => .waiting
  | .lowerLink | .releasing _ => .inside
  | _ => .outside

def WatchPhase.stance : WatchPhase → Stance
  | .watching | .askGate _ | .ended _ => .outside
  | .awaitGate _ => .waiting
  | _ => .inside

/-- The stance of a run is that of the attempt on its way. -/
def runStance {α : Type} (f : α → Stance) (r : Run α) : Stance :=
  match r.phase with
  | .acting a => f a
  | .pausing _ => .outside

def Task.stance : Task → Stance
  | .ready _ | .ended _ => .outside
  | .opening phase => phase.stance
  | .closing phase => phase.stance
  | .running _ run => runStance Guarded.stance run
  | .toggling _ _ _ run => runStance Toggling.stance run

/-- The session and the phase of every watcher. -/
def posts (k : Kernel) : List (Option SessionId × WatchPhase) := k.watchers.map fun w => (w.session, w.phase)

/-- The stance of a party; a party that is not there is outside. -/
def stance (k : Kernel) : Party → Stance
  | .task i => (k.tasks[i]?.map fun o => o.task.stance).getD .outside
  | .watcher i => (k.posts[i]?.map fun q => q.2.stance).getD .outside

/-! ## Scopes -/

/-- A status that tells of trouble with the connection. -/
def Failing (st : Status) : Prop := st.state = .disconnected ∨ st.state = .retrying

/-- The status of a connection that came up. -/
def Up (st : Status) : Prop := st = ⟨.connected, .connectionOk⟩

theorem failing_statusOf (policy : Policy) (e : ClientError) (final : Bool) :
    Failing (statusOf policy e final) := by
  unfold statusOf
  split
  · exact .inl rfl
  · exact .inl rfl
  · split
    · split
      · exact .inl rfl
      · exact .inr rfl
    · exact .inl rfl

/-- The attempts of an open call report the failures after which they go on. -/
def openScope : Scope := { Recovery.scope with statuses := Failing }

theorem recovery_le_open : Recovery.scope ≤ openScope := ⟨fun _ => id, fun _ => False.elim⟩

def Guarded.scope : Guarded → Scope
  | .admission _ => .nothing
  | .calling _ => .routine

def Toggling.scope : Toggling → Scope
  | .calling _ => .onChannel
  | _ => .nothing

def OpenPhase.scope : OpenPhase → Scope
  | .working _ => openScope
  | .reportUp => { statuses := Up }
  | .reportDown _ => { statuses := Failing }
  | .raiseLink | .conclude _ => { notes := True }
  | _ => .nothing

def ClosePhase.scope : ClosePhase → Scope
  | .dispose => { notes := True }
  | .releasing _ => .closing
  | .reportTrouble => { statuses := fun st => st = ⟨.disconnected, .communicationError⟩ }
  | .reportClosed => { statuses := fun st => st = ⟨.disabled, .clientClosed⟩ }
  | _ => .nothing

def WatchPhase.scope : WatchPhase → Scope
  | .giveUp | .announce _ _ | .reportDown _ => { statuses := Failing }
  | .recovering _ => Recovery.scope
  | .reportUp => { statuses := Up }
  | _ => .nothing

/-- The scope of a run is that of the attempt on its way. -/
def runScope {α : Type} (g : α → Scope) (r : Run α) : Scope :=
  match r.phase with
  | .acting a => g a
  | .pausing _ => .nothing

def Task.scope : Task → Scope
  | .ready _ | .ended _ => .nothing
  | .opening phase => phase.scope
  | .closing phase => phase.scope
  | .running _ run => runScope Guarded.scope run
  | .toggling _ _ _ run => runScope Toggling.scope run

/-- Only calls that open or close the client report anything. -/
theorem Task.reporting {t : Task} {st : Status} (h : t.scope.statuses st) :
    (∃ ph, t = .opening ph ∧ ph.scope.statuses st) ∨ ∃ ph, t = .closing ph ∧ ph.scope.statuses st := by
  cases t with
  | ready | ended => exact h.elim
  | opening ph => exact .inl ⟨ph, rfl, h⟩
  | closing ph => exact .inr ⟨ph, rfl, h⟩
  | running x run =>
    simp only [scope, runScope] at h
    split at h
    · rename_i a _
      cases a <;> exact h.elim
    · exact h.elim
  | toggling f enable edge run =>
    simp only [scope, runScope] at h
    split at h
    · rename_i a _
      cases a <;> exact h.elim
    · exact h.elim

/-- What calls leave for each other is as it was: whether an open call has succeeded, how many attempts were
made and how the last one ended, and whether a close call has begun. -/
structure SameNotes (k k' : Kernel) : Prop where
  opened : k'.opened = k.opened
  epoch : k'.epoch = k.epoch
  lastOpen : k'.lastOpen = k.lastOpen
  disposed : k'.disposed = k.disposed

/-- A task that leaves notes. -/
inductive Task.Notes : Task → Prop where
  | disposes : Notes (.closing .dispose)
  | raises : Notes (.opening .raiseLink)
  | concludes (outcome : Except ClientError Unit) : Notes (.opening (.conclude outcome))

theorem Task.notes_of_scope {t : Task} (h : t.scope.notes) : t.Notes := by
  cases t with
  | ready | ended => exact h.elim
  | opening ph =>
    cases ph with
    | raiseLink => exact .raises
    | conclude outcome => exact .concludes outcome
    | _ => exact h.elim
  | closing ph =>
    cases ph with
    | dispose => exact .disposes
    | _ => exact h.elim
  | running x run =>
    simp only [scope, runScope] at h
    split at h
    · rename_i a _
      cases a <;> exact h.elim
    · exact h.elim
  | toggling f enable edge run =>
    simp only [scope, runScope] at h
    split at h
    · rename_i a _
      cases a <;> exact h.elim
    · exact h.elim

/-! ## What a step of a party touches -/

/-- Within a scope, the transport and the reported status are all that can differ. -/
def Relays (A : Scope) (k k' : Kernel) : Prop :=
  ∃ handler status, k' = { k with handler, status } ∧ k.handler.wire.Touches A handler.wire

theorem Relays.refl {A : Scope} (k : Kernel) : k.Relays A k := ⟨_, _, rfl, Touches.refl _⟩

theorem Relays.trans {A : Scope} {k k' k'' : Kernel} (h : k.Relays A k') (h' : k'.Relays A k'') :
    k.Relays A k'' := by
  obtain ⟨_, _, rfl, ht⟩ := h
  obtain ⟨_, _, rfl, ht'⟩ := h'
  exact ⟨_, _, rfl, ht.trans ht'⟩

theorem Relays.link_eq {A : Scope} {k k' : Kernel} (h : k.Relays A k') : k'.link = k.link := by
  obtain ⟨_, _, rfl, -⟩ := h
  rfl

theorem Relays.touches {A : Scope} {k k' : Kernel} (h : k.Relays A k') :
    k.handler.wire.Touches A k'.handler.wire := by
  obtain ⟨_, _, rfl, ht⟩ := h
  exact ht

theorem Relays.opened_eq {A : Scope} {k k' : Kernel} (h : k.Relays A k') : k'.opened = k.opened := by
  obtain ⟨_, _, rfl, -⟩ := h
  rfl

theorem Relays.features_eq {A : Scope} {k k' : Kernel} (h : k.Relays A k') : k'.features = k.features := by
  obtain ⟨_, _, rfl, -⟩ := h
  rfl

theorem relays_of_touches {A : Scope} (k : Kernel) {handler : Handler}
    (h : k.handler.wire.Touches A handler.wire) : k.Relays A { k with handler } := ⟨_, _, rfl, h⟩

theorem relays_report {A : Scope} (k : Kernel) {state : ConnectionState} {reason : StatusReason}
    (h : A.statuses ⟨state, reason⟩) : k.Relays A (k.report state reason) :=
  ⟨_, _, rfl, (Touch.reported h).touches⟩

theorem relays_reportFailure (k : Kernel) (e : ClientError) (final : Bool) :
    k.Relays { statuses := Failing } (k.reportFailure e final) :=
  relays_report k (failing_statusOf k.policy e final)

theorem relays_of_lift {A : Scope} {α β : Type} {k k' : Kernel} {st : Step Handler α β}
    {pr : Progress α β} (h : k.liftHandler st = some (k', pr))
    (ht : ∀ {handler}, st = some (handler, pr) → k.handler.wire.Touches A handler.wire) :
    k.Relays A k' := by
  obtain ⟨_, hs, rfl⟩ := liftHandler_eq_some h
  exact relays_of_touches k (ht hs)

/-- Bringing the connection up is done by the transport alone. -/
theorem keeps_relays {A : Scope} (hA : Recovery.scope ≤ A) (k₀ : Kernel) (fs : Features) (c : Bool)
    {granted : Kernel → ClientError → Kernel} (hg : ∀ k e, Relays A k (granted k e)) :
    Run.Keeps (recovery fs c granted) (Relays A k₀) (fun _ => Relays A k₀) (Relays A k₀) := by
  have stepped : ∀ {k k' : Kernel} {a : Recovery} {pr}, Relays A k₀ k →
      (recovery fs c granted).step k a = some (k', pr) → Relays A k₀ k' := by
    intro k k' a pr h hs
    exact h.trans (relays_of_lift hs fun he => (Recovery.touches_step he).mono hA)
  exact {
    start := id
    abandon := fun {k a} h => h.trans (relays_of_touches k (a.uses_abandon k.handler).touches)
    granted := fun e _ _ h => h.trans (hg _ e)
    more := stepped
    ok := stepped
    error := stepped }

theorem relays_of_turn {A : Scope} (hA : Recovery.scope ≤ A) {k k' : Kernel} {fs : Features} {c c' : Bool}
    {granted : Kernel → ClientError → Kernel} (hg : ∀ k e, Relays A k (granted k e)) {r : Run Recovery}
    {pr : Progress (Run Recovery) (Except ClientError Unit)}
    (h : Run.Turn (recovery fs c granted) c' k r k' pr) : k.Relays A k' := by
  have hr : r.Holds (Relays A k) (fun _ => Relays A k) k := by
    unfold Run.Holds
    split <;> exact Relays.refl k
  have ha := h.keeps (keeps_relays hA k fs c hg) hr
  have busy : ∀ {k'} {r' : Run Recovery}, r'.Holds (Relays A k) (fun _ => Relays A k) k' →
      Relays A k k' := by
    intro k' r' h
    unfold Run.Holds at h
    split at h <;> exact h
  cases pr with
  | more r' => exact busy ha
  | done v => cases v <;> exact ha

theorem relays_abandon {A : Scope} (k : Kernel) (x : Action Kernel Recovery Unit) (r : Run Recovery)
    (hx : ∀ k a, Relays A k (x.abandon k a)) : k.Relays A (r.abandon x k) := by
  unfold Run.abandon
  split
  · exact hx _ _
  · exact Relays.refl k

/-- What a step of a party within a scope does to the gate and to what all parties share: it is a passage
of the party; no operation, token or policy changes; what has been told to stop stays so; and watchers are
left as they are, apart from a new one, and from being dismissed when everything is over. -/
structure Movement (p : Party) (A : Scope) (k : Kernel) (s : Stance) (k' : Kernel) (s' : Stance) :
    Prop where
  gate : Passage p k.gate s k'.gate s'
  tasks : k'.tasks = k.tasks
  fired : k'.fired = k.fired
  policy : k'.policy = k.policy
  opened : k.opened = true → k'.opened = true
  notes : ¬ A.notes → SameNotes k k'
  disposed : k.disposed = true → k'.disposed = true
  lifetimeOver : k.lifetimeOver = true → k'.lifetimeOver = true
  wire : k.handler.wire.Touches A k'.handler.wire
  watchers : (∃ new, k'.watchers = k.watchers ++ new ∧
      ∀ w ∈ new, w.stopped = false ∧ w.phase = .watching) ∨
    (k.lifetimeOver = true ∧ k'.watchers = k.dismissWatcher.watchers)

namespace Movement

variable {p : Party} {A : Scope} {k k' : Kernel} {s s' : Stance}

/-- A passage by which nothing changes but the link, the features and the notes, and what has been told to stop
stays so. -/
theorem changes {gate : FairLock Party} {link : LinkState} {connected opened disposed lifetimeOver : Bool}
    {features : Features} {lastOpen : Option (Except ClientError Unit)} {epoch : Nat}
    (hg : Passage p k.gate s gate s') (ho : k.opened = true → opened = true)
    (hd : k.disposed = true → disposed = true) (hl : k.lifetimeOver = true → lifetimeOver = true)
    (hn : ¬ A.notes → opened = k.opened ∧ epoch = k.epoch ∧ lastOpen = k.lastOpen ∧ disposed = k.disposed) :
    Movement p A k s
      { k with gate, link, connected, opened, features, lastOpen, epoch, disposed, lifetimeOver } s' where
  gate := hg
  tasks := rfl
  fired := rfl
  policy := rfl
  opened := ho
  notes hA := ⟨(hn hA).1, (hn hA).2.1, (hn hA).2.2.1, (hn hA).2.2.2⟩
  disposed := hd
  lifetimeOver := hl
  wire := Touches.refl _
  watchers := .inl ⟨[], (List.append_nil _).symm, List.forall_mem_nil _⟩

/-- A passage by which nothing changes but the link and the features. -/
theorem passes {gate : FairLock Party} {link : LinkState} {connected : Bool} {features : Features}
    (hg : Passage p k.gate s gate s') : Movement p A k s { k with gate, link, connected, features } s' :=
  changes hg id id id fun _ => ⟨rfl, rfl, rfl, rfl⟩

theorem rests (p : Party) (A : Scope) (k : Kernel) (s : Stance) : Movement p A k s k s := passes (.stay s)

theorem of_relays (h : k.Relays A k') : Movement p A k s k' s := by
  obtain ⟨_, _, rfl, ht⟩ := h
  exact { rests p A k s with notes := fun _ => ⟨rfl, rfl, rfl, rfl⟩, wire := ht }

/-- A passage after the transport has done something. -/
theorem relayed {k₁ : Kernel} (h : k.Relays A k₁) (hm : Movement p A k₁ s k' s') :
    Movement p A k s k' s' := by
  obtain ⟨_, _, rfl, ht⟩ := h
  refine { hm with notes := fun hn => { hm.notes hn with }, wire := ht.trans hm.wire, watchers := ?_ }
  rcases hm.watchers with hn | ⟨hl, hd⟩
  · exact .inl hn
  · refine .inr ⟨hl, hd.trans ?_⟩
    unfold dismissWatcher
    split <;> simp_all

end Movement

theorem posts_spawnWatcher (k : Kernel) :
    k.spawnWatcher.posts = k.posts ++ [(k.handler.slot, .watching)] := by
  simp [posts, spawnWatcher]

theorem posts_dismissWatcher (k : Kernel) : k.dismissWatcher.posts = k.posts := by
  unfold dismissWatcher
  split
  · rfl
  · apply List.ext_getElem?
    intro i
    simp only [posts, List.getElem?_map, List.getElem?_modify]
    cases k.watchers[i]? with
    | none => rfl
    | some w => split <;> rfl

theorem movement_spawnWatcher {p : Party} {A : Scope} (k : Kernel) (s : Stance) :
    Movement p A k s k.spawnWatcher s :=
  { Movement.rests p A k s with
    notes := fun _ => ⟨rfl, rfl, rfl, rfl⟩
    watchers := .inl ⟨_, rfl, by simp⟩ }

theorem movement_dismissWatcher {p : Party} {A : Scope} {k : Kernel} (h : k.lifetimeOver = true)
    (s : Stance) : Movement p A k s k.dismissWatcher s := by
  have hw : k.dismissWatcher.watchers = k.dismissWatcher.watchers := rfl
  revert hw
  generalize hk : k.dismissWatcher.watchers = ws
  unfold dismissWatcher
  split
  · intro _
    exact .passes (.stay s)
  · rename_i i hi
    intro _
    refine { Movement.rests p A k s with
      notes := fun _ => ⟨rfl, rfl, rfl, rfl⟩
      watchers := .inr ⟨h, ?_⟩ }
    simp [dismissWatcher, hi]

/-- Watchers that are dismissed or new leave the posts of the others. -/
theorem Movement.posts {p : Party} {A : Scope} {k k' : Kernel} {s s' : Stance}
    (h : Movement p A k s k' s') :
    ∃ new, k'.posts = k.posts ++ new ∧ ∀ q ∈ new, q.2 = .watching := by
  rcases h.watchers with ⟨new, hw, hn⟩ | ⟨-, hw⟩
  · refine ⟨new.map fun w => (w.session, w.phase), by simp [Kernel.posts, hw], ?_⟩
    intro q hq
    obtain ⟨w, hm, rfl⟩ := List.mem_map.mp hq
    exact (hn w hm).2
  · refine ⟨[], ?_, by simp⟩
    rw [List.append_nil, ← posts_dismissWatcher k]
    simp only [Kernel.posts, hw]

/-! ## Steps of operations -/

variable {p : Party} {k k' : Kernel}

theorem Admission.movement {a : Admission} {pr : Progress Admission (Except ClientError Unit)}
    (h : a.Turn p k k' pr) : Movement p .nothing k a.stance k' (pr.stance Admission.stance) := by
  cases h with
  | refused | admitted | connected | unconnected => exact .passes (.stay _)
  | asked => exact .passes .ask
  | entered hh => exact .passes (.enter hh)
  | read => exact .passes .leave

theorem Admission.movement_abandon (a : Admission) :
    Movement p .nothing k a.stance (a.abandon p k) .outside := by
  cases a with
  | awaitGate => exact .passes .giveUp
  | readLink => exact .passes .breakOff
  | _ => exact .passes (.stay _)

theorem Guarded.movement {x : Exchange} {a : Guarded} {pr : Progress Guarded (Except ClientError Reply)}
    (h : a.step x p k = some (k', pr)) :
    Movement p a.scope k a.stance k' (pr.stance Guarded.stance) := by
  cases turn_of_step h with
  | admitting ht | admitted ht | refused ht => exact Admission.movement ht
  | calling hf | returned hf => exact .of_relays (relays_of_touches k (Forward.uses_step hf).touches)

theorem Guarded.movement_abandon (a : Guarded) :
    Movement p a.scope k a.stance (a.abandon p k) .outside := by
  cases a with
  | admission a => exact a.movement_abandon
  | calling f => exact .of_relays (relays_of_touches k (f.uses_abandon k.handler).touches)

theorem Toggling.movement {f : Feature} {enable edge : Bool} {a : Toggling}
    {pr : Progress Toggling (Except ClientError Reply)}
    (h : a.step f enable edge p k = some (k', pr)) :
    Movement p a.scope k a.stance k' (pr.stance Toggling.stance) := by
  have subscribing : ∀ {g : Subscribing} {handler : Handler} {pr}, g.step k.handler = some (handler, pr) →
      k.Relays .onChannel { k with handler } := by
    intro g handler pr hg
    exact relays_of_touches k (Subscribing.uses_step hg).touches
  cases turn_of_step h with
  | admitting ht | admitted ht | refused ht => exact Admission.movement ht
  | asked => exact .passes .ask
  | entered hh => exact .passes (.enter hh)
  | unusable | pointless => exact .passes .leave
  | began => exact .passes (.stay _)
  | calling hg => exact .of_relays (subscribing hg)
  | changed hg | failed hg => exact .relayed (subscribing hg) (.passes .leave)

theorem Toggling.movement_abandon (a : Toggling) :
    Movement p a.scope k a.stance (a.abandon p k) .outside := by
  cases a with
  | admission a => exact a.movement_abandon
  | askGate => exact .passes (.stay _)
  | awaitGate => exact .passes .giveUp
  | check => exact .passes .breakOff
  | calling g =>
    have hr := relays_of_touches k (g.uses_abandon (A := .onChannel) k.handler).touches
    exact .relayed hr (.passes .breakOff)

/-- The run of an action moves as the action does; between two attempts it is outside. -/
theorem movement_of_turn {α β : Type} {x : Action Kernel α β} {f : α → Stance} {g : α → Scope}
    (step : ∀ {k k' a pr}, x.step k a = some (k', pr) → Movement p (g a) k (f a) k' (pr.stance f))
    (abandon : ∀ k a, Movement p (g a) k (f a) (x.abandon k a) .outside)
    (granted : ∀ k e n d, x.granted k e n d = k) (start : f x.start = .outside)
    {c : Bool} {r : Run α} {pr : Progress (Run α) (Except ClientError β)}
    (h : Run.Turn x c k r k' pr) :
    Movement p (runScope g r) k (runStance f r) k' (pr.stance (runStance f)) := by
  have resting : ∀ {ph : Retry.Phase α} {r' : Run α}, r'.phase = ph →
      (ph = .acting x.start ∨ ∃ t, ph = .pausing t) → runStance f r' = .outside := by
    rintro _ r' hr (rfl | ⟨t, rfl⟩)
    · simp [runStance, hr, start]
    · simp [runStance, hr]
  cases h with
  | cancelledActing _ hp =>
    simp only [runStance, runScope, hp]
    exact abandon _ _
  | cancelledPausing _ hp =>
    rw [resting hp (.inr ⟨_, rfl⟩)]
    exact .passes (.stay _)
  | advanced hp hs | succeeded _ hp hs | failed hp hs =>
    simp only [runStance, runScope, hp]
    exact step hs
  | @retried _ e k₁ delay hp hs =>
    have hm : Movement p _ k _ _ .outside := step hs
    rw [granted]
    have hr : runStance f ⟨r.policy, nextAttempt r.attempt, Run.awaiting x k₁ delay⟩ = .outside :=
      resting rfl (Run.awaiting_cases x k₁ delay)
    rw [Progress.stance, hr]
    simpa only [runStance, runScope, hp] using hm
  | resumed hp =>
    rw [resting hp (.inr ⟨_, rfl⟩), Progress.stance, resting rfl (.inl rfl)]
    exact .passes (.stay _)

/-! ## Attempts to bring the connection up -/

theorem relays_granted (k : Kernel) (e : ClientError) : k.Relays openScope (k.reportFailure e false) :=
  relays_report k (failing_statusOf k.policy e false)

theorem relays_worked {token : Nat} {k₀ : Kernel} {c : Bool} {run : Run Recovery}
    {q : Progress (Run Recovery) (Except ClientError Unit)}
    (h : Run.Turn (openAction k₀ token) c k run k' q) : k.Relays openScope k' :=
  relays_of_turn recovery_le_open relays_granted h

theorem relays_overtaken (k₀ k : Kernel) (token : Nat) (run : Run Recovery) :
    k.Relays openScope (run.abandon (openAction k₀ token) k) :=
  relays_abandon k _ run fun k a => relays_of_touches k (a.uses_abandon k.handler).touches

theorem relays_recovering {k₀ : Kernel} {w : Watcher} {c : Bool} {run : Run Recovery}
    {q : Progress (Run Recovery) (Except ClientError Unit)}
    (h : Run.Turn (watcherAction k₀ w) c k run k' q) : k.Relays Recovery.scope k' :=
  relays_of_turn (Scope.le_refl _) (fun k _ => Relays.refl k) h

theorem OpenPhase.stance_afterTurn (q : Progress (Run Recovery) (Except ClientError Unit)) :
    (afterTurn q).stance = .inside := by
  unfold afterTurn
  split <;> rfl

/-! ## Phases -/

theorem OpenPhase.movement {token : Nat} {ph : OpenPhase}
    {pr : Progress OpenPhase (Except ClientError Unit)} (h : ph.step token p k = some (k', pr)) :
    Movement p ph.scope k ph.stance k' (pr.stance OpenPhase.stance) := by
  cases turn_of_step h with
  | refused | admitted | connected | unconnected | read | cancelled => exact .passes (.stay _)
  | asked => exact .passes .ask
  | gaveUp => exact .passes .giveUp
  | entered hh => exact .passes (.enter hh)
  | refusedInside | found | shared => exact .passes .leave
  | admittedInside | own | late | began => exact .passes (.stay _)
  | overtaken => exact .of_relays (relays_overtaken k k token _)
  | worked _ ht =>
    rw [Progress.stance, stance_afterTurn]
    exact .of_relays (relays_worked ht)
  | raised => exact .changes (.stay _) (fun _ => rfl) id id fun h => absurd trivial h
  | watched => exact movement_spawnWatcher k _
  | reportedUp => exact .of_relays (relays_report k rfl)
  | reportedDown => exact .of_relays (relays_reportFailure k _ _)
  | concluded => exact .changes .leave id id id fun h => absurd trivial h

theorem ClosePhase.movement {ph : ClosePhase} {pr : Progress ClosePhase (Except ClientError Unit)}
    (hl : ph = .stopWatcher → k.lifetimeOver = true) (h : ph.step p k = some (k', pr)) :
    Movement p ph.scope k ph.stance k' (pr.stance ClosePhase.stance) := by
  have closing : ∀ {c : Closing} {handler : Handler} {pr}, c.step k.handler = some (handler, pr) →
      k.Relays .closing { k with handler } := by
    intro c handler pr hc
    exact relays_of_touches k (Closing.slot_step hc).1
  cases turn_of_step h with
  | already => exact .passes (.stay _)
  | disposed => exact .changes (.stay _) id (fun _ => rfl) id fun h => absurd trivial h
  | lifetimeEnded => exact .changes (.stay _) id id (fun _ => rfl) fun _ => ⟨rfl, rfl, rfl, rfl⟩
  | asked => exact .passes .ask
  | entered hh => exact .passes (.enter hh)
  | lowered => exact .passes (.stay _)
  | loweredUnopened => exact .passes .leave
  | releasing hc => exact .of_relays (closing hc)
  | released hc | troubled hc => exact .relayed (closing hc) (.passes .leave)
  | reportedTrouble | reportedClosed => exact .of_relays (relays_report k rfl)
  | unwatched => exact .passes (.stay _)
  | dismissed => exact movement_dismissWatcher (hl rfl) _
  | joined => exact .passes (.stay _)

theorem WatchPhase.movement {w : Watcher} {ph ph' : WatchPhase} (h : ph.step p k w = some (k', ph')) :
    Movement p ph.scope k ph.stance k' ph'.stance := by
  cases turn_of_step h with
  | stopped | heard | stoppedAsking => exact .passes (.stay _)
  | asked => exact .passes .ask
  | gaveUp => exact .passes .giveUp
  | entered hh => exact .passes (.enter hh)
  | foundClosed | stoppedPausing => exact .passes .leave
  | lowered | declined | granted | resumed | raised => exact .passes (.stay _)
  | expired => exact .relayed (relays_report k (.inl rfl)) (.passes .leave)
  | announced | paused => exact .of_relays (relays_report k (.inr rfl))
  | worked ht hq =>
    have hr := relays_recovering ht
    cases hq with
    | goesOn | restored => exact .of_relays hr
    | stopped => exact .relayed hr (.passes .leave)
    | failed => exact .relayed hr (.passes (.stay _))
  | watched => exact movement_spawnWatcher k _
  | reportedUp => exact .relayed (relays_report k rfl) (.passes .leave)
  | reportedDown => exact .relayed (relays_reportFailure k _ _) (.passes .leave)

theorem ofPart_eq_some {α β : Type} {wrap : α → Task} {value : β → Reply}
    {st : Step Kernel α (Except ClientError β)} {t : Task} (h : ofPart wrap value st = some (k', t)) :
    ∃ pr, st = some (k', pr) ∧ t = match pr with
      | .more a => wrap a
      | .done r => .ended (r.map value) := by
  obtain ⟨⟨k₁, pr⟩, hs, he⟩ := Option.map_eq_some_iff.mp h
  obtain ⟨rfl, rfl⟩ := Prod.mk.inj he
  exact ⟨pr, hs, rfl⟩

/-- A task whose part moves moves with it. -/
theorem movement_ofPart {A : Scope} {α β : Type} {wrap : α → Task} {value : β → Reply} {f : α → Stance}
    (hw : ∀ a, (wrap a).stance = f a) {s : Stance} {st : Step Kernel α (Except ClientError β)} {t : Task}
    (hm : ∀ {pr}, st = some (k', pr) → Movement p A k s k' (pr.stance f))
    (h : ofPart wrap value st = some (k', t)) : Movement p A k s k' t.stance := by
  obtain ⟨pr, hs, rfl⟩ := ofPart_eq_some h
  cases pr with
  | more a =>
    dsimp only
    rw [hw]
    exact hm hs
  | done r => exact hm hs

theorem Task.movement {token : Nat} {t t' : Task}
    (hl : t = .closing .stopWatcher → k.lifetimeOver = true) (h : t.step token p k = some (k', t')) :
    Movement p t.scope k t.stance k' t'.stance := by
  cases t with
  | ready request => cases request <;> cases h <;> exact .passes (.stay _)
  | opening ph => exact movement_ofPart (fun _ => rfl) OpenPhase.movement h
  | closing ph =>
    exact movement_ofPart (fun _ => rfl) (ClosePhase.movement fun he => hl (congrArg Task.closing he)) h
  | running x run =>
    refine movement_ofPart (fun _ => rfl) (fun hs => ?_) h
    exact movement_of_turn Guarded.movement (fun _ a => a.movement_abandon) (fun _ _ _ _ => rfl) rfl
      (Run.turn_of_step hs)
  | toggling f enable edge run =>
    refine movement_ofPart (fun _ => rfl) (fun hs => ?_) h
    exact movement_of_turn Toggling.movement (fun _ a => a.movement_abandon) (fun _ _ _ _ => rfl) rfl
      (Run.turn_of_step hs)
  | ended result => cases h

end Kernel

end HubDevice
