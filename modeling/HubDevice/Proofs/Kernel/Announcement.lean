import HubDevice.Proofs.Kernel.Replay

/-!
# Announcing a connection

The regime of the record of control calls. No control call is unsettled while nobody is at work (`Quiet`),
so that whoever brings the connection up has the record to itself, and what is announced at the end is a
complete attempt with the features of that moment (`announced_rebuilt`). Features change only where a change
of a subscription has succeeded, never while the connection is brought up (`features_of_works`).
-/

namespace HubDevice.Kernel

open FairLock Retry Wire

variable {A : Scope} {p : Party} {k k' : Kernel}

/-- No control call is unsettled. -/
structure Quiet (k : Kernel) : Prop where
  numbered : k.handler.wire.Numbered
  owned : k.handler.wire.Owned []

/-- At most one control call is unsettled. -/
structure Awaiting (id : CallId) (k : Kernel) : Prop where
  numbered : k.handler.wire.Numbered
  owned : k.handler.wire.Owned [id]

/-- A run of attempts, as the record shows it. -/
def Tracing (fs : Features) (run : Run Recovery) (k : Kernel) : Prop :=
  run.Holds Quiet (fun a k => k.handler.wire.Numbered ∧ a.Traced fs k.handler) k

/-- The connection has been brought up, and nothing else was done since. -/
def Ready (k : Kernel) : Prop := k.Quiet ∧ Recovery.Complete k.features k.handler

def OpenPhase.OnRecord (k : Kernel) : OpenPhase → Prop
  | .working run => k.Tracing k.features run
  | .raiseLink | .startWatcher | .reportUp => k.Ready
  | _ => k.Quiet

def ClosePhase.OnRecord (k : Kernel) : ClosePhase → Prop
  | .releasing (.closing id) => k.Awaiting id
  | _ => k.Quiet

def onRecord (k : Kernel) : Subscribing → Prop
  | .start _ _ => k.Quiet
  | .waiting id => k.Awaiting id

def WatchPhase.OnRecord (k : Kernel) : WatchPhase → Prop
  | .recovering run => k.Tracing k.features run
  | .raiseLink | .startWatcher | .reportUp => k.Ready
  | _ => k.Quiet

def recordRegime : Regime where
  settled := Quiet
  opening ph k := ph.OnRecord k
  closing ph k := ph.OnRecord k
  toggling _ _ _ g k := k.onRecord g
  watching _ ph k := ph.OnRecord k

/-! ## What others do -/

theorem Quiet.touches (hk : k.Quiet) (ht : k.handler.wire.Touches A k'.handler.wire)
    (hA : ∀ r, A.calls r → r.Routine) : k'.Quiet :=
  ⟨ht.numbered hk.numbered, ht.owned hA hk.owned⟩

theorem Awaiting.touches {id : CallId} (hk : k.Awaiting id)
    (ht : k.handler.wire.Touches A k'.handler.wire) (hA : ∀ r, A.calls r → r.Routine) : k'.Awaiting id :=
  ⟨ht.numbered hk.numbered, ht.owned hA hk.owned⟩

theorem Ready.touches (hk : k.Ready) (hf : k'.features = k.features)
    (hs : k'.handler.slot = k.handler.slot) (ht : k.handler.wire.Touches A k'.handler.wire)
    (hA : ∀ r, A.calls r → r.Routine) : k'.Ready := by
  obtain ⟨hq, ho, s, attempt, rest, hslot, hc, hr⟩ := hk
  obtain ⟨ho', hc'⟩ := ht.control_eq hA ho
  exact ⟨hq.touches ht hA, ho', s, attempt, rest, hs.trans hslot, hc'.trans hc, hf.symm ▸ hr⟩

/-- The call was settled or given up. -/
theorem Awaiting.abandon {id : CallId} (hk : k.Awaiting id) :
    Quiet { k with handler := k.handler.abandon id } :=
  ⟨(Handler.uses_abandon (A := .nothing) k.handler id).touches.numbered hk.numbered, hk.owned.abandon⟩

theorem Quiet.of_handler (hk : k.Quiet) (h : k'.handler = k.handler) : k'.Quiet :=
  ⟨h.symm ▸ hk.numbered, h.symm ▸ hk.owned⟩

theorem Ready.of_handler (hk : k.Ready) (hf : k'.features = k.features) (h : k'.handler = k.handler) :
    k'.Ready := by
  unfold Ready at hk ⊢
  rw [hf, h]
  exact ⟨hk.1.of_handler h, hk.2⟩

theorem Relays.quiet (h : k.Relays A k') (hk : k.Quiet) (hA : ∀ r, A.calls r → r.Routine) : k'.Quiet := by
  obtain ⟨_, _, rfl, ht⟩ := h
  exact hk.touches ht hA

theorem Recovery.Traced.touches {fs : Features} {h h' : Handler} {a : Recovery} (ha : a.Traced fs h)
    (hs : h'.slot = h.slot) (ht : h.wire.Touches A h'.wire) (hA : ∀ r, A.calls r → r.Routine) :
    a.Traced fs h' := by
  have moved : ∀ {w}, h.wire.Touches A w → a.Traced fs { h with wire := w } := by
    intro w ht
    induction ht with
    | refl => exact ha
    | tail _ ht ih => exact Recovery.Traced.touch ih rfl ht hA
  have hm := moved ht
  cases a with
  | opening o => cases o <;> exact hm
  | replaying ps =>
    obtain ⟨s, hp⟩ := hm
    exact ⟨s, hs.trans hp.slot, hp.owned, hp.nodup, hp.record⟩

theorem Tracing.touches {fs : Features} {run : Run Recovery} (hk : k.Tracing fs run)
    (hs : k'.handler.slot = k.handler.slot) (ht : k.handler.wire.Touches A k'.handler.wire)
    (hA : ∀ r, A.calls r → r.Routine) : k'.Tracing fs run := by
  unfold Tracing Run.Holds at hk ⊢
  split at hk
  · exact ⟨ht.numbered hk.1, hk.2.touches hs ht hA⟩
  · exact hk.touches ht hA

/-! ## Attempts -/

variable {fs : Features} {c c' : Bool} {granted : Kernel → ClientError → Kernel}

theorem keeps_tracing (hg : ∀ k e, Relays { statuses := fun _ => True } k (granted k e)) :
    Run.Keeps (recovery fs c granted) Quiet (fun a k => k.handler.wire.Numbered ∧ a.Traced fs k.handler)
      (fun k => k.Quiet ∧ Recovery.Complete fs k.handler) where
  start hk := ⟨hk.numbered, hk.owned⟩
  abandon {k a} hk := ⟨(a.uses_abandon k.handler (A := .nothing)).touches.numbered hk.1, hk.2.owned_abandon⟩
  granted {k} e _ _ hk := (hg k e).quiet hk fun _ => False.elim
  more hk hs := by
    obtain ⟨_, he, rfl⟩ := liftHandler_eq_some hs
    exact ⟨(Recovery.touches_step he).numbered hk.1, hk.2.step hk.1 he⟩
  ok hk hs := by
    obtain ⟨_, he, rfl⟩ := liftHandler_eq_some hs
    have hl := hk.2.step hk.1 he
    exact ⟨⟨(Recovery.touches_step he).numbered hk.1, hl.1⟩, hl⟩
  error hk hs := by
    obtain ⟨_, he, rfl⟩ := liftHandler_eq_some hs
    exact ⟨(Recovery.touches_step he).numbered hk.1, hk.2.step hk.1 he⟩

theorem Quiet.tracing (hk : k.Quiet) (x : Action Kernel Recovery Unit) (hx : x.start = .opening .start)
    (policy : Policy) (n : Nat) : k.Tracing fs (.ofPolicy x policy n) := by
  simp only [Tracing, Run.Holds, Run.ofPolicy, hx]
  exact ⟨hk.numbered, hk.owned⟩

theorem Tracing.turn {run : Run Recovery} {q : Progress (Run Recovery) (Except ClientError Unit)}
    (hk : k.Tracing fs run) (hg : ∀ k e, Relays { statuses := fun _ => True } k (granted k e))
    (h : Run.Turn (recovery fs c granted) c' k run k' q) :
    q.Leaves (fun run' => k'.Tracing fs run') (k'.Quiet ∧ Recovery.Complete fs k'.handler) k'.Quiet :=
  h.keeps (keeps_tracing hg) hk

theorem Tracing.abandon {run : Run Recovery} (hk : k.Tracing fs run)
    (granted : Kernel → ClientError → Kernel) : (run.abandon (recovery fs c granted) k).Quiet := by
  unfold Tracing Run.Holds at hk
  unfold Run.abandon
  split
  · rename_i a hp
    rw [hp] at hk
    exact ⟨(a.uses_abandon k.handler (A := .nothing)).touches.numbered hk.1, hk.2.owned_abandon⟩
  · rename_i t hp
    rw [hp] at hk
    exact hk

/-! ## Open calls -/

theorem OpenPhase.record_step {token : Nat} {ph : OpenPhase}
    {pr : Progress OpenPhase (Except ClientError Unit)} (hi : ph.stance = .inside) (hk : ph.OnRecord k)
    (h : ph.step token p k = some (k', pr)) :
    pr.Leaves (fun ph' => recordRegime.opener ph' k') k'.Quiet k'.Quiet := by
  have reported : ∀ {state reason}, k.Quiet → (k.report state reason).Quiet := fun hq =>
    hq.touches (Touch.reported (A := { statuses := fun _ => True }) trivial).touches fun _ => False.elim
  cases turn_of_step h with
  | refusedInside | admittedInside | found => exact Quiet.of_handler hk rfl
  | @shared _ outcome => cases outcome <;> exact Quiet.of_handler hk rfl
  | own | late => exact hk
  | began => exact Quiet.tracing hk (openAction k token) rfl k.policy 0
  | overtaken => exact Tracing.abandon hk _
  | @worked _ _ q _ ht =>
    have hq := Tracing.turn hk (fun k e => relays_report k trivial) ht
    rw [← (relays_worked ht).features_eq] at hq
    cases q with
    | more run' => exact hq
    | done r =>
      cases r with
      | ok v => exact hq
      | error e => cases e <;> exact hq
  | raised | watched => exact Ready.of_handler hk rfl rfl
  | reportedUp => exact reported hk.1
  | reportedDown => exact reported hk
  | @concluded outcome => cases outcome <;> exact Quiet.of_handler hk rfl
  | _ => cases hi

/-! ## Closings and changes of subscriptions -/

theorem Closing.record_step {c : Closing} {handler : Handler} {pr : Progress Closing (Except ClientError Unit)}
    (hk : (ClosePhase.releasing c).OnRecord k) (h : c.step k.handler = some (handler, pr)) :
    pr.Leaves (fun c' => (ClosePhase.releasing c').OnRecord { k with handler }) (Quiet { k with handler })
      (Quiet { k with handler }) := by
  cases c with
  | start =>
    have hq : k.Quiet := hk
    have hw := Handler.stopRefresher_wire k.handler
    have hq' : Quiet { k with handler := k.handler.stopRefresher } := by
      refine ⟨?_, ?_⟩ <;> dsimp only <;> rw [hw]
      · exact hq.numbered
      · exact hq.owned
    simp only [Closing.step] at h
    split at h <;> cases h
    · exact hq'
    · rename_i s _
      have ht := Handler.touches_call (A := .closing) { k.handler.stopRefresher with slot := none }
        (r := .close s) ⟨s, rfl⟩
      have hown := hq'.owned.call (.close s)
      rw [Handler.call_id]
      exact ⟨ht.numbered hq'.numbered, hown⟩
  | closing id =>
    have hq : k.Awaiting id := hk
    obtain ⟨⟨h₁, o⟩, ht, he⟩ := Option.map_eq_some_iff.mp h
    cases he
    obtain ⟨rfl, -⟩ := Handler.take?_eq_some ht
    cases o <;> exact hq.abandon

theorem ClosePhase.record_step {ph : ClosePhase} {pr : Progress ClosePhase (Except ClientError Unit)}
    (hi : ph.stance = .inside) (hk : ph.OnRecord k) (h : ph.step p k = some (k', pr)) :
    pr.Leaves (fun ph' => recordRegime.closer ph' k') k'.Quiet k'.Quiet := by
  cases turn_of_step h with
  | lowered | loweredUnopened => exact Quiet.of_handler hk rfl
  | releasing hc => exact Closing.record_step hk hc
  | released hc | troubled hc => exact Quiet.of_handler (Closing.record_step hk hc) rfl
  | _ => cases hi

theorem Subscribing.record_step {g : Subscribing} {handler : Handler}
    {pr : Progress Subscribing (Except ClientError Unit)} (hk : k.onRecord g)
    (h : g.step k.handler = some (handler, pr)) :
    pr.Leaves (fun g' => onRecord { k with handler } g') (Quiet { k with handler }) (Quiet { k with handler }) := by
  cases Subscribing.turn_of_step h with
  | @asked on c s _ =>
    have hq : k.Quiet := hk
    have ht := Handler.touches_call k.handler (Subscribing.onChannel_request on s c) (A := .onChannel)
    exact ⟨ht.numbered hq.numbered, hq.owned.call (Subscribing.request on s c)⟩
  | vacant => exact hk
  | confirmed | refused => exact Awaiting.abandon hk

theorem Toggling.record_step {f : Feature} {enable edge : Bool} {g : Subscribing}
    {pr : Progress Toggling (Except ClientError Reply)} (hk : k.onRecord g)
    (h : Toggling.step f enable edge p k (.calling g) = some (k', pr)) :
    pr.Leaves (fun a => recordRegime.toggler f enable edge a k') k'.Quiet k'.Quiet := by
  cases turn_of_step h with
  | calling hg => exact Subscribing.record_step hk hg
  | changed hg | failed hg => exact Quiet.of_handler (Subscribing.record_step hk hg) rfl

theorem Toggling.record_abandon {g : Subscribing} (hk : k.onRecord g) :
    (Toggling.abandon p k (.calling g)).Quiet := by
  cases g with
  | start on c => exact Quiet.of_handler hk rfl
  | waiting id => exact (Awaiting.abandon hk).of_handler rfl

/-! ## Watchers -/

theorem WatchPhase.record_step {i : Nat} {w : Watcher} {ph ph' : WatchPhase}
    (hi : ph.stance = .inside) (hk : ph.OnRecord k) (h : ph.step p k w = some (k', ph')) :
    recordRegime.watcher i ph' (k'.setPhase i ph') := by
  have reported : ∀ {state reason}, k.Quiet → (k.report state reason).Quiet := fun hq =>
    hq.touches (Touch.reported (A := { statuses := fun _ => True }) trivial).touches fun _ => False.elim
  cases turn_of_step h with
  | foundClosed | lowered | declined | granted | stoppedPausing => exact Quiet.of_handler hk rfl
  | expired | paused | reportedDown => exact (reported hk).of_handler rfl
  | @announced policy =>
    exact Quiet.tracing ((reported hk).of_handler rfl) (watcherAction (k.report _ _) w) rfl policy 1
  | @resumed policy => exact Quiet.tracing (Quiet.of_handler hk rfl) (watcherAction k w) rfl policy 1
  | worked ht hq =>
    have hl := Tracing.turn hk (fun k e => Relays.refl k) ht
    rw [← (relays_recovering ht).features_eq] at hl
    cases hq with
    | goesOn run' => exact Tracing.touches (A := .nothing) hl rfl (Touches.refl _) fun _ => False.elim
    | restored => exact Ready.of_handler hl rfl rfl
    | stopped r hs =>
      cases r with
      | ok v => exact hl.1.of_handler rfl
      | error e => exact Quiet.of_handler hl rfl
    | failed e => exact Quiet.of_handler hl rfl
  | raised | watched => exact Ready.of_handler hk rfl rfl
  | reportedUp => exact (reported hk.1).of_handler rfl
  | _ => cases hi

/-! ## The regime is kept -/

theorem routine_of_aside (r : HubDevice.Request) (hr : asideScope.calls r) : r.Routine := hr

theorem Aside.quiet (h : Aside k k') (hk : k.Quiet) : k'.Quiet := hk.touches h.wire routine_of_aside

theorem Aside.awaiting {id : CallId} (h : Aside k k') (hk : k.Awaiting id) : k'.Awaiting id :=
  hk.touches h.wire routine_of_aside

theorem Aside.ready (h : Aside k k') (hk : k.Ready) : k'.Ready :=
  hk.touches h.features h.slot h.wire routine_of_aside

theorem Aside.tracing {run : Run Recovery} (h : Aside k k') (hk : k.Tracing k.features run) :
    k'.Tracing k'.features run := by
  rw [h.features]
  exact hk.touches h.slot h.wire routine_of_aside

theorem recordRegime_kept : recordRegime.Kept where
  reachable := id
  initial _ _ := ⟨fun c hc => by simp [initial, Handler.withInterval] at hc,
    fun c hc => by simp [initial, Handler.withInterval] at hc⟩
  settled_aside h hk := h.quiet hk
  opening_aside {ph k k'} h hk := by
    cases ph with
    | working run => exact h.tracing hk
    | raiseLink | startWatcher | reportUp => exact h.ready hk
    | _ => exact h.quiet hk
  closing_aside {ph k k'} h hk := by
    cases ph with
    | releasing c =>
      cases c with
      | start => exact h.quiet hk
      | closing id => exact h.awaiting hk
    | _ => exact h.quiet hk
  toggling_aside {f enable edge g k k'} h hk := by
    cases g with
    | start => exact h.quiet hk
    | waiting id => exact h.awaiting hk
  watching_aside {i ph k k'} h hk := by
    cases ph with
    | recovering run => exact h.tracing hk
    | raiseLink | startWatcher | reportUp => exact h.ready hk
    | _ => exact h.quiet hk
  enter_opening hk := hk
  enter_closing _ _ hk := hk
  enter_toggling _ _ hk := hk
  enter_watching hk := hk
  step_opening _ _ hi hk h := OpenPhase.record_step hi hk h
  step_closing _ _ hi hk h := ClosePhase.record_step hi hk h
  step_toggling _ _ _ hk h := Toggling.record_step hk h
  abandon_toggling _ _ _ _ hk := Toggling.record_abandon hk
  step_watching _ _ hi hk h := WatchPhase.record_step hi hk h

/-! ## Announcements -/

/-- A happening that reports the connection as up. -/
def Announces (k : Kernel) (e : Happening) (k' : Kernel) : Prop :=
  k.after e = some k' ∧ ∃ new, k'.handler.wire.reports = new ++ k.handler.wire.reports ∧
    ⟨.connected, .connectionOk⟩ ∈ new

/-- Only an open call and a watcher announce the connection, each of them in one place. -/
theorem reportUp_of_announces (h : k.Reachable) {e : Happening} (ha : k.Announces e k') :
    (∃ i token, e = .stepTask i ∧ k.tasks[i]? = some ⟨token, .opening .reportUp⟩) ∨
      ∃ i w, e = .stepWatcher i ∧ k.watchers[i]? = some w ∧ w.phase = .reportUp := by
  obtain ⟨he, new, hn, hm⟩ := ha
  have failing : ¬ Failing ⟨.connected, .connectionOk⟩ := fun h => by rcases h with h | h <;> cases h
  rcases reporter_after (orderly_of_reachable h) he hn hm with ⟨i, ⟨token, t⟩, he, ht, hst⟩ | ⟨i, w, he, hw, hst⟩
  · refine .inl ⟨i, token, he, ?_⟩
    rcases Task.reporting hst with ⟨ph, rfl, hst⟩ | ⟨ph, rfl, hst⟩
    · cases ph with
      | reportUp => exact ht
      | working | reportDown => exact absurd hst failing
      | _ => exact hst.elim
    · cases ph with
      | reportTrouble | reportClosed => cases hst
      | _ => exact hst.elim
  · refine .inr ⟨i, w, he, hw, ?_⟩
    revert hst
    generalize w.phase = ph
    intro hst
    cases ph with
    | reportUp => rfl
    | giveUp | announce | reportDown => exact absurd hst failing
    | _ => exact hst.elim

/-! ## Features -/

theorem OpenPhase.features_step {token : Nat} {ph : OpenPhase}
    {pr : Progress OpenPhase (Except ClientError Unit)} (h : ph.step token p k = some (k', pr)) :
    k'.features = k.features := by
  cases turn_of_step h with
  | overtaken => exact (relays_overtaken k k token _).features_eq
  | worked _ ht => exact (relays_worked ht).features_eq
  | _ => rfl

theorem WatchPhase.features_step {w : Watcher} {ph ph' : WatchPhase}
    (h : ph.step p k w = some (k', ph')) : k'.features = k.features := by
  cases turn_of_step h with
  | worked ht hq =>
    have hf := (relays_recovering ht).features_eq
    cases hq <;> exact hf
  | _ => rfl

/-- A party that brings the connection up: an open call or a watcher that holds the gate. -/
def Works (k : Kernel) : Party → Prop
  | .task i => ∃ token ph, k.tasks[i]? = some ⟨token, .opening ph⟩ ∧ ph.stance = .inside
  | .watcher i => k.stance (.watcher i) = .inside

theorem Works.inside (h : k.Works p) : k.stance p = .inside := by
  cases p with
  | task i =>
    obtain ⟨token, ph, ht, hi⟩ := h
    rw [stance_of_tasks ht]
    exact hi
  | watcher i => exact h

/-- Nothing that happens while a party brings the connection up changes the features. -/
theorem features_of_works (h : k.Reachable) (hw : k.Works p) {e : Happening}
    (he : k.after e = some k') : k'.features = k.features := by
  have ho := orderly_of_reachable h
  rcases after_cases he with ⟨i, -, hs⟩ | ⟨i, -, hs⟩ | hb
  · by_cases hi : k.stance (.task i) = .inside
    · have hp : p = .task i := ho.eq_of_inside hw.inside hi
      subst hp
      obtain ⟨token, ph, ht, -⟩ := hw
      obtain ⟨o, k₁, t, ht', hstep, rfl⟩ := stepTask_eq_some hs
      rw [ht] at ht'
      cases ht'
      obtain ⟨pr, hpr, -⟩ := ofPart_eq_some hstep
      have hf := OpenPhase.features_step hpr
      exact hf
    · exact (aside_stepTask ho hs hi).features
  · obtain ⟨w, k₁, ph, -, hstep, rfl⟩ := stepWatcher_eq_some hs
    have hf := WatchPhase.features_step hstep
    exact hf
  · exact hb.features

/-- A party brings the connection up all the way from one state to another. -/
inductive WorksThroughout (p : Party) : Kernel → Kernel → Prop where
  | refl (k : Kernel) : WorksThroughout p k k
  | tail {k k' k'' : Kernel} (e : Happening) : WorksThroughout p k k' → k'.Works p →
      k'.after e = some k'' → WorksThroughout p k k''

theorem WorksThroughout.features_eq (h : k.Reachable) (hw : WorksThroughout p k k') :
    k'.Reachable ∧ k'.features = k.features := by
  induction hw with
  | refl => exact ⟨h, rfl⟩
  | tail e _ hw he ih => exact ⟨ih.1.after he, (features_of_works ih.1 hw he).trans ih.2⟩

theorem channels_nodup (fs : Features) : fs.channels.Nodup := by
  obtain ⟨m, t, e, c, edge⟩ := fs
  cases m <;> cases t <;> cases e <;> cases c <;> cases edge <;> decide

theorem mem_channels {fs : Features} {c : Channel} :
    c ∈ fs.channels ↔ ∃ f, fs.has f = true ∧ c = f.channel fs.edge := by
  simp only [Features.channels, List.mem_map, Features.mem_enabled, eq_comm]

theorem chronicled_of_reachable (h : k.Reachable) : k.handler.wire.Chronicled :=
  Reachable.induct (P := fun k => k.handler.wire.Chronicled) (fun _ _ => rfl)
    (fun hr hc he => by
      obtain ⟨A, ht⟩ := wire_after (orderly_of_reachable hr) he
      exact ht.chronicled hc) h

/-- Whenever the connection is announced, the newest part of the record of control calls is an attempt that
created a session, connected it and subscribed on it each channel of the enabled features once, every call
answered with success; the session is in the slot and newer than any created before, and any failure on
record is older than the attempt. The features do not change while an open call or a watcher brings the
connection up. -/
theorem announced_rebuilt (h : k.Reachable) :
    (∀ e k', k.Announces e k' →
      ((∃ i token, e = .stepTask i ∧ k.tasks[i]? = some ⟨token, .opening .reportUp⟩) ∨
        ∃ i w, e = .stepWatcher i ∧ k.watchers[i]? = some w ∧ w.phase = .reportUp) ∧
      ∃ s attempt rest, k.handler.slot = some s ∧ k.handler.wire.control = attempt ++ rest ∧
        Rebuilt k.features s attempt ∧
        (∀ id t, .answered id .create (.ok (.session t)) ∈ rest → t < s) ∧
        ∀ newer older id r x, k.handler.wire.control = newer ++ .answered id r (.error x) :: older →
          attempt <+: newer) ∧
    k.features.channels.Nodup ∧
    (∀ c, c ∈ k.features.channels ↔ ∃ f, k.features.has f = true ∧ c = f.channel k.features.edge) ∧
    ∀ p k', WorksThroughout p k k' → k'.features = k.features := by
  refine ⟨fun e k' ha => ?_, channels_nodup _, fun c => mem_channels, fun p k' hw =>
    (hw.features_eq h).2⟩
  have hup := reportUp_of_announces h ha
  refine ⟨hup, ?_⟩
  have hready : k.Ready := by
    rcases hup with ⟨i, token, -, ht⟩ | ⟨i, w, -, hw, hp⟩
    · exact recordRegime_kept.opening_of_inside h ht rfl
    · have hk := recordRegime_kept.watching_of_inside h hw (by rw [hp]; rfl)
      rw [hp] at hk
      exact hk
  obtain ⟨-, -, s, attempt, rest, hslot, hc, hr⟩ := hready
  refine ⟨s, attempt, rest, hslot, hc, hr, fun id t ht => ?_, fun newer older id r x hf => ?_⟩
  · exact hr.lt_of_created (chronicled_of_reachable h) hc ht
  · exact hr.prefix_of_failure (hc.symm.trans hf)

/-- Methods are turned on, the first session ends, and its watcher brings the connection up again. -/
def firstRecovery : List Happening :=
  firstOpening ++ [Happening.start 0 (.toggle .methods true false)] ++ List.replicate 7 (Happening.stepTask 1) ++
    [Happening.answer 2 (.ok .done), .stepTask 1, .endSession 0 (.remote "reset")] ++
    List.replicate 6 (Happening.stepWatcher 0) ++
    [Happening.pass 100, .stepWatcher 0, .stepWatcher 0, .answer 3 (.ok .done), .stepWatcher 0,
      .answer 4 (.ok .done), .stepWatcher 0, .answer 5 (.ok .done), .stepWatcher 0, .stepWatcher 0,
      .answer 6 (.ok .done)] ++ List.replicate 3 (Happening.stepWatcher 0)

theorem firstRecovery_announces : ∃ k k', (initial none .standard).course firstRecovery = some k ∧
    k.Announces (.stepWatcher 0) k' ∧ k.features.channels = [.methods] ∧ k.handler.slot = some 1 :=
  ⟨_, _, rfl, ⟨rfl, [_], rfl, List.mem_singleton.mpr rfl⟩, rfl, rfl⟩

/-- At the end of a first recovery the second session has been brought up with methods on it. -/
theorem announced_rebuilt_firstRecovery :
    ∃ k k', (initial none .standard).course firstRecovery = some k ∧ k.Announces (.stepWatcher 0) k' ∧
      k.features.channels = [.methods] ∧
      ∃ attempt rest, k.handler.wire.control = attempt ++ rest ∧ Rebuilt k.features 1 attempt := by
  obtain ⟨k, k', hc, ha, hf, hs⟩ := firstRecovery_announces
  have h := announced_rebuilt ⟨none, .standard, reaches_of_course hc⟩
  obtain ⟨-, s, attempt, rest, hslot, hctl, hr, -, -⟩ := h.1 _ _ ha
  rw [hs] at hslot
  cases hslot
  exact ⟨k, k', hc, ha, hf, attempt, rest, hctl, hr⟩

end HubDevice.Kernel
