import HubDevice.Proofs.Kernel.Announcement
import HubDevice.Proofs.Session.Channels

/-!
# Subscriptions and the recorded features

The recorded features and the channels that are open on the session in the slot say the same, as long as every
change of a subscription is faithful to the record: it is not cancelled while the transport is asked for it, and
module events are turned off with the routing that they were turned on with (`Operating.Faithful`). The regime
of this is `concordRegime`, and `subscriptions_agree` is what follows for a run. The record is not followed by
itself: events that are turned off with another routing stay open on the session (`events_left_open`).
-/

namespace HubDevice

/-! ## Features that change -/

theorem Feature.channel_of_ne {f : Feature} (h : f ≠ .events) (edge edge' : Bool) :
    f.channel edge = f.channel edge' := by
  cases f <;> first | rfl | exact absurd rfl h

theorem Feature.eq_of_channel {f g : Feature} {edge edge' : Bool} (h : f.channel edge = g.channel edge') :
    f = g := by
  cases f <;> cases g <;> first | rfl | cases h

namespace Kernel

open FairLock Retry Wire

variable {fs : Features} {f : Feature} {enable edge : Bool}

theorem has_toggled (g : Feature) :
    (toggled fs f enable edge).has g = if g = f then enable else fs.has g := by
  unfold toggled
  split
  · rw [← Features.has_set]
    cases g <;> rfl
  · exact Features.has_set fs f g enable

theorem edge_toggled : (toggled fs f enable edge).edge = if f = .events then edge else fs.edge := by
  unfold toggled
  split
  · rfl
  · exact Features.edge_set fs f enable

/-- Any other feature keeps its channel. -/
theorem channel_toggled {g : Feature} (h : g ≠ f) :
    g.channel (toggled fs f enable edge).edge = g.channel fs.edge := by
  rw [edge_toggled]
  split
  · rename_i hf
    exact g.channel_of_ne (hf ▸ h) _ _
  · rfl

/-- The channel of a feature after it was turned on or off. -/
theorem channel_toggled_self : f.channel (toggled fs f enable edge).edge = f.channel edge := by
  rw [edge_toggled]
  split
  · rfl
  · rename_i hf
    exact f.channel_of_ne hf _ _

/-- A channel of the features is that of a given feature or of another one. -/
theorem mem_channels_or (fs : Features) (f : Feature) (c : Channel) : c ∈ fs.channels ↔
    (fs.has f = true ∧ c = f.channel fs.edge) ∨ ∃ g, g ≠ f ∧ fs.has g = true ∧ c = g.channel fs.edge := by
  rw [mem_channels]
  constructor
  · rintro ⟨g, hg⟩
    by_cases hgf : g = f
    · exact .inl (hgf ▸ hg)
    · exact .inr ⟨g, hgf, hg⟩
  · rintro (h | ⟨g, -, hg⟩)
    · exact ⟨f, h⟩
    · exact ⟨g, hg⟩

/-- What the channels of the features become when one of them is turned on, or off with its recorded routing. -/
theorem mem_channels_toggled (hd : fs.has f ≠ enable) (he : enable = false → f = .events → edge = fs.edge)
    (c : Channel) : c ∈ (toggled fs f enable edge).channels ↔
      if enable then c = f.channel edge ∨ c ∈ fs.channels else c ∈ fs.channels ∧ c ≠ f.channel edge := by
  have others : (∃ g, g ≠ f ∧ (toggled fs f enable edge).has g = true ∧
      c = g.channel (toggled fs f enable edge).edge) ↔
      ∃ g, g ≠ f ∧ fs.has g = true ∧ c = g.channel fs.edge := by
    refine exists_congr fun g => and_congr_right fun hg => ?_
    rw [has_toggled, if_neg hg, channel_toggled hg]
  rw [mem_channels_or _ f, others, mem_channels_or fs f, has_toggled, if_pos rfl, channel_toggled_self]
  cases enable with
  | true =>
    have hoff : fs.has f = false := by simpa using hd
    simp [hoff]
  | false =>
    have hon : fs.has f = true := by simpa using hd
    have hch : f.channel fs.edge = f.channel edge := by
      by_cases hf : f = .events
      · rw [he rfl hf]
      · exact f.channel_of_ne hf _ _
    simp only [Bool.false_eq_true, false_and, false_or, hon, true_and, if_false, hch]
    constructor
    · rintro ⟨g, hg, hon', rfl⟩
      exact ⟨.inr ⟨g, hg, hon', rfl⟩, fun h => hg (Feature.eq_of_channel h)⟩
    · rintro ⟨h | h, hne⟩
      · exact absurd h hne
      · exact h

/-! ## What is on record of the channels -/

theorem request_not_routine (on : Bool) (s : SessionId) (c : Channel) :
    ¬ (Subscribing.request on s c).Routine := by
  cases on <;> exact id

/-- The channels of a session once a call that opens or closes one of them was confirmed. -/
theorem mem_channels_of_ok {w : Wire} {id : CallId} {on : Bool} {s : SessionId} {c : Channel}
    {base : List Event} (h : w.Ongoing id (Subscribing.request on s c) base) {d : PendingCall} {r : Reply}
    (hd : d ∈ w.calls) (hid : d.id = id) (ha : d.answer = some (.ok r)) (c' : Channel) :
    c' ∈ w.channels s ↔
      if on then c' = c ∨ c' ∈ channelsOf s base else c' ∈ channelsOf s base ∧ c' ≠ c := by
  rw [channels_eq, h.control_of_answer hd hid ha]
  cases on with
  | true => exact mem_channelsAfter_subscribe id r
  | false => exact mem_channelsAfter_unsubscribe id r

/-- A call that failed has opened and closed nothing. -/
theorem channels_of_error {w : Wire} {id : CallId} {on : Bool} {s : SessionId} {c : Channel}
    {base : List Event} (h : w.Ongoing id (Subscribing.request on s c) base) {d : PendingCall}
    {e : TransportError} (hd : d ∈ w.calls) (hid : d.id = id) (ha : d.answer = some (.error e)) :
    w.channels s = channelsOf s base := by
  rw [channels_eq, h.control_of_answer hd hid ha]
  cases on <;> rfl

theorem Served.opens {s : SessionId} {cs : List Channel} {es : List Event} (h : Served s cs es) :
    (∀ e ∈ es, e.Opens s) ∧ ∀ c, (∃ id r, .answered id (.subscribe s c) (.ok r) ∈ es) ↔ c ∈ cs := by
  induction h with
  | nil => simp
  | @cons c cs es id r _ ih =>
    refine ⟨fun e he => ?_, fun c' => ?_⟩
    · rcases List.mem_cons.mp he with rfl | he
      · exact .opened id c r
      · rcases List.mem_cons.mp he with rfl | he
        · exact .called id _
        · exact ih.1 e he
    · rw [List.mem_cons, ← ih.2 c']
      simp only [List.mem_cons, reduceCtorEq, false_or, exists_or, Event.answered.injEq]
      refine or_congr_left ⟨?_, ?_⟩
      · rintro ⟨_, _, -, h, -⟩
        exact (HubDevice.Request.subscribe.inj h).2
      · rintro rfl
        exact ⟨id, r, rfl, rfl, rfl⟩

/-- An attempt that is complete leaves exactly the channels of the features open on its session. -/
theorem Rebuilt.mem_channelsOf {fs : Features} {s : SessionId} {attempt : List Event}
    (h : Rebuilt fs s attempt) (rest : List Event) (c : Channel) :
    c ∈ channelsOf s (attempt ++ rest) ↔ c ∈ fs.channels := by
  obtain ⟨subs, es, cancelled, created, connected, r, rfl, hp, hs⟩ := h
  have hnew : channelsOf s (brought s cancelled created connected r ++ rest) = [] := by
    simp [channelsOf, brought, Event.channelsAfter]
  rw [List.append_assoc, mem_channelsOf_append fun e he => hs.opens.1 e (hp.mem_iff.mp he), hnew,
    ← hs.opens.2 c]
  simp [hp.mem_iff]

/-! ## The regime -/

variable {A : Scope} {p : Party} {k k' : Kernel}

/-- The channels that are open on the session in the slot are those of the recorded features. -/
def Agreeing (k : Kernel) : Prop :=
  ∃ s, k.handler.slot = some s ∧ ∀ c, c ∈ k.handler.wire.channels s ↔ c ∈ k.features.channels

/-- No control call is unsettled, and a link that is up has the channels of the recorded features. -/
structure Concordant (k : Kernel) : Prop where
  quiet : k.Quiet
  agreeing : k.link = .connected → k.Agreeing

/-- A feature is being turned on or off on a link that is up. -/
structure Changing (f : Feature) (enable edge : Bool) (g : Subscribing) (k : Kernel) : Prop where
  link : k.link = .connected
  differs : k.features.has f ≠ enable
  pending : match g with
    | .start on c => k.Concordant ∧ on = enable ∧ c = f.channel edge
    | .waiting id => k.handler.wire.Numbered ∧ ∃ s base, k.handler.slot = some s ∧
        k.handler.wire.Ongoing id (Subscribing.request enable s (f.channel edge)) base ∧
        ∀ c, c ∈ channelsOf s base ↔ c ∈ k.features.channels

/-- Nothing is said while the connection is brought up: what counts is the complete attempt at the end. -/
def OpenPhase.OnChannels (k : Kernel) : OpenPhase → Prop
  | .working _ | .raiseLink | .startWatcher | .reportUp => True
  | _ => k.Concordant

def ClosePhase.OnChannels (k : Kernel) : ClosePhase → Prop
  | .releasing _ => k.link = .closed
  | _ => k.Concordant

def WatchPhase.OnChannels (k : Kernel) : WatchPhase → Prop
  | .recovering _ | .raiseLink | .startWatcher | .reportUp => True
  | _ => k.Concordant

def concordRegime : Regime where
  settled := Concordant
  opening ph k := ph.OnChannels k
  closing ph k := ph.OnChannels k
  toggling := Changing
  watching _ ph k := ph.OnChannels k

/-- An operation that changes a subscription as it is recorded: its token does not fire while the transport is
asked, and module events are turned off with the routing they were turned on with. -/
def Operating.Faithful (k : Kernel) (o : Operating) : Prop :=
  match o.task with
  | .toggling f enable edge ⟨_, _, .acting (.calling _)⟩ =>
    k.tokenFired o.token = false ∧ (enable = false → f = .events → edge = k.features.edge)
  | _ => True

instance (k : Kernel) : DecidablePred (Operating.Faithful k) := fun o =>
  match o with
  | ⟨_, .toggling _ _ _ ⟨_, _, .acting (.calling _)⟩⟩ => inferInstanceAs (Decidable (_ ∧ _))
  | ⟨_, .toggling _ _ _ ⟨_, _, .acting (.admission _)⟩⟩ | ⟨_, .toggling _ _ _ ⟨_, _, .acting .askGate⟩⟩
  | ⟨_, .toggling _ _ _ ⟨_, _, .acting .awaitGate⟩⟩ | ⟨_, .toggling _ _ _ ⟨_, _, .acting .check⟩⟩
  | ⟨_, .toggling _ _ _ ⟨_, _, .pausing _⟩⟩ | ⟨_, .ready _⟩ | ⟨_, .opening _⟩ | ⟨_, .closing _⟩
  | ⟨_, .running _ _⟩ | ⟨_, .ended _⟩ => .isTrue trivial

/-- All operations change subscriptions as they are recorded. -/
def Faithful (k : Kernel) : Prop := ∀ o ∈ k.tasks, o.Faithful k

instance (k : Kernel) : Decidable k.Faithful := inferInstanceAs (Decidable (∀ o ∈ k.tasks, o.Faithful k))

theorem Faithful.of_calling (h : k.Faithful) {i token : Nat} {run : Run Toggling} {g : Subscribing}
    (ht : k.tasks[i]? = some ⟨token, .toggling f enable edge run⟩) (hp : run.phase = .acting (.calling g)) :
    k.tokenFired token = false ∧ (enable = false → f = .events → edge = k.features.edge) := by
  have ho := h _ (List.mem_of_getElem? ht)
  obtain ⟨policy, attempt, phase⟩ := run
  cases hp
  exact ho

theorem Concordant.touches (hk : k.Concordant) (ht : k.handler.wire.Touches A k'.handler.wire)
    (hA : ∀ r, A.calls r → r.Routine) (hl : k'.link = k.link) (hf : k'.features = k.features)
    (hs : k'.handler.slot = k.handler.slot) : k'.Concordant where
  quiet := hk.quiet.touches ht hA
  agreeing hc := by
    obtain ⟨s, hslot, hm⟩ := hk.agreeing (hl.symm.trans hc)
    refine ⟨s, hs.trans hslot, fun c => ?_⟩
    rw [hf, ← hm c, Wire.channels_eq, Wire.channels_eq, (ht.control_eq hA hk.quiet.owned).2]

/-- A link that is not up. -/
theorem Quiet.concordant (hk : k.Quiet) (hl : k.link ≠ .connected) : k.Concordant :=
  ⟨hk, fun h => absurd h hl⟩

theorem Concordant.report (hk : k.Concordant) (state : ConnectionState) (reason : StatusReason) :
    (k.report state reason).Concordant :=
  hk.touches (Touch.reported (A := { statuses := fun _ => True }) trivial).touches
    (fun _ => False.elim) rfl rfl rfl

/-- What matters is the same. -/
theorem Concordant.of_eq (hk : k.Concordant) (hh : k'.handler = k.handler) (hl : k'.link = k.link)
    (hf : k'.features = k.features) : k'.Concordant where
  quiet := hk.quiet.of_handler hh
  agreeing hc := by
    unfold Agreeing
    rw [hh, hf]
    exact hk.agreeing (hl.symm.trans hc)

theorem Ready.concordant (hk : k.Ready) : k.Concordant where
  quiet := hk.1
  agreeing _ := by
    obtain ⟨-, -, s, attempt, rest, hs, hc, hr⟩ := hk
    refine ⟨s, hs, fun c => ?_⟩
    rw [channels_eq, hc]
    exact hr.mem_channelsOf rest c

/-! ## What others do -/

theorem Aside.concordant (h : Aside k k') (hk : k.Concordant) : k'.Concordant :=
  hk.touches h.wire routine_of_aside h.link h.features h.slot

theorem Aside.changing {g : Subscribing} (h : Aside k k') (hk : k.Changing f enable edge g) :
    k'.Changing f enable edge g where
  link := h.link.trans hk.link
  differs := h.features.symm ▸ hk.differs
  pending := by
    have hp := hk.pending
    cases g with
    | start on c => exact ⟨h.concordant hp.1, hp.2⟩
    | waiting id =>
      obtain ⟨hn, s, base, hs, ho, hm⟩ := hp
      refine ⟨h.wire.numbered hn, s, base, h.slot.trans hs, ?_, fun c => h.features.symm ▸ hm c⟩
      exact ho.touches h.wire routine_of_aside (request_not_routine enable s _)

theorem OpenPhase.OnChannels.aside {ph : OpenPhase} (h : Aside k k') (hk : ph.OnChannels k) :
    ph.OnChannels k' := by
  cases ph with
  | working | raiseLink | startWatcher | reportUp => trivial
  | _ => exact h.concordant hk

theorem ClosePhase.OnChannels.aside {ph : ClosePhase} (h : Aside k k') (hk : ph.OnChannels k) :
    ph.OnChannels k' := by
  cases ph with
  | releasing => exact h.link.trans hk
  | _ => exact h.concordant hk

theorem WatchPhase.OnChannels.aside {ph : WatchPhase} (h : Aside k k') (hk : ph.OnChannels k) :
    ph.OnChannels k' := by
  cases ph with
  | recovering | raiseLink | startWatcher | reportUp => trivial
  | _ => exact h.concordant hk

/-! ## Parties inside -/

theorem OpenPhase.channels_step {token : Nat} {ph : OpenPhase}
    {pr : Progress OpenPhase (Except ClientError Unit)} (hi : ph.stance = .inside) (hl : ph.OnLink k)
    (hr : ph.OnRecord k) (hk : ph.OnChannels k) (h : ph.step token p k = some (k', pr)) :
    pr.Leaves (fun ph' => concordRegime.opener ph' k') k'.Concordant k'.Concordant := by
  have hq := OpenPhase.record_step hi hr h
  cases turn_of_step h with
  | refusedInside | found => exact Concordant.of_eq hk rfl rfl rfl
  | @shared _ outcome => cases outcome <;> exact Concordant.of_eq hk rfl rfl rfl
  | @concluded outcome => cases outcome <;> exact Concordant.of_eq hk rfl rfl rfl
  | admittedInside | own | late => exact hk
  | began | raised | watched => trivial
  | @overtaken run =>
    exact Quiet.concordant hq ((relays_overtaken k k token run).link_eq.symm ▸ hl.1.link_ne.2)
  | @worked _ _ q _ ht =>
    have hdown : k'.link ≠ .connected := (relays_worked ht).link_eq.symm ▸ hl.1.link_ne.2
    cases q with
    | more run' => trivial
    | done r =>
      cases r with
      | ok v => trivial
      | error e => cases e <;> exact Quiet.concordant hq hdown
  | reportedUp => exact (Ready.concordant hr).report _ _
  | reportedDown => exact Concordant.report hk _ _
  | _ => cases hi

theorem ClosePhase.channels_step {ph : ClosePhase} {pr : Progress ClosePhase (Except ClientError Unit)}
    (hi : ph.stance = .inside) (hr : ph.OnRecord k) (hk : ph.OnChannels k)
    (h : ph.step p k = some (k', pr)) :
    pr.Leaves (fun ph' => concordRegime.closer ph' k') k'.Concordant k'.Concordant := by
  have hq := ClosePhase.record_step hi hr h
  have closed : k'.Quiet → k'.link = .closed → k'.Concordant := fun hq hl =>
    hq.concordant (by simp [hl])
  cases turn_of_step h with
  | lowered => exact rfl
  | loweredUnopened => exact closed hq rfl
  | releasing => exact hk
  | released | troubled => exact closed hq hk
  | _ => cases hi

theorem Toggling.channels_step {g : Subscribing} {pr : Progress Toggling (Except ClientError Reply)}
    (he : enable = false → f = .events → edge = k.features.edge) (hr : k.onRecord g)
    (hk : k.Changing f enable edge g)
    (h : Toggling.step f enable edge p k (.calling g) = some (k', pr)) :
    pr.Leaves (fun a => concordRegime.toggler f enable edge a k') k'.Concordant k'.Concordant := by
  have hq := Toggling.record_step hr h
  obtain ⟨hlink, hd, hp⟩ := hk
  cases turn_of_step h with
  | calling hg =>
    cases Subscribing.turn_of_step hg with
    | @asked on c s hslot =>
      obtain ⟨hc, rfl, rfl⟩ := hp
      obtain ⟨s', hs', hm⟩ := hc.agreeing hlink
      rw [hslot] at hs'
      cases hs'
      refine ⟨hlink, hd, hq.numbered, s, k.handler.wire.control, hslot, ?_, fun c => ?_⟩
      · exact ongoing_call hc.quiet.numbered hc.quiet.owned (request_not_routine on s _)
      · rw [← channels_eq]
        exact hm c
  | changed hg =>
    cases Subscribing.turn_of_step hg with
    | confirmed hmem hid ha =>
      obtain ⟨-, s, base, hs, ho, hm⟩ := hp
      refine ⟨hq, fun _ => ⟨s, hs, fun c => ?_⟩⟩
      rw [mem_channels_toggled hd he, ← hm c]
      exact mem_channels_of_ok ho hmem hid ha c
  | failed hg =>
    cases Subscribing.turn_of_step hg with
    | vacant =>
      obtain ⟨hc, -⟩ := hp
      exact hc.of_eq rfl rfl rfl
    | refused hmem hid ha =>
      obtain ⟨-, s, base, hs, ho, hm⟩ := hp
      refine ⟨hq, fun _ => ⟨s, hs, fun c => ?_⟩⟩
      have hch : k.handler.wire.channels s = channelsOf s base := channels_of_error ho hmem hid ha
      rw [← hm c, ← hch]
      rfl

theorem WatchPhase.channels_step {i : Nat} {w : Watcher} {ph ph' : WatchPhase} (hi : ph.stance = .inside)
    (hl : ph.OnLink i k) (hr : ph.OnRecord k) (hk : ph.OnChannels k) (h : ph.step p k w = some (k', ph')) :
    concordRegime.watcher i ph' (k'.setPhase i ph') := by
  have hq : recordRegime.watcher i ph' (k'.setPhase i ph') := WatchPhase.record_step hi hr h
  cases turn_of_step h with
  | foundClosed | granted | stoppedPausing => exact Concordant.of_eq hk rfl rfl rfl
  | lowered | declined => exact Quiet.concordant hq (by simp [setPhase, setLink])
  | expired | paused | reportedDown => exact (Concordant.report hk _ _).of_eq rfl rfl rfl
  | announced | resumed | raised | watched => trivial
  | @worked _ k₁ _ q _ ht hrec =>
    have hlink : k₁.link = .reconnecting := (relays_recovering ht).link_eq.trans hl.1.link
    cases hrec with
    | goesOn | restored => trivial
    | stopped => exact Quiet.concordant hq (by simp [setPhase, hlink])
    | failed => exact Quiet.concordant hq (by simp [setPhase, setLink])
  | reportedUp => exact ((Ready.concordant hr).report _ _).of_eq rfl rfl rfl
  | _ => cases hi

theorem concordRegime_kept : concordRegime.Kept fun k => k.Reachable ∧ k.Faithful where
  reachable h := h.1
  initial _ _ := Quiet.concordant (recordRegime_kept.initial _ _) (by simp [initial])
  settled_aside h hk := h.concordant hk
  opening_aside h hk := hk.aside h
  closing_aside h hk := hk.aside h
  toggling_aside h hk := h.changing hk
  watching_aside h hk := hk.aside h
  enter_opening hk := hk
  enter_closing _ _ hk := hk
  enter_toggling hl hd hk := ⟨hl, hd, hk, rfl, rfl⟩
  enter_watching hk := hk
  step_opening hm ht hi hk h := OpenPhase.channels_step hi (linkRegime_kept.opening_of_inside hm.1 ht hi)
    (recordRegime_kept.opening_of_inside hm.1 ht hi) hk h
  step_closing hm ht hi hk h :=
    ClosePhase.channels_step hi (recordRegime_kept.closing_of_inside hm.1 ht hi) hk h
  step_toggling hm ht hp hk h :=
    Toggling.channels_step (hm.2.of_calling ht hp).2 (recordRegime_kept.toggling_of_inside hm.1 ht hp) hk h
  abandon_toggling hm ht hp hf _ := absurd (hf.symm.trans (hm.2.of_calling ht hp).1) (by simp)
  step_watching hm hw hi hk h := WatchPhase.channels_step hi (linkRegime_kept.watching_of_inside hm.1 hw hi)
    (recordRegime_kept.watching_of_inside hm.1 hw hi) hk h

/-! ## Runs -/

/-- The only way in which a change of a subscription succeeds. -/
theorem Toggling.changed_of_result {i token : Nat} {run : Run Toggling} {r : Reply} (ho : k.Orderly)
    (ht : k.tasks[i]? = some ⟨token, .toggling f enable edge run⟩) (hs : k.stepTask i = some k')
    (hres : k'.result? i = some (.ok r)) : ∃ g k₁, run.phase = .acting (.calling g) ∧
      Toggling.step f enable edge (.task i) k (.calling g) = some (k₁, .done (.ok .done)) ∧
      k₁.features = toggled k.features f enable edge ∧ k₁.link = k.link ∧
      k'.handler = k₁.handler ∧ k'.features = k₁.features := by
  obtain ⟨o, k₁, t, ht', hstep, rfl⟩ := stepTask_eq_some hs
  rw [ht] at ht'
  cases ht'
  have hi : i < k₁.tasks.length := by
    rw [(Task.movement (ho.lifetimeOver ht) hstep).tasks]
    exact (List.getElem?_eq_some_iff.mp ht).1
  have hend := (result?_set hi).mp hres
  obtain ⟨pr, hrun, rfl⟩ := ofPart_eq_some hstep
  cases pr with
  | more run' => cases hend
  | done res =>
    cases res with
    | error e => cases hend
    | ok v =>
      cases Run.turn_of_step hrun with
      | @succeeded a v k₁ hc hp hs =>
        have hstep : a.step f enable edge (.task i) k = some (k₁, .done (.ok v)) := hs
        cases turn_of_step hstep with
        | changed hg => exact ⟨_, _, hp, hstep, rfl, rfl, rfl, rfl⟩

/-- On a run on which subscriptions are changed as they are recorded, whenever the gate is free and the link is
up, the channels that are open on the session in the slot are those of the recorded features, each of them once.
When a feature has been turned off, no channel of it is left open. -/
theorem subscriptions_agree {interval : Option Span} {policy : Policy} {l : List (Kernel × Happening)}
    (h : Path (initial interval policy) l k) (hf : ∀ x ∈ l, x.1.Faithful) :
    (k.gate.holder = none → k.link = .connected →
      ∃ s, k.handler.slot = some s ∧ (k.handler.wire.channels s).Perm k.features.channels) ∧
    ∀ i token f edge run k' r, k.Faithful → k.tasks[i]? = some ⟨token, .toggling f false edge run⟩ →
      k.stepTask i = some k' → k'.result? i = some (.ok r) → k'.features.has f = false ∧
        ∃ s, k'.handler.slot = some s ∧ ∀ edge', f.channel edge' ∉ k'.handler.wire.channels s := by
  have met : ∀ x ∈ l, x.1.Reachable ∧ x.1.Faithful := fun x hx =>
    ⟨h.reachable_of_mem (reachable_initial interval policy) hx, hf x hx⟩
  have hc := concordRegime_kept.custody_of_path h met
  have hreach := h.reachable (reachable_initial interval policy)
  refine ⟨fun hg hl => ?_, fun i token f edge run k' r hfk ht hs hres => ?_⟩
  · obtain ⟨s, hs, hm⟩ := Concordant.agreeing (hc.settled hg) hl
    exact ⟨s, hs, (List.perm_ext_iff_of_nodup (nodup_channelsOf s _) (channels_nodup _)).mpr hm⟩
  · obtain ⟨g, k₁, hp, hstep, hft, hl₁, hh, hfs⟩ :=
      Toggling.changed_of_result (orderly_of_reachable hreach) ht hs hres
    have hch : k.Changing f false edge g := hc.toggling_of_inside (orderly_of_reachable hreach) ht hp
    have hcon : k₁.Concordant := Toggling.channels_step (hfk.of_calling ht hp).2
      (recordRegime_kept.toggling_of_inside hreach ht hp) hch hstep
    obtain ⟨s, hslot, hm⟩ := hcon.agreeing (hl₁.trans hch.link)
    have hoff : k₁.features.has f = false := by rw [hft, has_toggled, if_pos rfl]
    rw [hh, hfs]
    refine ⟨hoff, s, hslot, fun edge' hin => ?_⟩
    obtain ⟨f', hon, he⟩ := mem_channels.mp ((hm _).mp hin)
    rw [← Feature.eq_of_channel he, hoff] at hon
    cases hon

/-- Module events are turned on as on an edge module and off again the same way. -/
def firstToggles (off : Bool) : List Happening :=
  firstOpening ++ [Happening.start 0 (.toggle .events true true)] ++ List.replicate 7 (Happening.stepTask 1) ++
    [Happening.answer 2 (.ok .done), .stepTask 1, .start 0 (.toggle .events false off)] ++
    List.replicate 7 (Happening.stepTask 2) ++ [Happening.answer 3 (.ok .done)]

/-- On this run the channel of module events is closed with the call that turns them off. -/
theorem subscriptions_agree_firstToggles : ∃ k k', (initial none .standard).course (firstToggles true) = some k ∧
    k.stepTask 2 = some k' ∧ k'.result? 2 = some (.ok .done) ∧ k'.features.has .events = false ∧
    ∃ s, k'.handler.slot = some s ∧ ∀ edge, Channel.events edge ∉ k'.handler.wire.channels s := by
  obtain ⟨k, k', hc, hf, ht, hs, hres⟩ : ∃ k k', (initial none .standard).course (firstToggles true) = some k ∧
      k.Faithful ∧ (∃ token run, k.tasks[2]? = some ⟨token, .toggling .events false true run⟩) ∧
      k.stepTask 2 = some k' ∧ k'.result? 2 = some (.ok .done) :=
    ⟨_, _, rfl, by decide, ⟨_, _, rfl⟩, rfl, rfl⟩
  obtain ⟨l, hp, hv⟩ := path_of_course hc
  have hall : ∀ k ∈ (initial none .standard).visited (firstToggles true), k.Faithful := by decide
  obtain ⟨token, run, ht⟩ := ht
  have h := (subscriptions_agree hp fun x hx => hall _ (hv x hx)).2 2 token .events true run k' .done hf ht hs hres
  exact ⟨k, k', hc, hs, hres, h⟩

/-- Turned off without the routing they were turned on with, module events stay open on the session: the call
succeeds, the features say that they are off, and their channel is there. -/
theorem events_left_open : ∃ k k', (initial none .standard).course (firstToggles false) = some k ∧
    k.stepTask 2 = some k' ∧ k'.result? 2 = some (.ok .done) ∧ k'.gate.holder = none ∧
    k'.link = .connected ∧ k'.handler.slot = some 0 ∧ k'.handler.wire.ended 0 = false ∧
    k'.features.channels = [] ∧ k'.handler.wire.channels 0 = [.events true] :=
  ⟨_, _, rfl, rfl, rfl, rfl, rfl, rfl, rfl, rfl, rfl⟩

end Kernel

end HubDevice
