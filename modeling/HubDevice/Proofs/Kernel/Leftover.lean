import HubDevice.Proofs.Kernel.Vacancy
import HubDevice.Proofs.Kernel.Watching

/-!
# What a failed attempt leaves behind

A session that an attempt has opened is closed by the next attempt or by a close call, and by nothing else. So
an attempt that fails after its session was opened, because a subscription fails or the attempt is given up on
the way, leaves that session in the slot, connected and unwatched. The regime of this is `leftoverRegime`:
while the link is not up, the session in the slot has ended, or it is one that was never watched and that has
subscriptions to be replayed on it (`Spent`). `slot_of_down` says when nothing is left, and
`session_left_open` is a run that leaves a session open.
-/

namespace HubDevice.Kernel

open FairLock Retry Wire

variable {A : Scope} {p : Party} {h h' : Handler} {k k' : Kernel} {old : List SessionId} {fs : Features}

/-- The session in the slot has ended, unless it is newer than all of `old` and has features to be replayed. -/
def Spent (old : List SessionId) (fs : Features) (h : Handler) : Prop :=
  ∀ s, h.slot = some s → (∃ cause, h.wire.cause? s = some cause) ∨ (h.SlotNewer old ∧ fs.channels ≠ [])

/-- What an attempt on its way leaves when it is given up: it empties the slot at once, and fills it only with
features still to be replayed. -/
def Recovery.Spending (old : List SessionId) (fs : Features) (h : Handler) : Recovery → Prop
  | .opening .start => Spent old fs h
  | .opening _ => h.slot = none
  | .replaying _ => h.SlotNewer old ∧ fs.channels ≠ []

theorem spent_of_none (hs : h.slot = none) : Spent old fs h := fun s h' => by
  rw [hs] at h'
  cases h'

theorem Spent.touches (hk : Spent old fs h) (hs : h'.slot = h.slot) (ht : h.wire.Touches A h'.wire) :
    Spent old fs h' := by
  intro s hslot
  rcases hk s (hs.symm.trans hslot) with ⟨cause, hc⟩ | ⟨hn, hf⟩
  · exact .inl ⟨cause, ht.grows.cause hc⟩
  · exact .inr ⟨Recovery.slotNewer_of_touches hn hs ht, hf⟩

namespace Recovery

variable {a : Recovery} {c : Bool} {pr : Progress Recovery (Except ClientError Unit)}

theorem Spending.spent (ha : a.Spending old fs h) : Spent old fs h := by
  cases a with
  | opening o =>
    cases o with
    | start => exact ha
    | discarding | creating | connecting => exact spent_of_none ha
  | replaying pending => exact fun _ _ => .inr ha

theorem Spending.touches (ha : a.Spending old fs h) (hs : h'.slot = h.slot) (ht : h.wire.Touches A h'.wire) :
    a.Spending old fs h' := by
  cases a with
  | opening o =>
    cases o with
    | start => exact Spent.touches ha hs ht
    | discarding | creating | connecting => exact hs.trans ha
  | replaying pending => exact ⟨slotNewer_of_touches ha.1 hs ht, ha.2⟩

/-- There is something to replay when an attempt goes on after its session was opened. -/
theorem spending_settle (hs : h.SlotNewer old) :
    (settle (replay fs)).Leaves (Spending old fs h) True (Spent old fs h) := by
  unfold settle
  split
  · trivial
  · rename_i hall
    refine ⟨hs, fun hf => hall ?_⟩
    simp [replay, hf]

theorem spending_opening {o : Opening} (ho : o ≠ .start) (hs : h.slot = none) :
    Spending old fs h (.opening o) := by
  cases o with
  | start => exact absurd rfl ho
  | discarding | creating | connecting => exact hs

theorem Spending.slot {o : Opening} (ha : Spending old fs h (.opening o)) : o ≠ .start → h.slot = none := by
  intro ho
  cases o with
  | start => exact absurd rfl ho
  | discarding | creating | connecting => exact ha

theorem spending_step (hn : h.wire.Numbered) (hf : a.Fresh old h) (ha : a.Spending old fs h)
    (hs : a.step fs c h = some (h', pr)) : pr.Leaves (Spending old fs h') True (Spent old fs h') := by
  cases turn_of_step hs with
  | opening ho => exact spending_opening (Opening.ne_start_of_step ho) (Opening.slot_step ho ha.slot)
  | opened ho hpr => exact hpr ▸ spending_settle (Opening.fresh_step hn hf ho)
  | unopened ho => exact spent_of_none (Opening.slot_step ho ha.slot)
  | replayed he hpr =>
    have hu := uses_stepFirst he
    rw [hpr, settle]
    split
    · trivial
    · exact ⟨slotNewer_of_touches ha.1 hu.slot hu.touches, ha.2⟩
  | @refused _ left h₁ e he =>
    have hu := (uses_stepFirst he).trans (uses_abandonAll h₁ left)
    exact ha.spent.touches hu.slot hu.touches

end Recovery

/-! ## Attempts -/

variable {c c' : Bool} {granted : Kernel → ClientError → Kernel}

/-- What a run of attempts leaves when it is given up, beside what it knows of the session it brings. -/
theorem keeps_spending (old : List SessionId) (fs : Features) (hg : ∀ k e, Relays A k (granted k e))
    (hslot : ∀ k e, (granted k e).handler.slot = k.handler.slot) :
    Run.Keeps (recovery fs c granted) (fun k => Expecting old k ∧ Spent old fs k.handler)
      (fun a k => (Expecting old k ∧ a.Fresh old k.handler) ∧ a.Spending old fs k.handler)
      (fun _ => True) := by
  have hx : Run.Keeps (recovery fs c granted) _ _ _ := keeps_expecting old hg
  exact {
    start := fun hk => ⟨hx.start hk.1, hk.2⟩
    abandon := fun {k a} hk => by
      have hu := a.uses_abandon k.handler (A := .nothing)
      exact ⟨hx.abandon hk.1, hk.2.spent.touches hu.slot hu.touches⟩
    granted := fun {k} e n d hk => ⟨hx.granted e n d hk.1, hk.2.touches (hslot k e) (hg k e).touches⟩
    more := fun hk hs => by
      obtain ⟨_, he, rfl⟩ := liftHandler_eq_some hs
      exact ⟨hx.more hk.1 hs, Recovery.spending_step hk.1.1.numbered hk.1.2 hk.2 he⟩
    ok := fun _ _ => trivial
    error := fun hk hs => by
      obtain ⟨_, he, rfl⟩ := liftHandler_eq_some hs
      exact ⟨hx.error hk.1 hs, Recovery.spending_step hk.1.1.numbered hk.1.2 hk.2 he⟩ }

/-- What a run of attempts leaves when it is given up. -/
def Spending (run : Run Recovery) (k : Kernel) : Prop :=
  run.Holds (fun k' => Spent k.watched k.features k'.handler)
    (fun a k' => a.Spending k.watched k.features k'.handler) k

theorem Spending.turn {run : Run Recovery} {q : Progress (Run Recovery) (Except ClientError Unit)}
    (hk : k.Spending run) (hl : k.Seeking run) (hA : Recovery.scope ≤ A) (hg : ∀ k e, Relays A k (granted k e))
    (hslot : ∀ k e, (granted k e).handler.slot = k.handler.slot)
    (ht : Run.Turn (recovery fs c granted) c' k run k' q) (hfs : k.features = fs) :
    q.Leaves (fun run' => k'.Spending run') True (Spent k'.watched k'.features k'.handler) := by
  have hr := relays_of_turn hA hg ht
  have hkeep := ht.keeps (keeps_spending k.watched fs hg hslot) (hfs ▸ hl.and hk)
  unfold Spending
  rw [hr.watched_eq, hr.features_eq, hfs]
  exact hkeep.mono (fun _ => Run.Holds.right) id And.right

theorem Spent.spending (hk : Spent k.watched k.features k.handler) (x : Action Kernel Recovery Unit)
    (hx : x.start = .opening .start) (policy : Policy) (n : Nat) : k.Spending (.ofPolicy x policy n) := by
  simp only [Spending, Run.Holds, Run.ofPolicy, hx]
  exact hk

theorem Spending.spent {run : Run Recovery} (hk : k.Spending run) (c : Bool)
    (granted : Kernel → ClientError → Kernel) :
    Spent k.watched k.features (run.abandon (recovery fs c granted) k).handler := by
  unfold Spending Run.Holds at hk
  unfold Run.abandon
  split
  · rename_i a hp
    rw [hp] at hk
    have hu := a.uses_abandon k.handler (A := .nothing)
    exact hk.spent.touches hu.slot hu.touches
  · rename_i t hp
    rw [hp] at hk
    exact hk

/-! ## The regime -/

/-- Of a link that is down, the session in the slot has ended or was never watched. Of a link that is being
restored this is not said: a watcher that is told to stop may leave the session that it has just brought. -/
def Cleared (k : Kernel) : Prop :=
  k.link ≠ .connected → k.link ≠ .reconnecting → Spent k.watched k.features k.handler

def OpenPhase.OnLeftover (k : Kernel) : OpenPhase → Prop
  | .working run => k.Spending run
  | .raiseLink | .startWatcher | .reportUp | .conclude (.ok _) => True
  | _ => k.Cleared

def ClosePhase.OnLeftover (k : Kernel) : ClosePhase → Prop
  | .releasing .start => True
  | .releasing (.closing _) => k.handler.slot = none
  | _ => k.Cleared

def WatchPhase.OnLeftover (k : Kernel) : WatchPhase → Prop
  | .lowerLink _ => k.Cleared
  | .recovering run => k.Spending run
  | .raiseLink | .startWatcher | .reportUp => True
  | _ => Spent k.watched k.features k.handler

def leftoverRegime : Regime where
  settled := Cleared
  opening ph k := ph.OnLeftover k
  closing ph k := ph.OnLeftover k
  toggling _ _ _ _ k := k.link = .connected
  watching _ ph k := ph.OnLeftover k

/-! ## What others do -/

section

variable (hst : Still k k') (hf : k'.features = k.features)
include hst hf

theorem Still.spent (hk : Spent k.watched k.features k.handler) : Spent k'.watched k'.features k'.handler := by
  obtain ⟨A, ht⟩ := hst.wire
  rw [hst.watched_eq, hf]
  exact hk.touches hst.slot ht

theorem Still.cleared (hk : k.Cleared) : k'.Cleared := fun hc hr =>
  hst.spent hf (hk (hst.link ▸ hc) (hst.link ▸ hr))

theorem Still.spending {run : Run Recovery} (hk : k.Spending run) : k'.Spending run := by
  obtain ⟨A, ht⟩ := hst.wire
  unfold Spending Run.Holds at hk ⊢
  rw [hst.watched_eq, hf]
  split at hk
  · exact hk.touches hst.slot ht
  · exact hk.touches hst.slot ht

end

theorem OpenPhase.OnLeftover.aside {ph : OpenPhase} (h : Aside k k') (hk : ph.OnLeftover k) :
    ph.OnLeftover k' := by
  cases ph with
  | working run => exact h.still.spending h.features hk
  | raiseLink | startWatcher | reportUp => trivial
  | conclude outcome =>
    cases outcome with
    | ok => trivial
    | error => exact h.still.cleared h.features hk
  | _ => exact h.still.cleared h.features hk

theorem ClosePhase.OnLeftover.aside {ph : ClosePhase} (h : Aside k k') (hk : ph.OnLeftover k) :
    ph.OnLeftover k' := by
  cases ph with
  | releasing c =>
    cases c with
    | start => trivial
    | closing => exact h.slot.trans hk
  | _ => exact h.still.cleared h.features hk

theorem WatchPhase.OnLeftover.aside {ph : WatchPhase} (h : Aside k k') (hk : ph.OnLeftover k) :
    ph.OnLeftover k' := by
  cases ph with
  | lowerLink => exact h.still.cleared h.features hk
  | recovering run => exact h.still.spending h.features hk
  | raiseLink | startWatcher | reportUp => trivial
  | _ => exact h.still.spent h.features hk

/-! ## Parties inside -/

theorem OpenPhase.leftover_step {token : Nat} {ph : OpenPhase}
    {pr : Progress OpenPhase (Except ClientError Unit)} (hi : ph.stance = .inside) (hl : ph.OnLink k)
    (hk : ph.OnLeftover k) (h : ph.step token p k = some (k', pr)) :
    pr.Leaves (fun ph' => leftoverRegime.opener ph' k') k'.Cleared k'.Cleared := by
  have released : ∀ {gate : FairLock Party} {lastOpen epoch}, k.Cleared →
      Cleared { k with gate, lastOpen, epoch } := fun hc => Still.cleared { Still.refl k with } rfl hc
  cases turn_of_step h with
  | refusedInside | found => exact released hk
  | @shared _ outcome => cases outcome <;> exact released hk
  | @concluded outcome =>
    cases outcome with
    | ok => exact fun hne _ => absurd hl.2 hne
    | error => exact released hk
  | admittedInside | own | late => exact hk
  | began hlife =>
    refine hk hl.2.2 fun hrec => ?_
    have hm := hl.1.meaning
    rw [hrec] at hm
    exact absurd (hlife.symm.trans hm.2) (by simp)
  | @overtaken run =>
    have hr := relays_overtaken k k token run
    intro _ _
    rw [hr.watched_eq, hr.features_eq]
    exact Spending.spent hk _ _
  | @worked _ _ q _ ht =>
    have hq := Spending.turn hk hl.2 recovery_le_open relays_granted (fun _ _ => rfl) ht rfl
    cases q with
    | more run' => exact hq
    | done r =>
      cases r with
      | ok v => trivial
      | error e => cases e <;> exact fun _ _ => hq
  | raised | watched | reportedUp => trivial
  | reportedDown => exact (still_report k _ _).cleared rfl hk
  | _ => cases hi

theorem ClosePhase.leftover_step {ph : ClosePhase} {pr : Progress ClosePhase (Except ClientError Unit)}
    (hi : ph.stance = .inside) (hs : ph.OnSlot k) (hk : ph.OnLeftover k)
    (h : ph.step p k = some (k', pr)) :
    pr.Leaves (fun ph' => leftoverRegime.closer ph' k') k'.Cleared k'.Cleared := by
  have emptied : ∀ {c : Closing} {handler : Handler} {pr}, (releasing c).OnLeftover k →
      c.step k.handler = some (handler, pr) → handler.slot = none := by
    intro c handler pr hk hs
    cases c with
    | start => exact (Closing.slot_step hs).2 (.inl rfl)
    | closing => exact (Closing.slot_step hs).2 (.inr hk)
  cases turn_of_step h with
  | lowered => trivial
  | loweredUnopened ho => exact fun _ _ => spent_of_none (Vacant.unused hs ho).slot
  | @releasing _ c' _ hc =>
    cases c' with
    | start => trivial
    | closing => exact emptied hk hc
  | released hc | troubled hc => exact fun _ _ => spent_of_none (emptied hk hc)
  | _ => cases hi

/-- What a watcher that interrupts the link finds in the slot is the session that has ended. -/
theorem spent_of_lowerLink (hr : k.Reachable) {i : Nat} {w : Watcher} {cause : CloseCause}
    (hw : k.watchers[i]? = some w) (hp : w.phase = .lowerLink cause) (hl : k.link ≠ .closed) :
    Spent k.watched k.features k.handler := by
  have hpost := getElem?_posts hw
  rw [hp] at hpost
  have hk := linkRegime_kept.watching_of_inside hr hw (by rw [hp]; rfl)
  rw [hp] at hk
  have hset : k.Settled := hk
  have hun := unended_of_post hpost rfl
  obtain ⟨-, s, ph, hq, hslot⟩ := hset.attended_of_unended (hset.connected_of_unended hun hl) hun
  rw [hpost] at hq
  have hws : w.session = some s := (Prod.mk.inj (Option.some.inj hq)).1
  have hcause := informed_of_reachable hr i _ cause hpost rfl
  intro t ht
  rw [hslot] at ht
  cases ht
  rw [hws] at hcause
  exact .inl ⟨cause, hcause⟩

theorem WatchPhase.leftover_step (hr : k.Reachable) {i : Nat} {w : Watcher} {ph : WatchPhase}
    (hw : k.watchers[i]? = some w) (hi : w.phase.stance = .inside) (hl : w.phase.OnLink i k)
    (hk : w.phase.OnLeftover k) (h : w.phase.step (.watcher i) k w = some (k', ph)) :
    leftoverRegime.watcher i ph (k'.setPhase i ph) := by
  have spent : ∀ {k : Kernel} {ph}, Spent k.watched k.features k.handler →
      Spent (k.setPhase i ph).watched (k.setPhase i ph).features (k.setPhase i ph).handler := fun hk => by
    rw [setPhase_watched]
    exact hk
  have reported : ∀ {state reason}, Spent k.watched k.features k.handler →
      Spent (k.report state reason).watched (k.report state reason).features (k.report state reason).handler :=
    fun hk => (still_report k _ _).spent rfl hk
  have spending : ∀ {k : Kernel} {run ph}, k.Spending run → (k.setPhase i ph).Spending run := fun hk => by
    unfold Spending at hk ⊢
    rw [setPhase_watched]
    exact hk
  have ht := turn_of_step h
  generalize hph : w.phase = ph₀ at ht hi hl hk
  cases ht with
  | foundClosed hc => exact fun hne hnr => spent (hk hne hnr)
  | lowered hc =>
    have hs := spent_of_lowerLink hr hw hph hc
    exact spent (k := k.setLink .reconnecting) hs
  | declined | granted => exact spent hk
  | stoppedPausing => exact fun _ _ => spent hk
  | expired | reportedDown => exact fun _ _ => spent (reported hk)
  | paused => exact spent (reported hk)
  | @announced policy =>
    exact spending (Spent.spending (reported hk)
      (watcherAction (k.report .retrying .communicationError) w) rfl policy 1)
  | @resumed policy => exact spending (Spent.spending hk (watcherAction k w) rfl policy 1)
  | worked ht hq =>
    have hturn := Spending.turn hk hl.2 (Scope.le_refl _) (fun k _ => Relays.refl k) (fun _ _ => rfl) ht rfl
    cases hq with
    | goesOn => exact spending hturn
    | restored => trivial
    | stopped r =>
      have hlink := (relays_recovering ht).link_eq.trans hl.1.link
      exact fun _ hnr => absurd hlink hnr
    | failed => exact spent hturn
  | raised | watched => trivial
  | reportedUp => exact fun hne _ => absurd hl.2.1 hne
  | _ => cases hi

/-! ## The regime is kept -/

theorem leftoverRegime_kept : leftoverRegime.Kept where
  reachable := id
  initial _ _ := fun _ _ => spent_of_none rfl
  settled_aside h hk := h.still.cleared h.features hk
  opening_aside h hk := hk.aside h
  closing_aside h hk := hk.aside h
  toggling_aside h hk := h.link.trans hk
  watching_aside h hk := hk.aside h
  enter_opening hk := hk
  enter_closing _ _ hk := hk
  enter_toggling hl _ _ := hl
  enter_watching hk := hk
  step_opening hr ht hi hk h := OpenPhase.leftover_step hi (linkRegime_kept.opening_of_inside hr ht hi) hk h
  step_closing hr ht hi hk h := ClosePhase.leftover_step hi (slotRegime_kept.closing_of_inside hr ht hi) hk h
  step_toggling {_ _ _ _ _ _ _ k' _ pr} _ _ _ hk h := by
    have hl : k'.link = .connected := (Toggling.still h).link.trans hk
    have hc : k'.Cleared := fun hne _ => absurd hl hne
    cases pr with
    | more a =>
      cases a with
      | calling g => exact hl
      | _ => exact hc
    | done r => cases r <;> exact hc
  abandon_toggling _ _ _ _ hk := fun hne _ => absurd hk hne
  step_watching hr hw hi hk h :=
    WatchPhase.leftover_step hr hw hi (linkRegime_kept.watching_of_inside hr hw hi) hk h

/-! ## Links that are down -/

/-- A link that has been up is never again one that was not opened. -/
theorem link_ne_unopened (h : k.Reachable) (ho : k.opened = true) : k.link ≠ .unopened := by
  refine Reachable.induct (P := fun k => k.opened = true → k.link ≠ .unopened)
    (fun _ _ ho => by cases ho) (fun {k k' e} hr ih he ho hl => ?_) h ho
  cases hk : k.opened with
  | true =>
    have hm := linkMoves_after hr he
    rw [hl] at hm
    generalize hkl : k.link = l at hm
    cases hm
    exact ih hk hkl
  | false =>
    rcases notes_after (orderly_of_reachable hr) he with hn | ⟨i, rfl, hn⟩
    · rw [hn.opened, hk] at ho
      cases ho
    · cases hn with
      | raised => cases hl
      | disposed | concluded =>
        have ho : k.opened = true := ho
        rw [hk] at ho
        cases ho

/-- Whenever the gate is free, the slot is empty before the connection was ever up and after the link was closed.
Of a lost link, a session in the slot that has not ended is newer than every session that was watched, and there
are features that were to be replayed on it; so with no feature on, no session is left open. -/
theorem slot_of_down (h : k.Reachable) (hg : k.gate.holder = none) :
    (k.link = .unopened ∨ k.link = .closed → k.handler.slot = none) ∧
    (k.link = .lost → ∀ s, k.handler.slot = some s → k.handler.wire.ended s = false →
      (∀ t ∈ k.watched, t < s) ∧ k.features.channels ≠ []) := by
  have hv : k.Vacant := (slotRegime_kept.custody h).settled hg
  have hc : k.Cleared := (leftoverRegime_kept.custody h).settled hg
  refine ⟨fun hl => ?_, fun hl s hs he => ?_⟩
  · rcases hl with hl | hl
    · cases ho : k.opened with
      | false => exact (hv.unused ho).slot
      | true => exact absurd hl (link_ne_unopened h ho)
    · exact hv.closed hl
  · rcases hc (by simp [hl]) (by simp [hl]) s hs with ⟨cause, hcause⟩ | ⟨⟨s', hs', hlt, -⟩, hf⟩
    · have hsess : k.handler.wire.sessions[s]? = some (some cause) := Option.join_eq_some_iff.mp hcause
      simp [ended, hsess] at he
    · rw [hs] at hs'
      cases hs'
      exact ⟨hlt, hf⟩

/-- The first session was brought up with methods on it; on the session that restores it the subscription is
refused for good. -/
def refusedReplay : List Happening :=
  firstOpening ++ [Happening.start 0 (.toggle .methods true false)] ++ List.replicate 7 (Happening.stepTask 1) ++
    [Happening.answer 2 (.ok .done), .stepTask 1, .endSession 0 (.remote "reset")] ++
    List.replicate 6 (Happening.stepWatcher 0) ++
    [Happening.pass 100, .stepWatcher 0, .stepWatcher 0, .answer 3 (.ok .done), .stepWatcher 0,
      .answer 4 (.ok .done), .stepWatcher 0, .answer 5 (.ok .done), .stepWatcher 0, .stepWatcher 0,
      .answer 6 (.error (.unauthorized "revoked"))] ++ List.replicate 2 (Happening.stepWatcher 0)

/-- The session in the slot at the end of this run was never watched, and methods were to be replayed on it. -/
theorem slot_of_down_refusedReplay : ∃ k, (initial none .standard).course refusedReplay = some k ∧
    k.link = .lost ∧ k.handler.slot = some 1 ∧ (∀ t ∈ k.watched, t < 1) ∧ k.features.channels ≠ [] := by
  obtain ⟨k, hc, hg, hl, hs, he⟩ : ∃ k, (initial none .standard).course refusedReplay = some k ∧
      k.gate.holder = none ∧ k.link = .lost ∧ k.handler.slot = some 1 ∧ k.handler.wire.ended 1 = false :=
    ⟨_, rfl, rfl, rfl, rfl, rfl⟩
  have h := slot_of_down ⟨none, .standard, reaches_of_course hc⟩ hg
  exact ⟨k, hc, hl, hs, h.2 hl 1 hs he⟩

/-- A session that is left open: the watcher has given up, nobody holds the gate, every call has returned, and
the session of the failed attempt is in the slot and has not ended. -/
theorem session_left_open : ∃ k, (initial none .standard).course refusedReplay = some k ∧
    k.gate.holder = none ∧ k.link = .lost ∧ k.disposed = false ∧
    k.tasks = [⟨0, .ended (.ok .done)⟩, ⟨0, .ended (.ok .done)⟩] ∧ k.watcherEnded 0 = true ∧
    k.handler.slot = some 1 ∧ k.handler.wire.ended 1 = false :=
  ⟨_, rfl, rfl, rfl, rfl, rfl, rfl, rfl, rfl⟩

end HubDevice.Kernel
