import HubDevice.Proofs.Kernel.Link

/-!
# When the slot is empty

The regime of the session slot. The slot is empty before the link was ever up, and again once the link is
closed (`Vacant`). An attempt to open fills it only in the step that leads to the link being raised, because
there is nothing to subscribe before the first connection (`keeps_unused`); a closing empties it before the
gate is free again. Whoever else holds the gate works on a connection that was up (`Engaged`).
-/

namespace HubDevice

/-- An opening empties the slot at once, and as long as it has not succeeded the slot stays empty. -/
theorem Opening.slot_step {c : Bool} {o : Opening} {h h' : Handler}
    {pr : Progress Opening (Except ClientError Unit)} (hs : o.step c h = some (h', pr))
    (ho : o ≠ .start → h.slot = none) : pr.Leaves (fun _ => h'.slot = none) True (h'.slot = none) := by
  have taken : ∀ {id h₁ r}, o ≠ .start → h.take? id = some (h₁, r) → h₁.slot = none := fun hne ht =>
    (Handler.uses_take? (A := .nothing) ht).slot.trans (ho hne)
  cases o with
  | start =>
    simp only [step, create_eq] at hs
    split at hs <;> cases hs
    · assumption
    · rfl
  | discarding id =>
    simp only [step, create_eq] at hs
    split at hs <;> cases hs
    rename_i ht
    have hn' := taken (by simp) ht
    exact hn'
  | creating id =>
    simp only [step, create_eq] at hs
    split at hs <;> cases hs <;> rename_i ht <;> have hn' := taken (by simp) ht <;> exact hn'
  | connecting s id =>
    simp only [step] at hs
    split at hs <;> cases hs <;> rename_i ht
    · trivial
    · exact taken (by simp) ht

namespace Kernel

open FairLock Retry Wire

variable {p : Party} {k k' : Kernel}

/-- The connection was never up. -/
structure Unused (k : Kernel) : Prop where
  slot : k.handler.slot = none
  features : k.features.channels = []
  posts : k.posts = []
  link : k.link = .unopened ∨ k.link = .closed

/-- The connection was up and can be used again. -/
structure Engaged (k : Kernel) : Prop where
  opened : k.opened = true
  link : k.link ≠ .closed

/-- What is true of the slot while nobody is at work. -/
structure Vacant (k : Kernel) : Prop where
  unused : k.opened = false → k.Unused
  closed : k.link = .closed → k.handler.slot = none

theorem Engaged.vacant (h : k.Engaged) : k.Vacant where
  unused hf := absurd (h.opened.symm.trans hf) (by simp)
  closed hl := absurd hl h.link

theorem Vacant.opened (h : k.Vacant) (hl : k.link ≠ .unopened) (hc : k.link ≠ .closed) :
    k.opened = true := by
  cases ho : k.opened with
  | true => rfl
  | false =>
    rcases (h.unused ho).link with h | h
    · exact absurd h hl
    · exact absurd h hc

/-- Every watcher watches a connection that was up. -/
theorem Vacant.opened_of_watcher (h : k.Vacant) {i : Nat} {w : Watcher} (hw : k.watchers[i]? = some w) :
    k.opened = true := by
  cases ho : k.opened with
  | true => rfl
  | false =>
    have hp := getElem?_posts hw
    rw [(h.unused ho).posts] at hp
    cases hp

/-- An attempt before the connection was ever up has nothing to subscribe. -/
def Bare (run : Run Recovery) (k : Kernel) : Prop :=
  run.Holds Unused (fun a k => k.Unused ∧ ∃ o, a = .opening o) k

def OpenPhase.OnSlot (k : Kernel) : OpenPhase → Prop
  | .consider _ | .begin | .reportDown _ | .conclude (.error _) => k.Vacant ∧ k.link ≠ .closed
  | .working run => k.link ≠ .closed ∧ (k.opened = false → k.Bare run)
  | .raiseLink => k.opened = false → k.link = .unopened ∨ k.link = .closed
  | .startWatcher | .reportUp | .conclude (.ok _) => k.Engaged
  | _ => k.Vacant

def ClosePhase.OnSlot (k : Kernel) : ClosePhase → Prop
  | .releasing .start => k.opened = true
  | .releasing (.closing _) => k.opened = true ∧ k.handler.slot = none
  | _ => k.Vacant

def WatchPhase.OnSlot (k : Kernel) : WatchPhase → Prop
  | .lowerLink _ => k.Vacant
  | _ => k.Engaged

def slotRegime : Regime where
  settled := Vacant
  opening ph k := ph.OnSlot k
  closing ph k := ph.OnSlot k
  toggling _ _ _ _ := Engaged
  watching _ ph k := ph.OnSlot k

/-! ## What others do -/

section

variable (h : Aside k k')
include h

theorem Unused.aside (hk : k.Unused) : k'.Unused where
  slot := h.slot.trans hk.slot
  features := h.features.symm ▸ hk.features
  posts := by
    have hw := h.watched
    rw [hk.posts] at hw
    exact List.map_eq_nil_iff.mp hw
  link := h.link.symm ▸ hk.link

theorem Engaged.aside (hk : k.Engaged) : k'.Engaged where
  opened := h.opened.trans hk.opened
  link := h.link.symm ▸ hk.link

theorem Vacant.aside (hk : k.Vacant) : k'.Vacant where
  unused hf := (hk.unused (h.opened.symm.trans hf)).aside h
  closed hl := h.slot.trans (hk.closed (h.link.symm.trans hl))

theorem Bare.aside {run : Run Recovery} (hk : k.Bare run) : k'.Bare run := by
  unfold Bare Run.Holds at hk ⊢
  split at hk
  · exact ⟨hk.1.aside h, hk.2⟩
  · exact hk.aside h

end

theorem OpenPhase.OnSlot.aside {ph : OpenPhase} (h : Aside k k') (hk : ph.OnSlot k) : ph.OnSlot k' := by
  cases ph with
  | consider | begin | reportDown => exact ⟨hk.1.aside h, h.link.symm ▸ hk.2⟩
  | conclude outcome =>
    cases outcome with
    | ok => exact Engaged.aside h hk
    | error => exact ⟨hk.1.aside h, h.link.symm ▸ hk.2⟩
  | working run => exact ⟨h.link.symm ▸ hk.1, fun hf => (hk.2 (h.opened.symm.trans hf)).aside h⟩
  | raiseLink =>
    intro hf
    exact h.link.symm ▸ hk (h.opened.symm.trans hf)
  | startWatcher | reportUp => exact Engaged.aside h hk
  | _ => exact Vacant.aside h hk

theorem ClosePhase.OnSlot.aside {ph : ClosePhase} (h : Aside k k') (hk : ph.OnSlot k) : ph.OnSlot k' := by
  cases ph with
  | releasing c =>
    cases c with
    | start => exact h.opened.trans hk
    | closing => exact ⟨h.opened.trans hk.1, h.slot.trans hk.2⟩
  | _ => exact Vacant.aside h hk

theorem WatchPhase.OnSlot.aside {ph : WatchPhase} (h : Aside k k') (hk : ph.OnSlot k) : ph.OnSlot k' := by
  cases ph with
  | lowerLink => exact Vacant.aside h hk
  | _ => exact Engaged.aside h hk

/-! ## Attempts -/

theorem Unused.with_slot (hk : k.Unused) {handler : Handler} (hs : handler.slot = none) :
    Unused { k with handler } := { hk with slot := hs }

variable {fs : Features} {c : Bool} {granted : Kernel → ClientError → Kernel}

theorem keeps_unused (hf : fs.channels = []) (hg : ∀ k e, Unused k → (granted k e).Unused) :
    Run.Keeps (recovery fs c granted) Unused (fun a k => k.Unused ∧ ∃ o, a = .opening o)
      (fun _ => True) where
  start hk := ⟨hk, _, rfl⟩
  abandon {k a} hk := hk.1.with_slot ((a.uses_abandon (A := .nothing) k.handler).slot.trans hk.1.slot)
  granted e _ _ hk := hg _ e hk
  more {k a k' a'} hk hs := by
    obtain ⟨hu, o, rfl⟩ := hk
    obtain ⟨handler, he, rfl⟩ := liftHandler_eq_some hs
    cases Recovery.turn_of_step he with
    | opening ho => exact ⟨hu.with_slot (Opening.slot_step ho fun _ => hu.slot), _, rfl⟩
    | opened _ hpr =>
      -- Without a channel to subscribe the attempt is over.
      simp [Recovery.settle, Recovery.replay, hf] at hpr
  ok _ _ := trivial
  error {k a k' e} hk hs := by
    obtain ⟨hu, o, rfl⟩ := hk
    obtain ⟨handler, he, rfl⟩ := liftHandler_eq_some hs
    cases Recovery.turn_of_step he with
    | opened _ hpr => exact absurd hpr.symm Recovery.settle_ne_error
    | unopened ho => exact hu.with_slot (Opening.slot_step ho fun _ => hu.slot)

theorem keeps_openAction (hk : k.Unused) (token : Nat) :
    Run.Keeps (openAction k token) Unused (fun a k => k.Unused ∧ ∃ o, a = .opening o) (fun _ => True) :=
  keeps_unused hk.features fun _ _ h => ⟨h.slot, h.features, h.posts, h.link⟩

theorem Bare.unused {run : Run Recovery} (h : k.Bare run) : k.Unused := by
  unfold Bare Run.Holds at h
  split at h
  · exact h.1
  · exact h

/-! ## Parties inside -/

theorem OpenPhase.slot_step {token : Nat} {ph : OpenPhase}
    {pr : Progress OpenPhase (Except ClientError Unit)} (hr : k.Reachable) (hi : ph.stance = .inside)
    (hk : ph.OnSlot k) (h : ph.step token p k = some (k', pr)) :
    pr.Leaves (fun ph' => slotRegime.opener ph' k') k'.Vacant k'.Vacant := by
  have freed : ∀ {k : Kernel} {gate : FairLock Party}, k.Vacant → Vacant { k with gate } :=
    fun {k} _ hv => hv.aside { Aside.refl k with }
  have down : k'.opened = k.opened → k'.link = k.link → k.link ≠ .closed →
      (k.opened = false → k'.Unused) → k'.Vacant ∧ k'.link ≠ .closed := by
    intro ho hl hc hu
    have hc' : k'.link ≠ .closed := hl.symm ▸ hc
    exact ⟨⟨fun hf => hu (ho.symm.trans hf), fun h => absurd h hc'⟩, hc'⟩
  cases turn_of_step h with
  | refusedInside => exact freed hk
  | admittedInside hd =>
    refine ⟨hk, fun hl => ?_⟩
    rw [disposed_of_closed hr hl] at hd
    cases hd
  | found => exact freed hk.1
  | @shared _ outcome => cases outcome <;> exact freed hk.1
  | own | late => exact hk
  | began =>
    exact ⟨hk.2, fun hf => (keeps_openAction (hk.1.unused hf) token).holds_ofPolicy _ _ (hk.1.unused hf)⟩
  | @overtaken run =>
    obtain ⟨hl, hb⟩ := hk
    have hrel := relays_overtaken k k token run
    refine down hrel.opened_eq hrel.link_eq hl fun hf => ?_
    exact (keeps_openAction (hb hf).unused token).idle_abandon (hb hf)
  | @worked _ _ q _ ht =>
    obtain ⟨hl, hb⟩ := hk
    have hrel := relays_worked ht
    have hq : k.opened = false → q.Leaves (fun run' => k'.Bare run') True k'.Unused := fun hf =>
      ht.keeps (keeps_openAction (hb hf).unused token) (hb hf)
    cases q with
    | more run' => exact ⟨hrel.link_eq.symm ▸ hl, fun hf => hq (hrel.opened_eq.symm.trans hf)⟩
    | done r =>
      cases r with
      | ok v =>
        intro hf
        exact hrel.link_eq.symm ▸ (hb (hrel.opened_eq.symm.trans hf)).unused.link
      | error e =>
        have hv := down hrel.opened_eq hrel.link_eq hl hq
        cases e <;> exact hv
  | raised => exact ⟨rfl, by simp [setLink]⟩
  | watched | reportedUp => exact ⟨hk.opened, hk.link⟩
  | reportedDown => exact ⟨⟨fun hf => { hk.1.unused hf with }, hk.1.closed⟩, hk.2⟩
  | @concluded outcome =>
    cases outcome with
    | ok => exact Engaged.vacant ⟨hk.opened, hk.link⟩
    | error e => exact ⟨fun hf => { hk.1.unused hf with }, hk.1.closed⟩
  | _ => cases hi

theorem ClosePhase.slot_step {ph : ClosePhase} {pr : Progress ClosePhase (Except ClientError Unit)}
    (hi : ph.stance = .inside) (hk : ph.OnSlot k) (h : ph.step p k = some (k', pr)) :
    pr.Leaves (fun ph' => slotRegime.closer ph' k') k'.Vacant k'.Vacant := by
  have released : ∀ {c : Closing} {handler : Handler} {pr}, (releasing c).OnSlot k →
      c.step k.handler = some (handler, pr) → k.opened = true ∧ handler.slot = none := by
    intro c handler pr hk hs
    cases c with
    | start => exact ⟨hk, (Closing.slot_step hs).2 (.inl rfl)⟩
    | closing => exact ⟨hk.1, (Closing.slot_step hs).2 (.inr hk.2)⟩
  have vacant : ∀ {handler : Handler} {gate : FairLock Party}, k.opened = true ∧ handler.slot = none →
      Vacant { k with handler, gate } := fun hk' =>
    ⟨fun hf => absurd (hk'.1.symm.trans hf) (by simp), fun _ => hk'.2⟩
  cases turn_of_step h with
  | lowered ho => exact ho
  | loweredUnopened hf =>
    have hu : k.Unused := hk.unused hf
    exact ⟨fun _ => { hu with link := .inr rfl }, fun _ => hu.slot⟩
  | @releasing _ c' _ hs =>
    have hk' := released hk hs
    cases c' with
    | start => exact hk'.1
    | closing => exact hk'
  | released hs | troubled hs => exact vacant (released hk hs)
  | _ => cases hi

theorem WatchPhase.slot_step {i : Nat} {w : Watcher} {ph : WatchPhase} (hw : k.watchers[i]? = some w)
    (hi : w.phase.stance = .inside) (hk : w.phase.OnSlot k)
    (h : w.phase.step (.watcher i) k w = some (k', ph)) : slotRegime.watcher i ph (k'.setPhase i ph) := by
  have opened : w.phase.OnSlot k → k.opened = true := by
    intro hk
    generalize w.phase = ph₀ at hk hi
    cases ph₀ with
    | lowerLink => exact hk.opened_of_watcher hw
    | watching | askGate | awaitGate | ended => cases hi
    | _ => exact hk.opened
  have ho := opened hk
  have ht := turn_of_step h
  generalize w.phase = ph₀ at ht hi hk
  cases ht with
  | foundClosed => exact ⟨fun hf => absurd (ho.symm.trans hf) (by simp), hk.closed⟩
  | lowered | declined | raised => exact ⟨ho, by simp [setPhase, setLink]⟩
  | granted | resumed | announced | paused | watched => exact ⟨ho, hk.link⟩
  | stoppedPausing | expired | reportedUp | reportedDown => exact Engaged.vacant ⟨ho, hk.link⟩
  | worked ht hq =>
    have hr := relays_recovering ht
    cases hq with
    | goesOn | restored => exact ⟨hr.opened_eq.trans ho, hr.link_eq.symm ▸ hk.link⟩
    | stopped => exact Engaged.vacant ⟨hr.opened_eq.trans ho, hr.link_eq.symm ▸ hk.link⟩
    | failed => exact ⟨hr.opened_eq.trans ho, by simp [setPhase, setLink]⟩
  | _ => cases hi

/-! ## The regime is kept -/

theorem slotRegime_kept : slotRegime.Kept where
  reachable := id
  initial _ _ := ⟨fun _ => ⟨rfl, rfl, rfl, .inl rfl⟩, fun h => by cases h⟩
  settled_aside h hk := hk.aside h
  opening_aside h hk := hk.aside h
  closing_aside h hk := hk.aside h
  toggling_aside h hk := hk.aside h
  watching_aside h hk := hk.aside h
  enter_opening hk := hk
  enter_closing _ _ hk := hk
  enter_toggling hl _ hk := ⟨hk.opened (by simp [hl]) (by simp [hl]), by simp [hl]⟩
  enter_watching hk := hk
  step_opening hr _ hi hk h := OpenPhase.slot_step hr hi hk h
  step_closing _ _ hi hk h := ClosePhase.slot_step hi hk h
  step_toggling {_ _ _ _ _ _ _ k' _ pr} _ _ _ hk h := by
    have he : k'.Engaged := ⟨(Toggling.movement h).opened hk.opened, (Toggling.still h).link.symm ▸ hk.link⟩
    cases pr with
    | more a =>
      cases a with
      | calling g => exact he
      | _ => exact he.vacant
    | done r => cases r <;> exact he.vacant
  abandon_toggling _ _ _ _ hk := ⟨fun hf => absurd (hk.opened.symm.trans hf) (by simp), fun hl => absurd hl hk.link⟩
  step_watching _ hw hi hk h := WatchPhase.slot_step hw hi hk h

/-- A link that is up, or was, belongs to an open call that succeeded. -/
theorem opened_of_link (h : k.Reachable) (hl : k.link ≠ .unopened) (hc : k.link ≠ .closed) :
    k.opened = true := by
  have unused : (k.opened = false → k.link = .unopened ∨ k.link = .closed) → k.opened = true := fun hu => by
    cases ho : k.opened with
    | true => rfl
    | false =>
      rcases hu ho with h | h
      · exact absurd h hl
      · exact absurd h hc
  have vacant : k.Vacant → k.opened = true := fun hv => hv.opened hl hc
  refine slotRegime_kept.always h vacant (fun {_ _ ph} _ _ hk => ?_) (fun {_ _ ph} _ hi hk => ?_)
    (fun _ _ hk => Engaged.opened hk) (fun {_ w} _ _ hk => ?_)
  · have hk : ph.OnSlot k := hk
    cases ph with
    | consider | begin | reportDown => exact vacant hk.1
    | conclude outcome =>
      cases outcome with
      | ok => exact hk.opened
      | error => exact vacant hk.1
    | working run => exact unused fun hf => (hk.2 hf).unused.link
    | raiseLink => exact unused hk
    | startWatcher | reportUp => exact hk.opened
    | _ => exact vacant hk
  · have hk : ph.OnSlot k := hk
    cases ph with
    | lowerLink => exact vacant hk
    | releasing c =>
      cases c with
      | start => exact hk
      | closing => exact hk.1
    | _ => cases hi
  · revert hk
    generalize w.phase = ph
    intro (hk : ph.OnSlot k)
    cases ph with
    | lowerLink => exact vacant hk
    | _ => exact hk.opened

end Kernel

end HubDevice
