import HubDevice.Proofs.Kernel.Gate

/-!
# What happens aside of the gate

`Aside k k'` says that the part of the kernel that the gate protects is as it was: the link, the recorded
features, the outcome of the last opening, the session in the slot and the sessions that are watched. Time may
pass, only routine calls are made, a watcher ends only when everything is over, and only a close call that
follows a successful opening tells the application anything. This is all that a party does while it is not
inside the gate, and all that a party does inside that only looks.
-/

namespace HubDevice.Kernel

open FairLock Retry Wire

/-- Whether a watcher in this phase has ended. -/
def WatchPhase.isOver : WatchPhase → Bool
  | .ended _ => true
  | _ => false

theorem watcherEnded_eq (k : Kernel) (i : Nat) :
    k.watcherEnded i = (k.posts[i]?.map fun q => q.2.isOver).getD true := by
  unfold watcherEnded
  simp only [posts, List.getElem?_map]
  cases k.watchers[i]? with
  | none => rfl
  | some w =>
    obtain ⟨s, b, ph⟩ := w
    cases ph <;> rfl

/-- Routine calls, and what a closing reports. -/
def asideScope : Scope :=
  { Scope.routine with
    statuses := fun st => st = ⟨.disconnected, .communicationError⟩ ∨ st = ⟨.disabled, .clientClosed⟩ }

theorem routine_le_aside : Scope.routine ≤ asideScope := ⟨fun _ => id, fun _ => False.elim⟩

/-- What the gate protects is left as it was. -/
structure Aside (k k' : Kernel) : Prop where
  link : k'.link = k.link
  connected : k'.connected = k.connected
  opened : k'.opened = k.opened
  features : k'.features = k.features
  lastOpen : k'.lastOpen = k.lastOpen
  epoch : k'.epoch = k.epoch
  told : k'.status = k.status ∨
    (k'.disposed = true ∧ k'.opened = true ∧ k'.status.value.state ≠ .connected)
  slot : k'.handler.slot = k.handler.slot
  clock : k.handler.now ≤ k'.handler.now
  wire : k.handler.wire.Touches asideScope k'.handler.wire
  disposed : k.disposed = true → k'.disposed = true
  lifetimeOver : k.lifetimeOver = true → k'.lifetimeOver = true
  watched : k'.posts.map Prod.fst = k.posts.map Prod.fst
  ended : ∀ i, k.watcherEnded i = true → k'.watcherEnded i = true
  halted : ∀ i, k.watcherEnded i = false → k'.watcherEnded i = true → k.lifetimeOver = true

namespace Aside

variable {k k' k'' : Kernel}

theorem refl (k : Kernel) : Aside k k where
  link := rfl
  connected := rfl
  opened := rfl
  features := rfl
  lastOpen := rfl
  epoch := rfl
  told := .inl rfl
  slot := rfl
  clock := Nat.le_refl _
  wire := Touches.refl _
  disposed := id
  lifetimeOver := id
  watched := rfl
  ended _ := id
  halted _ h h' := absurd (h.symm.trans h') Bool.false_ne_true

theorem trans (h : Aside k k') (h' : Aside k' k'') (hl : k'.lifetimeOver = k.lifetimeOver) :
    Aside k k'' where
  link := h'.link.trans h.link
  connected := h'.connected.trans h.connected
  opened := h'.opened.trans h.opened
  features := h'.features.trans h.features
  lastOpen := h'.lastOpen.trans h.lastOpen
  epoch := h'.epoch.trans h.epoch
  told := by
    rcases h'.told with he' | hc
    · rcases h.told with he | ⟨hd, ho, hs⟩
      · exact .inl (he'.trans he)
      · exact .inr ⟨h'.disposed hd, h'.opened.trans ho, he' ▸ hs⟩
    · exact .inr hc
  slot := h'.slot.trans h.slot
  clock := Nat.le_trans h.clock h'.clock
  wire := h.wire.trans h'.wire
  disposed hd := h'.disposed (h.disposed hd)
  lifetimeOver hl := h'.lifetimeOver (h.lifetimeOver hl)
  watched := h'.watched.trans h.watched
  ended i he := h'.ended i (h.ended i he)
  halted i he he' := by
    cases hm : k'.watcherEnded i with
    | true => exact h.halted i he hm
    | false => exact hl ▸ h'.halted i hm he'

/-- No watcher is new. -/
theorem length_posts (h : Aside k k') : k'.posts.length = k.posts.length := by
  simpa using congrArg List.length h.watched

end Aside

variable {p : Party} {k k' : Kernel}

theorem aside_report {state : ConnectionState} {reason : StatusReason}
    (hc : k.disposed = true ∧ k.opened = true) (h : asideScope.statuses ⟨state, reason⟩) :
    Aside k (k.report state reason) :=
  { Aside.refl k with
    told := .inr ⟨hc.1, hc.2, by rcases h with h | h <;> cases h <;> simp [report, Watched.set]⟩
    wire := (Touch.reported h).touches }

theorem aside_uses {handler : Handler} (h : Handler.Uses .routine k.handler handler) :
    Aside k { k with handler } :=
  { Aside.refl k with
    slot := h.slot
    clock := Nat.le_of_eq h.now.symm
    wire := h.touches.mono routine_le_aside }

theorem aside_dismissWatcher (k : Kernel) : Aside k k.dismissWatcher := by
  have hp := posts_dismissWatcher k
  have he : ∀ i, k.dismissWatcher.watcherEnded i = k.watcherEnded i := fun i => by
    rw [watcherEnded_eq, watcherEnded_eq, hp]
  have hd : ∃ watchers watcher, k.dismissWatcher = { k with watchers, watcher } := by
    unfold dismissWatcher
    split <;> exact ⟨_, _, rfl⟩
  obtain ⟨watchers, watcher, hd⟩ := hd
  rw [hd] at hp he ⊢
  exact {
    Aside.refl k with
    watched := by rw [hp]
    ended := fun i h => (he i).trans h
    halted := fun i h h' => absurd (h.symm.trans ((he i).symm.trans h')) Bool.false_ne_true }

/-! ## Operations -/

theorem Admission.aside {a : Admission} {pr : Progress Admission (Except ClientError Unit)}
    (h : a.Turn p k k' pr) : Aside k k' := by
  cases h with
  | refused | admitted | connected | unconnected | entered => exact Aside.refl k
  | asked | read => exact { Aside.refl k with }

theorem Admission.aside_abandon (a : Admission) : Aside k (a.abandon p k) := by
  cases a <;> exact { Aside.refl k with }

theorem Guarded.aside {x : Exchange} {a : Guarded} {pr : Progress Guarded (Except ClientError Reply)}
    (h : a.step x p k = some (k', pr)) : Aside k k' := by
  cases turn_of_step h with
  | admitting ht | admitted ht | refused ht => exact Admission.aside ht
  | calling hf | returned hf => exact aside_uses (Forward.uses_step hf)

theorem Guarded.aside_abandon (a : Guarded) : Aside k (a.abandon p k) := by
  cases a with
  | admission a => exact a.aside_abandon
  | calling f => exact aside_uses (f.uses_abandon k.handler)

/-- A data operation never touches what the gate protects. -/
theorem Guarded.aside_turn {x : Exchange} {c : Bool} {r : Run Guarded}
    {pr : Progress (Run Guarded) (Except ClientError Reply)} (h : Run.Turn (guarded x p) c k r k' pr) :
    Aside k k' := by
  cases h with
  | cancelledActing => exact Guarded.aside_abandon _
  | cancelledPausing | resumed => exact Aside.refl k
  | advanced _ hs | succeeded _ _ hs | failed _ hs | retried _ hs => exact Guarded.aside hs

/-- Turning a feature on or off touches it only once the transport is asked. -/
theorem Toggling.aside {f : Feature} {enable edge : Bool} {a : Toggling}
    {pr : Progress Toggling (Except ClientError Reply)} (ha : ∀ g, a ≠ .calling g)
    (h : a.step f enable edge p k = some (k', pr)) : Aside k k' := by
  cases turn_of_step h with
  | admitting ht | admitted ht | refused ht => exact Admission.aside ht
  | entered | began => exact Aside.refl k
  | asked | unusable | pointless => exact { Aside.refl k with }
  | calling | changed | failed => exact absurd rfl (ha _)

theorem Toggling.aside_abandon (a : Toggling) : Aside k (a.abandon p k) := by
  cases a with
  | admission a => exact a.aside_abandon
  | askGate | awaitGate | check => exact { Aside.refl k with }
  | calling g =>
    have hu := g.uses_abandon k.handler (A := asideScope)
    exact { Aside.refl k with slot := hu.slot, clock := Nat.le_of_eq hu.now.symm, wire := hu.touches }

/-- A run that has not asked the transport does not touch it. -/
theorem Toggling.aside_turn {f : Feature} {enable edge c : Bool} {r : Run Toggling}
    {pr : Progress (Run Toggling) (Except ClientError Reply)} (ha : ∀ g, r.phase ≠ .acting (.calling g))
    (h : Run.Turn (Kernel.toggling f enable edge p) c k r k' pr) : Aside k k' := by
  have stepped : ∀ {a pr}, r.phase = .acting a → a.step f enable edge p k = some (k', pr) →
      Aside k k' := fun hp hs => Toggling.aside (fun g e => ha g (e ▸ hp)) hs
  cases h with
  | cancelledActing => exact Toggling.aside_abandon _
  | cancelledPausing | resumed => exact Aside.refl k
  | advanced hp hs | succeeded _ hp hs | failed hp hs => exact stepped hp hs
  | retried hp hs => exact stepped hp hs

/-- An open call does not touch it before it begins an attempt. -/
theorem OpenPhase.aside {token : Nat} {ph : OpenPhase} {pr : Progress OpenPhase (Except ClientError Unit)}
    (hp : ph.stance ≠ .inside ∨ (∃ e, ph = .recheckDisposed e) ∨ ∃ e, ph = .consider e)
    (h : ph.step token p k = some (k', pr)) : Aside k k' := by
  cases turn_of_step h with
  | refused | admitted | connected | unconnected | read | cancelled | entered => exact Aside.refl k
  | admittedInside | own => exact Aside.refl k
  | asked | gaveUp | refusedInside | found | shared => exact { Aside.refl k with }
  | _ => simp [stance] at hp

theorem ClosePhase.aside {ph : ClosePhase} {pr : Progress ClosePhase (Except ClientError Unit)}
    (hp : ph.stance ≠ .inside)
    (hc : ph = .reportTrouble ∨ ph = .reportClosed → k.disposed = true ∧ k.opened = true)
    (h : ph.step p k = some (k', pr)) : Aside k k' := by
  cases turn_of_step h with
  | already | entered | unwatched | joined => exact Aside.refl k
  | disposed => exact { Aside.refl k with told := .inl rfl, disposed := fun _ => rfl }
  | lifetimeEnded => exact { Aside.refl k with lifetimeOver := fun _ => rfl }
  | asked => exact { Aside.refl k with }
  | reportedTrouble => exact aside_report (hc (.inl rfl)) (.inl rfl)
  | reportedClosed => exact aside_report (hc (.inr rfl)) (.inr rfl)
  | dismissed => exact aside_dismissWatcher k
  | lowered | loweredUnopened | releasing | released | troubled => exact absurd rfl hp

/-! ## Watchers -/

/-- The kernel after the watcher with a number has come to a phase. -/
def setPhase (k : Kernel) (i : Nat) (phase : WatchPhase) : Kernel :=
  { k with watchers := k.watchers.modify i fun w => { w with phase } }

theorem getElem?_posts {i : Nat} {w : Watcher} (h : k.watchers[i]? = some w) :
    k.posts[i]? = some (w.session, w.phase) := by
  simp [posts, h]

theorem posts_setPhase (k : Kernel) (i j : Nat) (ph : WatchPhase) :
    (k.setPhase i ph).posts[j]? =
      if i = j then k.posts[j]?.map fun q => (q.1, ph) else k.posts[j]? := by
  simp only [posts, setPhase, List.getElem?_map, List.getElem?_modify]
  cases k.watchers[j]? with
  | none => split <;> rfl
  | some w => split <;> rfl

theorem watched_setPhase (k : Kernel) (i : Nat) (ph : WatchPhase) :
    (k.setPhase i ph).posts.map Prod.fst = k.posts.map Prod.fst := by
  apply List.ext_getElem?
  intro j
  simp only [List.getElem?_map, posts_setPhase]
  cases k.posts[j]? <;> split <;> rfl

theorem length_posts_setPhase (k : Kernel) (i : Nat) (ph : WatchPhase) :
    (k.setPhase i ph).posts.length = k.posts.length := by
  simp [posts, setPhase]

theorem watcherEnded_setPhase (k : Kernel) {i : Nat} (j : Nat) (ph : WatchPhase)
    (hi : i < k.posts.length) :
    (k.setPhase i ph).watcherEnded j = if i = j then ph.isOver else k.watcherEnded j := by
  rw [watcherEnded_eq, watcherEnded_eq, posts_setPhase]
  by_cases hij : i = j
  · subst hij
    simp [List.getElem?_eq_getElem hi]
  · simp [hij]

/-- A watcher that comes to another phase without ending, unless everything is over. -/
theorem aside_setPhase {i : Nat} {w : Watcher} {ph : WatchPhase} (hw : k.watchers[i]? = some w)
    (ho : w.phase.isOver = false) (hl : ph.isOver = true → k.lifetimeOver = true) :
    Aside k (k.setPhase i ph) := by
  have hp := getElem?_posts hw
  have hi : i < k.posts.length := (List.getElem?_eq_some_iff.mp hp).1
  have hs : k.watcherEnded i = false := by
    rw [watcherEnded_eq, hp]
    exact ho
  refine { Aside.refl k with watched := watched_setPhase k i ph, ended := ?_, halted := ?_ }
  · intro j hj
    rw [watcherEnded_setPhase k j ph hi]
    split
    · rename_i hij
      subst hij
      rw [hs] at hj
      cases hj
    · exact hj
  · intro j hj hj'
    rw [watcherEnded_setPhase k j ph hi] at hj'
    split at hj'
    · exact hl hj'
    · rw [hj] at hj'
      cases hj'

/-- A watcher does not touch it before it has the gate. -/
theorem WatchPhase.aside {i : Nat} {w : Watcher} {ph : WatchPhase} {k₁ : Kernel}
    (hw : k.watchers[i]? = some w) (hp : w.phase.stance ≠ .inside)
    (hl : k.watcherStopped w = true → k.lifetimeOver = true)
    (h : w.phase.step p k w = some (k₁, ph)) : Aside k (k₁.setPhase i ph) := by
  have gated : ∀ {gate : FairLock Party} {ph : WatchPhase}, w.phase.isOver = false →
      (ph.isOver = true → k.lifetimeOver = true) → Aside k (setPhase { k with gate } i ph) := by
    intro gate ph ho hl
    have hk : Aside k { k with gate } := { Aside.refl k with }
    exact hk.trans (aside_setPhase hw ho hl) rfl
  have ht := turn_of_step h
  generalize hph : w.phase = ph₀ at ht hp
  rw [hph] at gated
  cases ht with
  | stopped hst | stoppedAsking hst => exact aside_setPhase hw (by rw [hph]; rfl) fun _ => hl hst
  | heard | entered => exact aside_setPhase hw (by rw [hph]; rfl) fun ho => by cases ho
  | asked => exact gated rfl fun ho => by cases ho
  | gaveUp hst => exact gated rfl fun _ => hl hst
  | _ => exact absurd rfl hp

end HubDevice.Kernel
