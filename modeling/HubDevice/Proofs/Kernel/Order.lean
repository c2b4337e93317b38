import HubDevice.Proofs.Kernel.Aside

/-!
# Order at the gate

In every reachable kernel the gate is sound and every party stands where its phase says; in particular at
most one party is inside (`Orderly.eq_of_inside`). A closing has done what comes before the phase it is in,
a watcher was told to stop only if everything is over, and calls of the transport have distinct numbers.
Together this is `Orderly` (`orderly_of_reachable`). Happenings are sorted into steps of operations, steps
of watchers and what goes on in the background (`after_cases`), and `Reachable.induct` is the induction
over all of them.
-/

namespace HubDevice.Kernel

open FairLock Retry Wire

variable {p : Party} {k k' : Kernel}

/-- What a closing has done before it comes to a phase. -/
def ClosePhase.Due (k : Kernel) : ClosePhase → Prop
  | .dispose => True
  | .endLifetime => k.disposed = true
  | .askGate | .awaitGate | .lowerLink => k.disposed = true ∧ k.lifetimeOver = true
  | _ => k.disposed = true ∧ k.lifetimeOver = true ∧ k.opened = true

/-- What an operation has done before. -/
def Task.Due (k : Kernel) : Task → Prop
  | .closing ph => ph.Due k
  | _ => True

structure Orderly (k : Kernel) : Prop where
  sound : k.gate.Sound
  posted : ∀ p, Posted k.gate p (k.stance p)
  due : ∀ {i : Nat} {o : Operating}, k.tasks[i]? = some o → o.task.Due k
  stopped : ∀ w ∈ k.watchers, w.stopped = true → k.lifetimeOver = true
  numbered : k.handler.wire.Numbered

namespace Orderly

theorem eq_of_inside (h : k.Orderly) {p q : Party} (hp : k.stance p = .inside)
    (hq : k.stance q = .inside) : p = q := by
  have hp' := h.posted p
  have hq' := h.posted q
  rw [hp] at hp'
  rw [hq] at hq'
  exact Option.some.inj (hp'.symm.trans hq')

theorem holder (h : k.Orderly) (hp : k.stance p = .inside) : k.gate.holder = some p := by
  have hp' := h.posted p
  rwa [hp] at hp'

theorem watcherStopped (h : k.Orderly) {i : Nat} {w : Watcher} (hw : k.watchers[i]? = some w)
    (hs : k.watcherStopped w = true) : k.lifetimeOver = true := by
  unfold Kernel.watcherStopped at hs
  rcases Bool.or_eq_true_iff.mp hs with hs | hs
  · exact h.stopped w (List.mem_of_getElem? hw) hs
  · exact hs

theorem lifetimeOver (h : k.Orderly) {i : Nat} {o : Operating} (ho : k.tasks[i]? = some o)
    (ht : o.task = .closing .stopWatcher) : k.lifetimeOver = true := by
  have hd := h.due ho
  rw [ht] at hd
  exact hd.2.1

end Orderly

/-! ## Closings -/

theorem ClosePhase.Due.mono {ph : ClosePhase} (h : ph.Due k) (hd : k.disposed = true → k'.disposed = true)
    (hl : k.lifetimeOver = true → k'.lifetimeOver = true) (ho : k.opened = true → k'.opened = true) :
    ph.Due k' := by
  cases ph with
  | dispose => trivial
  | endLifetime => exact hd h
  | askGate | awaitGate | lowerLink => exact ⟨hd h.1, hl h.2⟩
  | _ => exact ⟨hd h.1, hl h.2.1, ho h.2.2⟩

theorem Task.Due.mono {t : Task} (h : t.Due k) (hd : k.disposed = true → k'.disposed = true)
    (hl : k.lifetimeOver = true → k'.lifetimeOver = true) (ho : k.opened = true → k'.opened = true) :
    t.Due k' := by
  cases t with
  | closing ph => exact ClosePhase.Due.mono h hd hl ho
  | _ => trivial

/-- A close call that reports has ended an opened client. -/
theorem ClosePhase.Due.reporting {ph : ClosePhase} (h : ph.Due k)
    (hp : ph = .reportTrouble ∨ ph = .reportClosed) : k.disposed = true ∧ k.opened = true := by
  rcases hp with rfl | rfl <;> exact ⟨h.1, h.2.2⟩

theorem ClosePhase.due_step {ph : ClosePhase} {pr : Progress ClosePhase (Except ClientError Unit)}
    (hd : ph.Due k) (h : ph.step p k = some (k', pr)) : pr.Leaves (Due k') True True := by
  have hl : ph = .stopWatcher → k.lifetimeOver = true := by
    rintro rfl
    exact hd.2.1
  have hm := ClosePhase.movement hl h
  cases turn_of_step h with
  | already | loweredUnopened | reportedClosed => trivial
  | disposed => exact (rfl : true = true)
  | lifetimeEnded => exact ⟨hd, rfl⟩
  | asked | entered => exact hd
  | lowered ho => exact ⟨hd.1, hd.2, ho⟩
  | _ => exact ⟨hm.disposed hd.1, hm.lifetimeOver hd.2.1, hm.opened hd.2.2⟩

theorem due_ofPart {α β : Type} {wrap : α → Task} {value : β → Reply}
    {st : Step Kernel α (Except ClientError β)} {t : Task} (h : ofPart wrap value st = some (k', t))
    (hw : ∀ a, (wrap a).Due k') : t.Due k' := by
  obtain ⟨pr, -, rfl⟩ := ofPart_eq_some h
  cases pr with
  | more a => exact hw a
  | done r => trivial

theorem Task.due_step {token : Nat} {t t' : Task} (hd : t.Due k)
    (h : t.step token p k = some (k', t')) : t'.Due k' := by
  cases t with
  | ready request => cases request <;> cases h <;> trivial
  | closing ph =>
    obtain ⟨pr, hs, rfl⟩ := ofPart_eq_some h
    have hl := ClosePhase.due_step hd hs
    cases pr with
    | more ph' => exact hl
    | done r => trivial
  | opening ph => exact due_ofPart h fun _ => trivial
  | running x run => exact due_ofPart h fun _ => trivial
  | toggling f enable edge run => exact due_ofPart h fun _ => trivial
  | ended result => cases h

/-! ## Steps of a kernel -/

theorem stepTask_eq_some {i : Nat} (h : k.stepTask i = some k') :
    ∃ o k₁ t, k.tasks[i]? = some o ∧ o.task.step o.token (.task i) k = some (k₁, t) ∧
      k' = { k₁ with tasks := k₁.tasks.set i { o with task := t } } := by
  unfold stepTask at h
  simp only [Option.bind_eq_bind, Option.bind_eq_some_iff] at h
  obtain ⟨o, ho, ⟨k₁, t⟩, hs, he⟩ := h
  cases he
  exact ⟨o, k₁, t, ho, hs, rfl⟩

theorem stepWatcher_eq_some {i : Nat} (h : k.stepWatcher i = some k') :
    ∃ w k₁ ph, k.watchers[i]? = some w ∧ w.phase.step (.watcher i) k w = some (k₁, ph) ∧
      k' = k₁.setPhase i ph := by
  unfold stepWatcher at h
  simp only [Option.bind_eq_bind, Option.bind_eq_some_iff] at h
  obtain ⟨w, hw, ⟨k₁, ph⟩, hs, he⟩ := h
  cases he
  exact ⟨w, k₁, ph, hw, hs, rfl⟩

/-- A watcher that takes a step stands where the step leads it. -/
theorem posts_stepped {i : Nat} {w : Watcher} {k₁ : Kernel} {ph : WatchPhase}
    (hw : k.watchers[i]? = some w) (h : w.phase.step p k w = some (k₁, ph)) :
    (k₁.setPhase i ph).posts[i]? = some (w.session, ph) := by
  obtain ⟨new, hnew, -⟩ := (WatchPhase.movement h).posts
  have hlt : i < k.posts.length := (List.getElem?_eq_some_iff.mp (getElem?_posts hw)).1
  simp [posts_setPhase, hnew, List.getElem?_append_left hlt, getElem?_posts hw]

theorem stance_of_tasks {i : Nat} {o : Operating} (h : k.tasks[i]? = some o) :
    k.stance (.task i) = o.task.stance := by
  simp [stance, h]

theorem stance_of_watchers {i : Nat} {w : Watcher} (h : k.watchers[i]? = some w) :
    k.stance (.watcher i) = w.phase.stance := by
  simp [stance, getElem?_posts h]

/-- New watchers are outside. -/
theorem stance_of_posts_append {new : List (Option SessionId × WatchPhase)}
    (h : k'.posts = k.posts ++ new) (hn : ∀ q ∈ new, q.2 = .watching) (i : Nat) :
    k'.stance (.watcher i) = k.stance (.watcher i) := by
  simp only [stance, h]
  rcases Nat.lt_or_ge i k.posts.length with hi | hi
  · rw [List.getElem?_append_left hi]
  · rw [List.getElem?_append_right hi, List.getElem?_eq_none hi]
    cases hm : new[i - k.posts.length]? with
    | none => rfl
    | some q => simp [hn q (List.mem_of_getElem? hm), WatchPhase.stance]

/-- A passage of one party while the stances of the others stay. -/
theorem Orderly.pass (h : k.Orderly) {s : Stance}
    (hg : Passage p k.gate (k.stance p) k'.gate s) (hp : k'.stance p = s)
    (hq : ∀ q, q ≠ p → k'.stance q = k.stance q) :
    k'.gate.Sound ∧ ∀ q, Posted k'.gate q (k'.stance q) := by
  refine ⟨hg.sound h.sound (h.posted p), fun q => ?_⟩
  by_cases hne : q = p
  · subst hne
    rw [hp]
    exact hg.posted h.sound (h.posted q)
  · rw [hq q hne]
    exact hg.posted_of_ne h.sound (h.posted p) hne (h.posted q)

/-- Watchers of a kernel in which a party has moved were told to stop only if everything is over. -/
theorem Orderly.stopped_of_movement (h : k.Orderly) {A : Scope} {s s' : Stance} (hm : Movement p A k s k' s') :
    ∀ w ∈ k'.watchers, w.stopped = true → k'.lifetimeOver = true := by
  intro w hw hs
  rcases hm.watchers with ⟨new, he, hn⟩ | ⟨hl, -⟩
  · rw [he] at hw
    rcases List.mem_append.mp hw with hw | hw
    · exact hm.lifetimeOver (h.stopped w hw hs)
    · rw [(hn w hw).1] at hs
      cases hs
  · exact hm.lifetimeOver hl

/-- The other operations after a step of one; watchers are added at most. -/
theorem others_stepTask (hk : k.Orderly) {i : Nat} (h : k.stepTask i = some k') :
    (∀ j, j ≠ i → k'.tasks[j]? = k.tasks[j]?) ∧
      ∃ new, k'.posts = k.posts ++ new ∧ ∀ q ∈ new, q.2 = .watching := by
  obtain ⟨o, k₁, t, ho, hs, rfl⟩ := stepTask_eq_some h
  have hm := Task.movement (hk.lifetimeOver ho) hs
  refine ⟨fun j hj => ?_, hm.posts⟩
  dsimp only
  rw [List.getElem?_set_ne (Ne.symm hj), hm.tasks]

/-- The other watchers after a step of one; watchers are added at most. -/
theorem others_stepWatcher {i : Nat} (h : k.stepWatcher i = some k') :
    k'.tasks = k.tasks ∧ ∃ new, (∀ q ∈ new, q.2 = .watching) ∧
      k'.posts.length = (k.posts ++ new).length ∧ ∀ j, j ≠ i → k'.posts[j]? = (k.posts ++ new)[j]? := by
  obtain ⟨w, k₁, ph, hw, hs, rfl⟩ := stepWatcher_eq_some h
  have hm := WatchPhase.movement hs
  obtain ⟨new, hnew, hn⟩ := hm.posts
  refine ⟨hm.tasks, new, hn, by rw [length_posts_setPhase, hnew], fun j hj => ?_⟩
  rw [posts_setPhase, if_neg (Ne.symm hj), hnew]

theorem stance_stepTask (hk : k.Orderly) {i : Nat} (h : k.stepTask i = some k') :
    Passage (.task i) k.gate (k.stance (.task i)) k'.gate (k'.stance (.task i)) ∧
      ∀ q, q ≠ .task i → k'.stance q = k.stance q := by
  obtain ⟨ht, new, hnew, hw⟩ := others_stepTask hk h
  obtain ⟨o, k₁, t, ho, hs, rfl⟩ := stepTask_eq_some h
  have hm := Task.movement (hk.lifetimeOver ho) hs
  have hi : i < k₁.tasks.length := by
    rw [hm.tasks]
    exact (List.getElem?_eq_some_iff.mp ho).1
  refine ⟨?_, ?_⟩
  · rw [stance_of_tasks ho, stance_of_tasks (List.getElem?_set_self hi)]
    exact hm.gate
  · intro q hq
    cases q with
    | task j =>
      have hj : j ≠ i := fun e => hq (e ▸ rfl)
      simp only [stance]
      rw [ht j hj]
    | watcher j => exact stance_of_posts_append hnew hw j

theorem stance_stepWatcher {i : Nat} (h : k.stepWatcher i = some k') :
    Passage (.watcher i) k.gate (k.stance (.watcher i)) k'.gate (k'.stance (.watcher i)) ∧
      ∀ q, q ≠ .watcher i → k'.stance q = k.stance q := by
  obtain ⟨w, k₁, ph, hw, hs, rfl⟩ := stepWatcher_eq_some h
  have hm := WatchPhase.movement hs
  obtain ⟨new, hnew, hn⟩ := hm.posts
  have hp := getElem?_posts hw
  have hi : i < k.posts.length := (List.getElem?_eq_some_iff.mp hp).1
  refine ⟨?_, ?_⟩
  · rw [stance_of_watchers hw]
    have ht : (k₁.setPhase i ph).stance (.watcher i) = ph.stance := by
      simp [stance, posts_setPhase, hnew, List.getElem?_append_left hi, hp]
    rw [ht]
    exact hm.gate
  · intro q hq
    cases q with
    | task j => exact congrArg (fun ts => (ts[j]?.map fun o => o.task.stance).getD .outside) hm.tasks
    | watcher j =>
      have hj : i ≠ j := fun e => hq (e ▸ rfl)
      rw [← stance_of_posts_append hnew hn j]
      simp [stance, posts_setPhase, hj]

/-- A party that is not inside leaves what the gate protects as it was. -/
theorem Task.aside {token : Nat} {t t' : Task} (ht : t.stance ≠ .inside) (hd : t.Due k)
    (h : t.step token p k = some (k', t')) : Aside k k' := by
  cases t with
  | ready request => cases request <;> cases h <;> exact Aside.refl k
  | opening ph =>
    obtain ⟨_, hs, -⟩ := ofPart_eq_some h
    exact OpenPhase.aside (.inl ht) hs
  | closing ph =>
    obtain ⟨_, hs, -⟩ := ofPart_eq_some h
    exact ClosePhase.aside ht (ClosePhase.Due.reporting hd) hs
  | running x run =>
    obtain ⟨_, hs, -⟩ := ofPart_eq_some h
    exact Guarded.aside_turn (Run.turn_of_step hs)
  | toggling f enable edge run =>
    obtain ⟨_, hs, -⟩ := ofPart_eq_some h
    refine Toggling.aside_turn (fun g hp => ht ?_) (Run.turn_of_step hs)
    simp [stance, runStance, hp, Toggling.stance]
  | ended result => cases h

theorem aside_stepTask (hk : k.Orderly) {i : Nat} (h : k.stepTask i = some k')
    (hi : k.stance (.task i) ≠ .inside) : Aside k k' := by
  obtain ⟨o, k₁, t, ho, hs, rfl⟩ := stepTask_eq_some h
  rw [stance_of_tasks ho] at hi
  exact { Task.aside hi (hk.due ho) hs with }

theorem aside_stepWatcher (hk : k.Orderly) {i : Nat} (h : k.stepWatcher i = some k')
    (hi : k.stance (.watcher i) ≠ .inside) : Aside k k' := by
  obtain ⟨w, k₁, ph, hw, hs, rfl⟩ := stepWatcher_eq_some h
  rw [stance_of_watchers hw] at hi
  exact WatchPhase.aside hw hi (hk.watcherStopped hw) hs

theorem Orderly.stepTask (h : k.Orderly) {i : Nat} (hs : k.stepTask i = some k') : k'.Orderly := by
  obtain ⟨hg, hq⟩ := stance_stepTask h hs
  obtain ⟨hsound, hposted⟩ := h.pass hg rfl hq
  obtain ⟨o, k₁, t, ho, ht, rfl⟩ := stepTask_eq_some hs
  have hm := Task.movement (h.lifetimeOver ho) ht
  have hst : ∀ w ∈ k₁.watchers, w.stopped = true → k₁.lifetimeOver = true := h.stopped_of_movement hm
  refine ⟨hsound, hposted, ?_, hst, hm.wire.numbered h.numbered⟩
  intro j o' ho'
  dsimp only at ho'
  rw [hm.tasks] at ho'
  by_cases hj : i = j
  · subst hj
    rw [List.getElem?_set_self (List.getElem?_eq_some_iff.mp ho).1] at ho'
    cases ho'
    exact (Task.due_step (h.due ho) ht).mono id id id
  · rw [List.getElem?_set_ne hj] at ho'
    exact (h.due ho').mono hm.disposed hm.lifetimeOver hm.opened

theorem Orderly.stepWatcher (h : k.Orderly) {i : Nat} (hs : k.stepWatcher i = some k') :
    k'.Orderly := by
  obtain ⟨hg, hq⟩ := stance_stepWatcher hs
  obtain ⟨hsound, hposted⟩ := h.pass hg rfl hq
  obtain ⟨w, k₁, ph, hw, ht, rfl⟩ := stepWatcher_eq_some hs
  have hm := WatchPhase.movement ht
  refine ⟨hsound, hposted, ?_, ?_, hm.wire.numbered h.numbered⟩
  · intro j o ho
    have ho' : k.tasks[j]? = some o := by
      rw [← hm.tasks]
      exact ho
    exact (h.due ho').mono hm.disposed hm.lifetimeOver hm.opened
  · intro w' hw' hs'
    obtain ⟨j, hj⟩ := List.mem_iff_getElem?.mp hw'
    simp only [setPhase, List.getElem?_modify] at hj
    obtain ⟨w₁, hw₁, rfl⟩ := Option.map_eq_some_iff.mp hj
    have hst : ∀ w ∈ k₁.watchers, w.stopped = true → k₁.lifetimeOver = true := h.stopped_of_movement hm
    exact hst w₁ (List.mem_of_getElem? hw₁) (by split at hs' <;> exact hs')

/-! ## What else can happen -/

/-- Nobody at the gate takes a step: the environment acts, or an operation is started. -/
structure Background (k k' : Kernel) : Prop extends Aside k k' where
  quiet : k.handler.wire.Touches .routine k'.handler.wire
  status : k'.status = k.status
  gate : k'.gate = k.gate
  posts : k'.posts = k.posts
  undisposed : k'.disposed = k.disposed
  tasks : ∀ i : Nat, (k'.tasks[i]? = k.tasks[i]?) ∨
    (k.tasks[i]? = none ∧ ∃ token r, k'.tasks[i]? = some (⟨token, .ready r⟩ : Operating))
  stopped : k'.watchers = k.watchers ∨ k'.lifetimeOver = true

theorem Background.refl (k : Kernel) : Background k k where
  toAside := .refl k
  quiet := Touches.refl _
  status := rfl
  gate := rfl
  posts := rfl
  undisposed := rfl
  tasks _ := .inl rfl
  stopped := .inl rfl

theorem background_start (k : Kernel) (token : Nat) (r : Request) :
    Background k (k.start token r).1 := by
  refine { Background.refl k with tasks := fun i => ?_ }
  rcases Nat.lt_trichotomy i k.tasks.length with hi | rfl | hi
  · exact .inl (List.getElem?_append_left hi)
  · exact .inr ⟨List.getElem?_eq_none (Nat.le_refl _), token, r, by simp [start]⟩
  · have hl : (k.start token r).1.tasks.length = k.tasks.length + 1 := by simp [start]
    rw [List.getElem?_eq_none (by omega), List.getElem?_eq_none (by omega)]
    exact .inl rfl

theorem background_drop (k : Kernel) : Background k k.drop := by
  have hd := aside_dismissWatcher k
  have hp := posts_dismissWatcher k
  have ho : k.dismissWatcher.gate = k.gate ∧ k.dismissWatcher.tasks = k.tasks ∧
      k.dismissWatcher.handler = k.handler ∧ k.dismissWatcher.disposed = k.disposed ∧
      k.dismissWatcher.status = k.status := by
    unfold dismissWatcher
    split <;> exact ⟨rfl, rfl, rfl, rfl, rfl⟩
  exact {
    hd with
    lifetimeOver := fun _ => rfl
    quiet := by
      have hw : k.drop.handler = k.handler := ho.2.2.1
      rw [hw]
      exact Touches.refl _
    status := ho.2.2.2.2
    gate := ho.1
    posts := hp
    undisposed := ho.2.2.2.1
    tasks := fun i => .inl (congrArg (·[i]?) ho.2.1)
    stopped := .inr rfl }

theorem background_wire {handler : Handler} (hs : handler.slot = k.handler.slot)
    (hn : handler.now = k.handler.now) (ht : k.handler.wire.Touches .routine handler.wire) :
    Background k { k with handler } :=
  { Background.refl k with
    slot := hs, clock := Nat.le_of_eq hn.symm, wire := ht.mono routine_le_aside, quiet := ht }

/-- A happening is a step of an operation, a step of a watcher, or goes on in the background. -/
theorem after_cases {e : Happening} (h : k.after e = some k') :
    (∃ i, e = .stepTask i ∧ k.stepTask i = some k') ∨
      (∃ i, e = .stepWatcher i ∧ k.stepWatcher i = some k') ∨ Background k k' := by
  cases e with
  | stepTask i => exact .inl ⟨i, rfl, h⟩
  | stepWatcher i => exact .inr (.inl ⟨i, rfl, h⟩)
  | start token r =>
    cases h
    exact .inr (.inr (background_start k token r))
  | stepRefresher i =>
    obtain ⟨handler, hs, rfl⟩ := Option.map_eq_some_iff.mp h
    obtain ⟨hslot, hnow, ht⟩ := Handler.stepRefresher_slot hs
    exact .inr (.inr (background_wire hslot hnow ht))
  | answer call o =>
    cases h
    exact .inr (.inr (background_wire rfl rfl (Touch.answered call o).touches))
  | endSession s cause =>
    cases h
    exact .inr (.inr (background_wire rfl rfl (Touch.ended s cause).touches))
  | fire token | setPolicy policy =>
    cases h
    exact .inr (.inr { Background.refl k with })
  | pass ms =>
    cases h
    exact .inr (.inr { Background.refl k with clock := Nat.le_add_right _ _ })
  | drop =>
    cases h
    exact .inr (.inr (background_drop k))
  | discard =>
    simp only [after] at h
    split at h <;> cases h
    refine .inr (.inr (background_wire (Handler.stopRefresher_slot _) (Handler.stopRefresher_now _) ?_))
    rw [Handler.stopRefresher_wire]
    exact Touches.refl _

theorem Background.stance (h : Background k k') (p : Party) : k'.stance p = k.stance p := by
  cases p with
  | watcher i => simp [Kernel.stance, h.posts]
  | task i =>
    rcases h.tasks i with ht | ⟨ht, token, r, ht'⟩
    · simp [Kernel.stance, ht]
    · simp [Kernel.stance, ht, ht', Task.stance]

theorem Orderly.background (h : k.Orderly) (hb : Background k k') : k'.Orderly where
  sound := hb.gate ▸ h.sound
  posted p := by
    rw [hb.gate, hb.stance]
    exact h.posted p
  due {i o} ho := by
    rcases hb.tasks i with ht | ⟨-, token, r, ht⟩
    · exact (h.due (ht ▸ ho)).mono hb.disposed hb.lifetimeOver hb.opened.trans
    · rw [ht] at ho
      cases ho
      trivial
  stopped w hw hs := by
    rcases hb.stopped with he | hl
    · exact hb.lifetimeOver (h.stopped w (he ▸ hw) hs)
    · exact hl
  numbered := hb.wire.numbered h.numbered

theorem Orderly.after (h : k.Orderly) {e : Happening} (he : k.after e = some k') : k'.Orderly := by
  rcases after_cases he with ⟨i, -, hs⟩ | ⟨i, -, hs⟩ | hb
  · exact h.stepTask hs
  · exact h.stepWatcher hs
  · exact h.background hb

/-! ## What happens to the wire and to the watchers -/

theorem wire_after (h : k.Orderly) {e : Happening} (he : k.after e = some k') :
    ∃ A : Scope, k.handler.wire.Touches A k'.handler.wire := by
  rcases after_cases he with ⟨i, -, hs⟩ | ⟨i, -, hs⟩ | hb
  · obtain ⟨o, k₁, t, ho, ht, rfl⟩ := stepTask_eq_some hs
    exact ⟨_, (Task.movement (h.lifetimeOver ho) ht).wire⟩
  · obtain ⟨w, k₁, ph, -, ht, rfl⟩ := stepWatcher_eq_some hs
    exact ⟨_, (WatchPhase.movement ht).wire⟩
  · exact ⟨_, hb.wire⟩

/-- Whatever is reported by a happening is reported by a party within its scope. -/
theorem reporter_after (h : k.Orderly) {e : Happening} (he : k.after e = some k') {new : List Status}
    {st : Status} (hn : k'.handler.wire.reports = new ++ k.handler.wire.reports) (hm : st ∈ new) :
    (∃ i o, e = .stepTask i ∧ k.tasks[i]? = some o ∧ o.task.scope.statuses st) ∨
      ∃ i w, e = .stepWatcher i ∧ k.watchers[i]? = some w ∧ w.phase.scope.statuses st := by
  have within : ∀ {A : Scope}, k.handler.wire.Touches A k'.handler.wire → A.statuses st := by
    intro A ht
    obtain ⟨new', hn', hall⟩ := ht.reports
    rw [hn] at hn'
    exact hall st (List.append_cancel_right hn' ▸ hm)
  rcases after_cases he with ⟨i, rfl, hs⟩ | ⟨i, rfl, hs⟩ | hb
  · obtain ⟨o, k₁, t, ho, ht, rfl⟩ := stepTask_eq_some hs
    exact .inl ⟨i, o, rfl, ho, within (Task.movement (h.lifetimeOver ho) ht).wire⟩
  · obtain ⟨w, k₁, ph, hw, ht, rfl⟩ := stepWatcher_eq_some hs
    exact .inr ⟨i, w, rfl, hw, within (WatchPhase.movement ht).wire⟩
  · exact (within hb.quiet).elim

/-- A step of an operation that leaves a note, and the note that it leaves. -/
inductive Noted (k : Kernel) (i : Nat) : Kernel → Prop where
  | disposed {token : Nat} : k.tasks[i]? = some ⟨token, .closing .dispose⟩ → k.disposed = false →
      Noted k i { k with disposed := true, tasks := k.tasks.set i ⟨token, .closing .endLifetime⟩ }
  | raised {token : Nat} : k.tasks[i]? = some ⟨token, .opening .raiseLink⟩ →
      Noted k i { k.setLink .connected with
        opened := true, tasks := k.tasks.set i ⟨token, .opening .startWatcher⟩ }
  | concluded {token : Nat} {outcome : Except ClientError Unit} :
      k.tasks[i]? = some ⟨token, .opening (.conclude outcome)⟩ →
      Noted k i { k with
        lastOpen := some outcome
        epoch := k.epoch + 1
        gate := k.gate.release
        tasks := k.tasks.set i ⟨token, .ended (outcome.map fun _ => .done)⟩ }

theorem notes_after (h : k.Orderly) {e : Happening} (he : k.after e = some k') :
    SameNotes k k' ∨ ∃ i, e = .stepTask i ∧ k.Noted i k' := by
  rcases after_cases he with ⟨i, rfl, hs⟩ | ⟨i, -, hs⟩ | hb
  · obtain ⟨⟨token, task⟩, k₁, t, ho, ht, rfl⟩ := stepTask_eq_some hs
    by_cases hn : task.scope.notes
    · cases Task.notes_of_scope hn with
      | disposes =>
        obtain ⟨pr, hp, rfl⟩ := ofPart_eq_some ht
        cases ClosePhase.turn_of_step hp with
        | already => exact .inl ⟨rfl, rfl, rfl, rfl⟩
        | disposed hd => exact .inr ⟨i, rfl, .disposed ho hd⟩
      | raises =>
        obtain ⟨pr, hp, rfl⟩ := ofPart_eq_some ht
        cases hp
        exact .inr ⟨i, rfl, .raised ho⟩
      | concludes outcome =>
        obtain ⟨pr, hp, rfl⟩ := ofPart_eq_some ht
        cases hp
        exact .inr ⟨i, rfl, .concluded ho⟩
    · exact .inl { (Task.movement (h.lifetimeOver ho) ht).notes hn with }
  · obtain ⟨w, k₁, ph, -, ht, rfl⟩ := stepWatcher_eq_some hs
    have hn : ¬ w.phase.scope.notes := by cases w.phase <;> exact id
    exact .inl { (WatchPhase.movement ht).notes hn with }
  · exact .inl { hb with disposed := hb.undisposed }

/-- A connection that was up once stays one that was. -/
theorem opened_after (h : k.Orderly) {e : Happening} (he : k.after e = some k') (ho : k.opened = true) :
    k'.opened = true := by
  rcases after_cases he with ⟨i, -, hs⟩ | ⟨i, -, hs⟩ | hb
  · obtain ⟨o, k₁, t, hi, ht, rfl⟩ := stepTask_eq_some hs
    exact (Task.movement (h.lifetimeOver hi) ht).opened ho
  · obtain ⟨w, k₁, ph, -, ht, rfl⟩ := stepWatcher_eq_some hs
    exact (WatchPhase.movement ht).opened ho
  · exact hb.opened.trans ho

/-- A watcher afterwards: it is as before, it is new, or it has taken a step. -/
theorem posts_after (h : k.Orderly) {e : Happening} (he : k.after e = some k') {i : Nat}
    {q : Option SessionId × WatchPhase} (hq : k'.posts[i]? = some q) :
    k.posts[i]? = some q ∨ (k.posts[i]? = none ∧ q.2 = .watching) ∨
      ∃ w k₁, k.watchers[i]? = some w ∧ q.1 = w.session ∧
        w.phase.step (.watcher i) k w = some (k₁, q.2) := by
  have appended : ∀ {new : List (Option SessionId × WatchPhase)}, (∀ q ∈ new, q.2 = .watching) →
      (k.posts ++ new)[i]? = some q → k.posts[i]? = some q ∨ (k.posts[i]? = none ∧ q.2 = .watching) := by
    intro new hn hq
    rcases Nat.lt_or_ge i k.posts.length with hi | hi
    · rw [List.getElem?_append_left hi] at hq
      exact .inl hq
    · rw [List.getElem?_append_right hi] at hq
      exact .inr ⟨List.getElem?_eq_none hi, hn q (List.mem_of_getElem? hq)⟩
  rcases after_cases he with ⟨j, -, hs⟩ | ⟨j, -, hs⟩ | hb
  · obtain ⟨-, new, hnew, hn⟩ := others_stepTask h hs
    rw [hnew] at hq
    rcases appended hn hq with hq | hq
    · exact .inl hq
    · exact .inr (.inl hq)
  · obtain ⟨-, new, hn, -, hposts⟩ := others_stepWatcher hs
    by_cases hij : i = j
    · subst hij
      obtain ⟨w, k₁, ph, hw, ht, rfl⟩ := stepWatcher_eq_some hs
      obtain ⟨new', hnew', -⟩ := (WatchPhase.movement ht).posts
      have hi : i < k.posts.length := (List.getElem?_eq_some_iff.mp (getElem?_posts hw)).1
      have hk : (k₁.setPhase i ph).posts[i]? = some (w.session, ph) := by
        simp [posts_setPhase, hnew', List.getElem?_append_left hi, getElem?_posts hw]
      rw [hk] at hq
      cases hq
      exact .inr (.inr ⟨w, k₁, hw, rfl, ht⟩)
    · rw [hposts i hij] at hq
      rcases appended hn hq with hq | hq
      · exact .inl hq
      · exact .inr (.inl hq)
  · rw [hb.posts] at hq
    exact .inl hq

/-- Watchers stay with the session they were started for. -/
theorem sessions_after (h : k.Orderly) {e : Happening} (he : k.after e = some k') :
    ∃ new, k'.posts.map Prod.fst = k.posts.map Prod.fst ++ new := by
  rcases after_cases he with ⟨j, -, hs⟩ | ⟨j, -, hs⟩ | hb
  · obtain ⟨-, new, hnew, -⟩ := others_stepTask h hs
    exact ⟨new.map Prod.fst, by rw [hnew, List.map_append]⟩
  · obtain ⟨w, k₁, ph, -, ht, rfl⟩ := stepWatcher_eq_some hs
    obtain ⟨new, hnew, -⟩ := (WatchPhase.movement ht).posts
    exact ⟨new.map Prod.fst, by rw [watched_setPhase, hnew, List.map_append]⟩
  · exact ⟨[], by rw [hb.posts, List.append_nil]⟩

/-! ## Reachable kernels -/

theorem orderly_initial (interval : Option Span) (policy : Policy) :
    (initial interval policy).Orderly where
  sound := sound_empty
  posted p := by cases p <;> simp [stance, initial, Posted, Involves, posts]
  due ho := by simp [initial] at ho
  stopped w hw := by simp [initial] at hw
  numbered c hc := by simp [initial, Handler.withInterval] at hc

/-- What holds of a new kernel and is kept by every happening holds of all reachable kernels. -/
theorem Reachable.induct {P : Kernel → Prop} (init : ∀ interval policy, P (initial interval policy))
    (step : ∀ {k k' e}, k.Reachable → P k → k.after e = some k' → P k') (h : k.Reachable) : P k := by
  obtain ⟨interval, policy, hr⟩ := h
  induction hr with
  | refl => exact init interval policy
  | tail e hr he ih => exact step ⟨interval, policy, hr⟩ ih he

theorem Reachable.after {e : Happening} (h : k.Reachable) (he : k.after e = some k') : k'.Reachable := by
  obtain ⟨interval, policy, hr⟩ := h
  exact ⟨interval, policy, .tail e hr he⟩

theorem Reachable.reaches (h : k.Reachable) (hr : k.Reaches k') : k'.Reachable := by
  induction hr with
  | refl => exact h
  | tail e _ he ih => exact ih.after he

theorem orderly_of_reachable (h : k.Reachable) : k.Orderly :=
  Reachable.induct orderly_initial (fun _ ho he => ho.after he) h

/-- The kernel that a list of happenings leads to, if each of them can happen. -/
def course (k : Kernel) : List Happening → Option Kernel
  | [] => some k
  | e :: es => (k.after e).bind fun k' => course k' es

theorem Reaches.trans {k'' : Kernel} (h : k.Reaches k') (h' : k'.Reaches k'') : k.Reaches k'' := by
  induction h' with
  | refl => exact h
  | tail e _ he ih => exact ih.tail e he

theorem reaches_of_course {es : List Happening} (h : k.course es = some k') : k.Reaches k' := by
  induction es generalizing k with
  | nil => exact Option.some.inj h ▸ .refl k
  | cons e es ih =>
    obtain ⟨k₁, he, hk⟩ := Option.bind_eq_some_iff.mp h
    exact ((Reaches.refl k).tail e he).trans (ih hk)

/-- A first open call of a new kernel succeeds: the transport creates a session and connects it. -/
def firstOpening : List Happening :=
  [Happening.start 0 .open] ++ List.replicate 10 (Happening.stepTask 0) ++
    [Happening.answer 0 (.ok .done), .stepTask 0, .answer 1 (.ok .done)] ++ List.replicate 5 (Happening.stepTask 0)

theorem firstOpening_connected : ∃ k, (initial none .standard).course firstOpening = some k ∧
    k.link = .connected ∧ k.gate.holder = none ∧ k.disposed = false ∧ k.lifetimeOver = false :=
  ⟨_, rfl, rfl, rfl, rfl, rfl⟩

end HubDevice.Kernel
