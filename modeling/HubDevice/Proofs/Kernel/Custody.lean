import HubDevice.Proofs.Kernel.Path

/-!
# Custody of what the gate protects

A `Regime` says what is true of the part of the kernel that the gate protects: while nobody is at work on
it, and while the holder of the gate stands in one of the phases inside. `Regime.Kept` collects what has to be
proved for each of these phases alone. From it `Regime.Kept.custody` concludes that in every reachable kernel
the holder of the gate keeps its part, and that what the gate protects is settled while the gate is free or
has just been handed over. A regime can be kept on some runs only: `Regime.Kept.custody_of_path` is about runs
that meet no kernel but those that it is kept on.
-/

namespace HubDevice.Kernel

open FairLock Retry Wire

/-- What is true while nobody is at work on what the gate protects, and in each phase inside the gate. -/
structure Regime where
  settled : Kernel → Prop
  opening : OpenPhase → Kernel → Prop
  closing : ClosePhase → Kernel → Prop
  toggling : Feature → Bool → Bool → Subscribing → Kernel → Prop
  watching : Nat → WatchPhase → Kernel → Prop

namespace Regime

/-- What is true while an open call that holds the gate is in a phase; likewise for other parties. -/
def opener (R : Regime) (ph : OpenPhase) (k : Kernel) : Prop :=
  ph.stance.choose (R.opening ph k) (R.settled k)

def closer (R : Regime) (ph : ClosePhase) (k : Kernel) : Prop :=
  ph.stance.choose (R.closing ph k) (R.settled k)

def toggler (R : Regime) (f : Feature) (enable edge : Bool) (a : Toggling) (k : Kernel) : Prop :=
  match a with
  | .calling g => R.toggling f enable edge g k
  | _ => R.settled k

def watcher (R : Regime) (i : Nat) (ph : WatchPhase) (k : Kernel) : Prop :=
  ph.stance.choose (R.watching i ph k) (R.settled k)

def task (R : Regime) (t : Task) (k : Kernel) : Prop :=
  match t with
  | .opening ph => R.opener ph k
  | .closing ph => R.closer ph k
  | .toggling f enable edge run => run.Holds R.settled (R.toggler f enable edge) k
  | _ => R.settled k

def party (R : Regime) (k : Kernel) : Party → Prop
  | .task i => match k.tasks[i]? with
    | some o => R.task o.task k
    | none => R.settled k
  | .watcher i => match k.posts[i]? with
    | some q => R.watcher i q.2 k
    | none => R.settled k

/-- The holder of the gate keeps its part. -/
def Custody (R : Regime) (k : Kernel) : Prop :=
  match k.gate.holder with
  | none => R.settled k
  | some p => R.party k p

/-- What has to be proved of a regime, for runs that meet no other kernels than those of `Met`. -/
structure Kept (R : Regime) (Met : Kernel → Prop := Reachable) : Prop where
  reachable : ∀ {k}, Met k → k.Reachable
  initial : ∀ interval policy, R.settled (Kernel.initial interval policy)
  settled_aside : ∀ {k k'}, Aside k k' → R.settled k → R.settled k'
  opening_aside : ∀ {ph k k'}, Aside k k' → R.opening ph k → R.opening ph k'
  closing_aside : ∀ {ph k k'}, Aside k k' → R.closing ph k → R.closing ph k'
  toggling_aside : ∀ {f enable edge g k k'}, Aside k k' →
    R.toggling f enable edge g k → R.toggling f enable edge g k'
  watching_aside : ∀ {i ph k k'}, Aside k k' → R.watching i ph k → R.watching i ph k'
  enter_opening : ∀ {k e}, R.settled k → R.opening (.recheckDisposed e) k
  enter_closing : ∀ {k}, k.disposed = true → k.lifetimeOver = true → R.settled k →
    R.closing .lowerLink k
  enter_toggling : ∀ {k f enable edge}, k.link = .connected → k.features.has f ≠ enable →
    R.settled k → R.toggling f enable edge (.start enable (f.channel edge)) k
  enter_watching : ∀ {k i cause}, R.settled k → R.watching i (.lowerLink cause) k
  step_opening : ∀ {i token k k' ph pr}, Met k → k.tasks[i]? = some ⟨token, .opening ph⟩ →
    ph.stance = .inside → R.opening ph k → ph.step token (.task i) k = some (k', pr) →
    pr.Leaves (fun ph' => R.opener ph' k') (R.settled k') (R.settled k')
  step_closing : ∀ {i token k k' ph pr}, Met k → k.tasks[i]? = some ⟨token, .closing ph⟩ →
    ph.stance = .inside → R.closing ph k → ph.step (.task i) k = some (k', pr) →
    pr.Leaves (fun ph' => R.closer ph' k') (R.settled k') (R.settled k')
  step_toggling : ∀ {i token f enable edge run k k' g pr}, Met k →
    k.tasks[i]? = some ⟨token, .toggling f enable edge run⟩ → run.phase = .acting (.calling g) →
    R.toggling f enable edge g k → Toggling.step f enable edge (.task i) k (.calling g) = some (k', pr) →
    pr.Leaves (fun a => R.toggler f enable edge a k') (R.settled k') (R.settled k')
  abandon_toggling : ∀ {i token f enable edge run k g}, Met k →
    k.tasks[i]? = some ⟨token, .toggling f enable edge run⟩ → run.phase = .acting (.calling g) →
    k.tokenFired token = true → R.toggling f enable edge g k →
    R.settled (Toggling.abandon (.task i) k (.calling g))
  step_watching : ∀ {i w k k' ph}, Met k → k.watchers[i]? = some w → w.phase.stance = .inside →
    R.watching i w.phase k → w.phase.step (.watcher i) k w = some (k', ph) →
    R.watcher i ph (k'.setPhase i ph)

variable {R : Regime} {Met : Kernel → Prop} {p : Party} {k k' : Kernel}

/-! ## Parties outside -/

theorem task_of_not_inside {t : Task} (h : t.stance ≠ .inside) : R.task t k ↔ R.settled k := by
  cases t with
  | opening ph => exact Stance.choose_of_ne h _ _
  | closing ph => exact Stance.choose_of_ne h _ _
  | toggling f enable edge run =>
    simp only [Task.stance, runStance] at h
    simp only [task, Run.Holds]
    split
    · rename_i a hp
      rw [hp] at h
      cases a with
      | calling g => exact absurd rfl h
      | _ => exact Iff.rfl
    · exact Iff.rfl
  | _ => exact Iff.rfl

/-- Nobody is at work while the holder of the gate has not come inside. -/
theorem party_of_not_inside (h : k.stance p ≠ .inside) : R.party k p ↔ R.settled k := by
  cases p with
  | task i =>
    simp only [party]
    split
    · rename_i o ho
      rw [stance_of_tasks ho] at h
      exact task_of_not_inside h
    · exact Iff.rfl
  | watcher i =>
    simp only [party]
    split
    · rename_i q hq
      have hs : k.stance (.watcher i) = q.2.stance := by simp [stance, hq]
      rw [hs] at h
      exact Stance.choose_of_ne h _ _
    · exact Iff.rfl

theorem Custody.settled (h : R.Custody k) (hf : k.gate.holder = none) : R.settled k := by
  unfold Custody at h
  rwa [hf] at h

theorem Custody.party_of_holder (h : R.Custody k) (hh : k.gate.holder = some p) : R.party k p := by
  unfold Custody at h
  rwa [hh] at h

/-- Whoever can be at work, with nobody else holding the gate, finds its part kept. -/
theorem Custody.party (h : R.Custody k) (ho : k.Orderly)
    (hh : ∀ q, k.gate.holder = some q → q = p) : R.party k p := by
  cases hg : k.gate.holder with
  | some q => exact h.party_of_holder (hh q hg ▸ hg)
  | none =>
    have hi : k.stance p ≠ .inside := fun hi => by
      have := ho.holder hi
      rw [hg] at this
      cases this
    exact (party_of_not_inside hi).mpr (h.settled hg)

namespace Kept

variable (hR : R.Kept Met)
include hR

/-! ## What happens aside -/

theorem opener_aside {ph : OpenPhase} (h : Aside k k') (hk : R.opener ph k) : R.opener ph k' := by
  unfold opener Stance.choose at hk ⊢
  split at hk
  · exact hR.opening_aside h hk
  · exact hR.settled_aside h hk

theorem closer_aside {ph : ClosePhase} (h : Aside k k') (hk : R.closer ph k) : R.closer ph k' := by
  unfold closer Stance.choose at hk ⊢
  split at hk
  · exact hR.closing_aside h hk
  · exact hR.settled_aside h hk

theorem toggler_aside {f : Feature} {enable edge : Bool} {a : Toggling} (h : Aside k k')
    (hk : R.toggler f enable edge a k) : R.toggler f enable edge a k' := by
  cases a with
  | calling g => exact hR.toggling_aside h hk
  | _ => exact hR.settled_aside h hk

theorem watcher_aside {i : Nat} {ph : WatchPhase} (h : Aside k k') (hk : R.watcher i ph k) :
    R.watcher i ph k' := by
  unfold watcher Stance.choose at hk ⊢
  split at hk
  · exact hR.watching_aside h hk
  · exact hR.settled_aside h hk

theorem task_aside {t : Task} (h : Aside k k') (hk : R.task t k) : R.task t k' := by
  cases t with
  | opening ph => exact hR.opener_aside h hk
  | closing ph => exact hR.closer_aside h hk
  | toggling f enable edge run =>
    simp only [task, Run.Holds] at hk ⊢
    split at hk
    · exact hR.toggler_aside h hk
    · exact hR.settled_aside h hk
  | _ => exact hR.settled_aside h hk

/-- A party whose phase is still the same keeps its part. -/
theorem party_aside {q : Party} (h : Aside k k') (hk : R.party k q)
    (ht : ∀ i, q = .task i → k'.tasks[i]? = k.tasks[i]?)
    (hp : ∀ i, q = .watcher i → k'.posts[i]? = k.posts[i]?) : R.party k' q := by
  cases q with
  | task i =>
    simp only [party] at hk ⊢
    rw [ht i rfl]
    split at hk
    · exact hR.task_aside h hk
    · exact hR.settled_aside h hk
  | watcher i =>
    simp only [party] at hk ⊢
    rw [hp i rfl]
    split at hk
    · exact hR.watcher_aside h hk
    · exact hR.settled_aside h hk

/-! ## What a party does -/

theorem opener_step {i token : Nat} {ph : OpenPhase} {pr : Progress OpenPhase (Except ClientError Unit)}
    (hm : Met k) (ht : k.tasks[i]? = some ⟨token, .opening ph⟩) (hk : R.opener ph k)
    (h : ph.step token (.task i) k = some (k', pr)) :
    pr.Leaves (fun ph' => R.opener ph' k') (R.settled k') (R.settled k') := by
  by_cases hi : ph.stance = .inside
  · unfold opener at hk
    rw [hi] at hk
    exact hR.step_opening hm ht hi hk h
  · have hs : R.settled k' := hR.settled_aside (OpenPhase.aside (.inl hi) h)
      ((Stance.choose_of_ne hi _ _).mp hk)
    cases OpenPhase.turn_of_step h with
    | refused | admitted | connected | unconnected | read | cancelled | asked | gaveUp => exact hs
    | entered => exact hR.enter_opening hs
    | _ => exact absurd rfl hi

theorem closer_step {i token : Nat} {ph : ClosePhase} {pr : Progress ClosePhase (Except ClientError Unit)}
    (hm : Met k) (ht : k.tasks[i]? = some ⟨token, .closing ph⟩) (hd : ph.Due k) (hk : R.closer ph k)
    (h : ph.step (.task i) k = some (k', pr)) :
    pr.Leaves (fun ph' => R.closer ph' k') (R.settled k') (R.settled k') := by
  by_cases hi : ph.stance = .inside
  · unfold closer at hk
    rw [hi] at hk
    exact hR.step_closing hm ht hi hk h
  · have hs : R.settled k' := hR.settled_aside (ClosePhase.aside hi hd.reporting h)
      ((Stance.choose_of_ne hi _ _).mp hk)
    cases ClosePhase.turn_of_step h with
    | already | disposed | lifetimeEnded | asked | reportedTrouble | unwatched | dismissed | joined
    | reportedClosed => exact hs
    | entered => exact hR.enter_closing hd.1 hd.2 hs
    | _ => exact absurd rfl hi

theorem toggler_step {i token : Nat} {f : Feature} {enable edge : Bool} {run : Run Toggling} {a : Toggling}
    {pr : Progress Toggling (Except ClientError Reply)} (hm : Met k)
    (ht : k.tasks[i]? = some ⟨token, .toggling f enable edge run⟩) (hp : run.phase = .acting a)
    (hk : R.toggler f enable edge a k) (h : a.step f enable edge (.task i) k = some (k', pr)) :
    pr.Leaves (fun a' => R.toggler f enable edge a' k') (R.settled k') (R.settled k') := by
  by_cases ha : ∃ g, a = .calling g
  · obtain ⟨g, rfl⟩ := ha
    exact hR.step_toggling hm ht hp hk h
  · have hne : ∀ g, a ≠ .calling g := fun g e => ha ⟨g, e⟩
    have hk' : R.settled k := by
      cases a with
      | calling g => exact absurd rfl (hne g)
      | _ => exact hk
    have hs : R.settled k' := hR.settled_aside (Toggling.aside hne h) hk'
    cases Toggling.turn_of_step h with
    | admitting | admitted | refused | asked | entered | unusable | pointless => exact hs
    | began hl hf => exact hR.enter_toggling hl hf hs
    | calling | changed | failed => exact absurd rfl (hne _)

theorem toggler_abandon {i token : Nat} {f : Feature} {enable edge : Bool} {run : Run Toggling} {a : Toggling}
    (hm : Met k) (ht : k.tasks[i]? = some ⟨token, .toggling f enable edge run⟩) (hp : run.phase = .acting a)
    (hf : k.tokenFired token = true) (hk : R.toggler f enable edge a k) :
    R.settled (a.abandon (.task i) k) := by
  cases a with
  | calling g => exact hR.abandon_toggling hm ht hp hf hk
  | _ => exact hR.settled_aside (Toggling.aside_abandon _) hk

theorem toggler_turn {i token : Nat} {f : Feature} {enable edge : Bool} {r : Run Toggling}
    {pr : Progress (Run Toggling) (Except ClientError Reply)} (hm : Met k)
    (ht : k.tasks[i]? = some ⟨token, .toggling f enable edge r⟩)
    (hk : r.Holds R.settled (R.toggler f enable edge) k)
    (h : Run.Turn (Kernel.toggling f enable edge (.task i)) (k.tokenFired token) k r k' pr) :
    pr.Leaves (fun r' => r'.Holds R.settled (R.toggler f enable edge) k') (R.settled k')
      (R.settled k') := by
  unfold Run.Holds at hk
  cases h with
  | cancelledActing hf hp =>
    rw [hp] at hk
    exact hR.toggler_abandon hm ht hp hf hk
  | cancelledPausing _ hp =>
    rw [hp] at hk
    exact hk
  | advanced hp hs | succeeded _ hp hs | failed hp hs =>
    rw [hp] at hk
    exact hR.toggler_step hm ht hp hk hs
  | @retried _ e k₁ delay hp hs =>
    rw [hp] at hk
    have hs' : R.settled k₁ := hR.toggler_step hm ht hp hk hs
    have hph := Run.awaiting_cases (Kernel.toggling f enable edge (.task i))
      ((Kernel.toggling f enable edge (.task i)).granted k₁ e r.attempt delay) delay
    simp only [Progress.Leaves, Run.Holds]
    rcases hph with hph | ⟨t, hph⟩ <;> rw [hph] <;> exact hs'
  | resumed hp =>
    rw [hp] at hk
    exact hk

theorem task_step {i token : Nat} {t t' : Task} (hm : Met k) (ht : k.tasks[i]? = some ⟨token, t⟩)
    (hd : t.Due k) (hk : R.task t k) (h : t.step token (.task i) k = some (k', t')) : R.task t' k' := by
  cases t with
  | ready request => cases request <;> cases h <;> exact hk
  | opening ph =>
    obtain ⟨pr, hs, rfl⟩ := ofPart_eq_some h
    have hl := hR.opener_step hm ht hk hs
    rcases pr with ph' | (e | v) <;> exact hl
  | closing ph =>
    obtain ⟨pr, hs, rfl⟩ := ofPart_eq_some h
    have hl := hR.closer_step hm ht hd hk hs
    rcases pr with ph' | (e | v) <;> exact hl
  | running x run =>
    obtain ⟨pr, hs, rfl⟩ := ofPart_eq_some h
    have hs' : R.settled k' := hR.settled_aside (Guarded.aside_turn (Run.turn_of_step hs)) hk
    rcases pr with ph' | (e | v) <;> exact hs'
  | toggling f enable edge run =>
    obtain ⟨pr, hs, rfl⟩ := ofPart_eq_some h
    have hl := hR.toggler_turn hm ht hk (Run.turn_of_step hs)
    rcases pr with ph' | (e | v) <;> exact hl
  | ended result => cases h

theorem watcher_step {i : Nat} {w : Watcher} {ph : WatchPhase} (hm : Met k)
    (hw : k.watchers[i]? = some w) (hk : R.watcher i w.phase k)
    (h : w.phase.step (.watcher i) k w = some (k', ph)) : R.watcher i ph (k'.setPhase i ph) := by
  by_cases hi : w.phase.stance = .inside
  · unfold watcher at hk
    rw [hi] at hk
    exact hR.step_watching hm hw hi hk h
  · have hs : R.settled (k'.setPhase i ph) := hR.settled_aside
      (WatchPhase.aside hw hi ((orderly_of_reachable (hR.reachable hm)).watcherStopped hw) h)
      ((Stance.choose_of_ne hi _ _).mp hk)
    generalize w.phase = before at h hi
    cases WatchPhase.turn_of_step h with
    | stopped | heard | stoppedAsking | asked | gaveUp => exact hs
    | entered => exact hR.enter_watching hs
    | _ => exact absurd rfl hi

/-! ## Handing over -/

omit hR in
/-- A party that may be at work takes a step that keeps its part; whoever holds the gate afterwards is that
party, or has just been handed the gate. -/
theorem custody_of_party (ho : k.Orderly) (ho' : k'.Orderly)
    (hh : ∀ q, k.gate.holder = some q → q = p) (hst : ∀ q, q ≠ p → k'.stance q = k.stance q)
    (hp : R.party k' p) : R.Custody k' := by
  have outside : ∀ q, k'.gate.holder ≠ some q → k'.stance q ≠ .inside := fun q hq hi => hq (ho'.holder hi)
  unfold Custody
  cases hg : k'.gate.holder with
  | none => exact (party_of_not_inside (outside p (by simp [hg]))).mp hp
  | some q =>
    by_cases hq : q = p
    · exact hq ▸ hp
    · have hp' : R.settled k' := by
        refine (party_of_not_inside (outside p ?_)).mp hp
        rw [hg]
        exact fun e => hq (Option.some.inj e)
      refine (party_of_not_inside ?_).mpr hp'
      rw [hst q hq]
      exact fun hi => hq (hh q (ho.holder hi))

/-- While another party holds the gate, a party only does what can be done aside. -/
theorem custody_of_other {q : Party} (h : R.Custody k) (hq : k.gate.holder = some q) (hne : q ≠ p)
    (ho : k.Orderly) (hg : Passage p k.gate (k.stance p) k'.gate (k'.stance p)) (ha : Aside k k')
    (ht : ∀ i, q = .task i → k'.tasks[i]? = k.tasks[i]?)
    (hp : ∀ i, q = .watcher i → k'.posts[i]? = k.posts[i]?) : R.Custody k' := by
  have hq' : k'.gate.holder = some q := hg.holder_of_ne hq hne (ho.posted p)
  unfold Custody
  rw [hq']
  exact hR.party_aside ha (h.party_of_holder hq) ht hp

theorem custody_stepTask (hm : Met k) (h : R.Custody k) {i : Nat} (hs : k.stepTask i = some k') :
    R.Custody k' := by
  have ho := orderly_of_reachable (hR.reachable hm)
  obtain ⟨hg, hst⟩ := stance_stepTask ho hs
  obtain ⟨htasks, new, hnew, -⟩ := others_stepTask ho hs
  by_cases hh : ∀ q, k.gate.holder = some q → q = .task i
  · refine custody_of_party ho (ho.stepTask hs) hh hst ?_
    have hp := h.party ho hh
    obtain ⟨o, k₁, t, ht, hstep, rfl⟩ := stepTask_eq_some hs
    simp only [party, ht] at hp
    have hk₁ := hR.task_step hm ht (ho.due ht) hp hstep
    have hi : i < k₁.tasks.length := by
      rw [(Task.movement (ho.lifetimeOver ht) hstep).tasks]
      exact (List.getElem?_eq_some_iff.mp ht).1
    simp only [party, List.getElem?_set_self hi]
    exact hR.task_aside { Aside.refl k₁ with } hk₁
  · obtain ⟨q, hne⟩ := Classical.not_forall.mp hh
    obtain ⟨hq, hne⟩ := Classical.not_imp.mp hne
    have hi : k.stance (.task i) ≠ .inside := fun hi => hne (Option.some.inj (hq.symm.trans (ho.holder hi)))
    have ha : Aside k k' := aside_stepTask ho hs hi
    refine hR.custody_of_other h hq hne ho hg ha (fun j hj => ?_) (fun j _ => ?_)
    · refine htasks j fun e => hne ?_
      rw [hj, e]
    · have hl := ha.length_posts
      rw [hnew, List.length_append] at hl
      have hnil : new = [] := List.eq_nil_of_length_eq_zero (by omega)
      rw [hnew, hnil, List.append_nil]

theorem custody_stepWatcher (hm : Met k) (h : R.Custody k) {i : Nat}
    (hs : k.stepWatcher i = some k') : R.Custody k' := by
  have ho := orderly_of_reachable (hR.reachable hm)
  obtain ⟨hg, hst⟩ := stance_stepWatcher hs
  obtain ⟨htasks, new, -, hlen, hposts⟩ := others_stepWatcher hs
  by_cases hh : ∀ q, k.gate.holder = some q → q = .watcher i
  · refine custody_of_party ho (ho.stepWatcher hs) hh hst ?_
    have hp := h.party ho hh
    obtain ⟨w, k₁, ph, hw, hstep, rfl⟩ := stepWatcher_eq_some hs
    simp only [party, getElem?_posts hw] at hp
    have hk₁ := hR.watcher_step hm hw hp hstep
    simp only [party, posts_stepped hw hstep]
    exact hk₁
  · obtain ⟨q, hne⟩ := Classical.not_forall.mp hh
    obtain ⟨hq, hne⟩ := Classical.not_imp.mp hne
    have hi : k.stance (.watcher i) ≠ .inside := fun hi =>
      hne (Option.some.inj (hq.symm.trans (ho.holder hi)))
    have ha : Aside k k' := aside_stepWatcher ho hs hi
    have hl := ha.length_posts
    rw [hlen, List.length_append] at hl
    have hnil : new = [] := List.eq_nil_of_length_eq_zero (by omega)
    refine hR.custody_of_other h hq hne ho hg ha (fun j _ => by rw [htasks]) (fun j hj => ?_)
    rw [hposts j fun e => hne (by rw [hj, e]), hnil, List.append_nil]

theorem custody_background (h : R.Custody k) (hb : Background k k') : R.Custody k' := by
  unfold Custody at h ⊢
  rw [hb.gate]
  cases hg : k.gate.holder with
  | none =>
    rw [hg] at h
    exact hR.settled_aside hb.toAside h
  | some q =>
    rw [hg] at h
    cases q with
    | watcher i => exact hR.party_aside hb.toAside h (fun _ e => by cases e) (fun _ _ => by rw [hb.posts])
    | task i =>
      rcases hb.tasks i with ht | ⟨ht, token, r, ht'⟩
      · refine hR.party_aside hb.toAside h (fun j e => ?_) (fun _ e => by cases e)
        cases e
        exact ht
      · simp only [party, ht] at h
        simp only [party, ht']
        exact hR.settled_aside hb.toAside h

theorem custody_after (hm : Met k) (h : R.Custody k) {e : Happening} (he : k.after e = some k') :
    R.Custody k' := by
  rcases after_cases he with ⟨i, -, hs⟩ | ⟨i, -, hs⟩ | hb
  · exact hR.custody_stepTask hm h hs
  · exact hR.custody_stepWatcher hm h hs
  · exact hR.custody_background h hb

/-- At the end of a run that meets no other kernels the holder of the gate keeps its part. -/
theorem custody_of_path {interval : Option Span} {policy : Policy} {l : List (Kernel × Happening)}
    (h : Path (Kernel.initial interval policy) l k) (hl : ∀ x ∈ l, Met x.1) : R.Custody k := by
  induction h with
  | refl => exact hR.initial interval policy
  | tail e _ he ih =>
    exact hR.custody_after (hl _ List.mem_cons_self) (ih fun x hx => hl x (List.mem_cons_of_mem _ hx)) he

omit hR in
/-- In every reachable kernel the holder of the gate keeps its part. -/
theorem custody (hR : R.Kept) (h : k.Reachable) : R.Custody k :=
  Reachable.induct hR.initial (fun hr hc he => hR.custody_after hr hc he) h

omit hR in
/-- What is true wherever the gate can be held is always true. -/
theorem always (hR : R.Kept) (h : k.Reachable) {P : Prop} (settled : R.settled k → P)
    (opening : ∀ {i : Nat} {token ph}, k.tasks[i]? = some ⟨token, .opening ph⟩ → ph.stance = .inside →
      R.opening ph k → P)
    (closing : ∀ {i : Nat} {token ph}, k.tasks[i]? = some ⟨token, .closing ph⟩ → ph.stance = .inside →
      R.closing ph k → P)
    (toggling : ∀ {i : Nat} {token f enable edge run g},
      k.tasks[i]? = some ⟨token, .toggling f enable edge run⟩ → run.phase = .acting (.calling g) →
      R.toggling f enable edge g k → P)
    (watching : ∀ {i : Nat} {w}, k.watchers[i]? = some w → w.phase.stance = .inside →
      R.watching i w.phase k → P) : P := by
  have chosen : ∀ {s : Stance} {inside : Prop}, (s = .inside → inside → P) →
      s.choose inside (R.settled k) → P := by
    intro s inside hi hk
    cases s with
    | inside => exact hi rfl hk
    | _ => exact settled hk
  have hc := hR.custody h
  unfold Custody at hc
  split at hc
  · exact settled hc
  · rename_i p _
    cases p with
    | task i =>
      simp only [party] at hc
      split at hc
      · rename_i o ho
        obtain ⟨token, task⟩ := o
        cases task with
        | opening ph => exact chosen (opening ho) hc
        | closing ph => exact chosen (closing ho) hc
        | toggling f enable edge run =>
          simp only [task, Run.Holds] at hc
          split at hc
          · rename_i a ha
            cases a with
            | calling g => exact toggling ho ha hc
            | _ => exact settled hc
          · exact settled hc
        | ready | running | ended => exact settled hc
      · exact settled hc
    | watcher i =>
      simp only [party] at hc
      split at hc
      · rename_i q hq
        simp only [posts, List.getElem?_map, Option.map_eq_some_iff] at hq
        obtain ⟨w, hw, rfl⟩ := hq
        exact chosen (watching hw) hc
      · exact settled hc

end Kept

/-! ## Inside the gate -/

theorem Custody.task_of_inside (h : R.Custody k) (ho : k.Orderly) {i : Nat} {o : Operating}
    (ht : k.tasks[i]? = some o) (hi : o.task.stance = .inside) : R.task o.task k := by
  have hh := ho.holder (p := .task i) (by rw [stance_of_tasks ht, hi])
  have hp := h.party_of_holder hh
  simpa only [Regime.party, ht] using hp

theorem Custody.toggling_of_inside (h : R.Custody k) (ho : k.Orderly) {i token : Nat} {f : Feature}
    {enable edge : Bool} {run : Run Toggling} {g : Subscribing}
    (ht : k.tasks[i]? = some ⟨token, .toggling f enable edge run⟩)
    (hg : run.phase = .acting (.calling g)) : R.toggling f enable edge g k := by
  have hk := h.task_of_inside ho ht (by simp [Task.stance, runStance, hg, Toggling.stance])
  simp only [task, Run.Holds, hg] at hk
  exact hk

namespace Kept

variable (hR : R.Kept)
include hR

theorem opening_of_inside (h : k.Reachable) {i token : Nat} {ph : OpenPhase}
    (ht : k.tasks[i]? = some ⟨token, .opening ph⟩) (hi : ph.stance = .inside) : R.opening ph k := by
  have hk := (hR.custody h).task_of_inside (orderly_of_reachable h) ht hi
  simp only [task, opener, hi] at hk
  exact hk

theorem closing_of_inside (h : k.Reachable) {i token : Nat} {ph : ClosePhase}
    (ht : k.tasks[i]? = some ⟨token, .closing ph⟩) (hi : ph.stance = .inside) : R.closing ph k := by
  have hk := (hR.custody h).task_of_inside (orderly_of_reachable h) ht hi
  simp only [task, closer, hi] at hk
  exact hk

theorem toggling_of_inside (h : k.Reachable) {i token : Nat} {f : Feature} {enable edge : Bool}
    {run : Run Toggling} {g : Subscribing} (ht : k.tasks[i]? = some ⟨token, .toggling f enable edge run⟩)
    (hg : run.phase = .acting (.calling g)) : R.toggling f enable edge g k :=
  (hR.custody h).toggling_of_inside (orderly_of_reachable h) ht hg

theorem watching_of_inside (h : k.Reachable) {i : Nat} {w : Watcher} (hw : k.watchers[i]? = some w)
    (hi : w.phase.stance = .inside) : R.watching i w.phase k := by
  have hh := (orderly_of_reachable h).holder (p := .watcher i) (by rw [stance_of_watchers hw, hi])
  have hp := (hR.custody h).party_of_holder hh
  simp only [party, getElem?_posts hw, watcher, hi] at hp
  exact hp

end Kept

end Regime

end HubDevice.Kernel
