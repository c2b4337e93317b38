import HubDevice.Proofs.Kernel.Announcement
import HubDevice.Proofs.Kernel.Path
import HubDevice.Proofs.Kernel.Vacancy

/-!
# Closing for good

At most one close call goes past its first step (`Sole`). Once it has lowered the link nothing can be
at work any more, and once it has returned the client is over (`Over`): whatever happens then makes routine
calls at most and reports nothing (`Over.touches`).
-/

namespace HubDevice.Kernel

open FairLock Retry Wire

variable {p : Party} {k k' : Kernel} {e : Happening} {i j : Nat}

/-- A close call that has begun is in a phase. -/
def Closes (k : Kernel) (i : Nat) (ph : ClosePhase) : Prop :=
  ph ≠ .dispose ∧ ∃ token, k.tasks[i]? = some ⟨token, .closing ph⟩

/-- The phases of a close call that has closed a link which was up. -/
def ClosePhase.Lowered : ClosePhase → Prop
  | .releasing _ | .reportTrouble | .stopWatcher | .joinWatcher _ | .reportClosed => True
  | _ => False

/-- At most one close call has begun and not returned. When it returns, the link is closed. -/
structure Sole (k : Kernel) : Prop where
  unique : ∀ {i j ph ph'}, k.Closes i ph → k.Closes j ph' → i = j
  lowered : ∀ {i ph}, k.Closes i ph → ph.Lowered → k.link = .closed ∧ k.opened = true
  pending : k.disposed = true → k.link = .closed ∨ ∃ i ph, k.Closes i ph

/-- The client was closed, and no close call is on its way. -/
structure Over (k : Kernel) : Prop where
  link : k.link = .closed
  closes : ∀ i ph, ¬ k.Closes i ph

/-! ## Close calls -/

theorem Orderly.disposed (h : k.Orderly) {ph : ClosePhase} (hc : k.Closes i ph) : k.disposed = true := by
  obtain ⟨hne, token, ht⟩ := hc
  have hd : ph.Due k := h.due ht
  cases ph with
  | dispose => exact absurd rfl hne
  | endLifetime => exact hd
  | _ => exact hd.1

theorem ClosePhase.sole_step {ph : ClosePhase} {pr : Progress ClosePhase (Except ClientError Unit)}
    (hl : ph.Lowered → k.link = .closed ∧ k.opened = true) (h : ph.step p k = some (k', pr)) :
    pr.Leaves (fun ph' => ph' ≠ .dispose ∧ (ph = .dispose → k.disposed = false) ∧
        (ph'.Lowered → k'.link = .closed ∧ k'.opened = true))
      (ph = .dispose ∧ k.disposed = true ∨ k'.link = .closed) False := by
  cases turn_of_step h with
  | already hd => exact .inl ⟨rfl, hd⟩
  | disposed hd => exact ⟨by simp, fun _ => hd, False.elim⟩
  | lifetimeEnded | asked | entered => exact ⟨by simp, fun h => (by cases h), False.elim⟩
  | lowered ho => exact ⟨by simp, fun h => (by cases h), fun _ => ⟨rfl, ho⟩⟩
  | loweredUnopened => exact .inr rfl
  | releasing | released | troubled | reportedTrouble | unwatched | joined =>
    exact ⟨by simp, fun h => (by cases h), fun _ => hl trivial⟩
  | dismissed =>
    have hd := aside_dismissWatcher k
    exact ⟨by simp, fun h => (by cases h), fun _ => by rw [hd.link, hd.opened]; exact hl trivial⟩
  | reportedClosed => exact .inr (hl trivial).1

/-- A close call that has begun afterwards was where it is, or has taken a step to there. -/
theorem closes_after (h : k.Orderly) (he : k.after e = some k') {ph' : ClosePhase} (hc : k'.Closes i ph') :
    k.Closes i ph' ∨ ∃ token ph k₁, e = .stepTask i ∧ k.tasks[i]? = some ⟨token, .closing ph⟩ ∧
      ph.step (.task i) k = some (k₁, .more ph') ∧ k'.link = k₁.link ∧ k'.opened = k₁.opened := by
  obtain ⟨hne, token, ht⟩ := hc
  rcases tasks_after h he i with hs | ⟨-, token', r, hn⟩ | ⟨⟨token', t₀⟩, k₁, t, rfl, ho, hs, rfl, hn⟩
  · exact .inl ⟨hne, token, hs.symm.trans ht⟩
  · rw [hn] at ht
    cases ht
  · rw [hn] at ht
    cases ht
    rcases Task.closing_of_step hs with ⟨-, rfl⟩ | ⟨ph, rfl, hp⟩
    · exact absurd rfl hne
    · exact .inr ⟨_, ph, k₁, rfl, ho, hp, rfl, rfl⟩

/-- A close call that has begun stays where it is, or takes a step and goes on or returns. -/
theorem Closes.after {ph : ClosePhase} (hc : k.Closes i ph) (h : k.Orderly) (he : k.after e = some k') :
    k'.Closes i ph ∨ ∃ k₁ pr, e = .stepTask i ∧ ph.step (.task i) k = some (k₁, pr) ∧
      k'.link = k₁.link ∧ k'.opened = k₁.opened ∧ k'.handler = k₁.handler ∧
      pr.Leaves (fun ph' => ∃ token, k'.tasks[i]? = some ⟨token, .closing ph'⟩)
        ((k'.result? i).isSome = true) ((k'.result? i).isSome = true) := by
  obtain ⟨hne, token, ht⟩ := hc
  rcases tasks_after h he i with hs | ⟨hn, -⟩ | ⟨o, k₁, t, rfl, ho, hs, rfl, hn⟩
  · exact .inl ⟨hne, token, hs.trans ht⟩
  · rw [hn] at ht
    cases ht
  · rw [ht] at ho
    cases ho
    obtain ⟨pr, hp, rfl⟩ := ofPart_eq_some hs
    refine .inr ⟨k₁, pr, rfl, hp, rfl, rfl, rfl, ?_⟩
    have ended : ∀ {r}, (k₁.tasks.set i ⟨token, .ended r⟩)[i]? = some (⟨token, .ended r⟩ : Operating) →
        (result? { k₁ with tasks := k₁.tasks.set i ⟨token, .ended r⟩ } i).isSome = true := fun hn => by
      rw [result?_eq_some.mpr ⟨token, hn⟩]
      rfl
    rcases pr with ph' | (x | v)
    · exact ⟨token, hn⟩
    · exact ended hn
    · exact ended hn

theorem sole_initial (interval : Option Span) (policy : Policy) : (initial interval policy).Sole where
  unique h := by
    obtain ⟨-, _, ht⟩ := h
    cases ht
  lowered h := by
    obtain ⟨-, _, ht⟩ := h
    cases ht
  pending h := by cases h

theorem Sole.after (h : k.Sole) (hr : k.Reachable) (he : k.after e = some k') : k'.Sole := by
  have ho := orderly_of_reachable hr
  have closed : k.link = .closed → k'.link = .closed := fun hl =>
    (hl ▸ linkMoves_after hr he).eq_closed
  have stepped : ∀ {i token : Nat} {ph : ClosePhase} {k₁ pr}, k.tasks[i]? = some ⟨token, .closing ph⟩ →
      ph.step (.task i) k = some (k₁, pr) →
      pr.Leaves (fun ph' => ph' ≠ .dispose ∧ (ph = .dispose → k.disposed = false) ∧
        (ph'.Lowered → k₁.link = .closed ∧ k₁.opened = true))
        (ph = .dispose ∧ k.disposed = true ∨ k₁.link = .closed) False := by
    intro i token ph k₁ pr ht hs
    refine ClosePhase.sole_step (fun hp => h.lowered ⟨fun e => ?_, token, ht⟩ hp) hs
    rw [e] at hp
    exact hp
  refine ⟨fun {i j ph ph'} hi hj => ?_, fun {i ph} hi hl => ?_, fun hd => ?_⟩
  · -- Whoever is not at its first step now was not before, or began while nobody else had.
    have begun : ∀ {i ph}, k'.Closes i ph → e ≠ .stepTask i ∧ k.Closes i ph ∨
        e = .stepTask i ∧ (k.disposed = false ∨ ∃ ph, k.Closes i ph) := by
      intro i ph hc
      by_cases hei : e = .stepTask i
      · refine .inr ⟨hei, ?_⟩
        rcases closes_after ho he hc with hc | ⟨token, ph₀, k₁, -, ht, hs, -⟩
        · exact .inr ⟨_, hc⟩
        · by_cases hp : ph₀ = .dispose
          · exact .inl ((stepped ht hs).2.1 hp)
          · exact .inr ⟨ph₀, hp, token, ht⟩
      · rcases closes_after ho he hc with hc | ⟨_, _, _, he, -⟩
        · exact .inl ⟨hei, hc⟩
        · exact absurd he hei
    rcases begun hi with ⟨-, hi⟩ | ⟨hei, hi⟩ <;> rcases begun hj with ⟨-, hj⟩ | ⟨hej, hj⟩
    · exact h.unique hi hj
    · rcases hj with hd | ⟨_, hj⟩
      · rw [ho.disposed hi] at hd
        cases hd
      · exact h.unique hi hj
    · rcases hi with hd | ⟨_, hi⟩
      · rw [ho.disposed hj] at hd
        cases hd
      · exact h.unique hi hj
    · rw [hei] at hej
      cases hej
      rfl
  · rcases closes_after ho he hi with hi | ⟨token, ph₀, k₁, -, ht, hs, hlink, hop⟩
    · obtain ⟨hc, hopen⟩ := h.lowered hi hl
      exact ⟨closed hc, opened_after ho he hopen⟩
    · rw [hlink, hop]
      exact (stepped ht hs).2.2 hl
  · cases hk : k.disposed with
    | true =>
      rcases h.pending hk with hl | ⟨i, ph, hc⟩
      · exact .inl (closed hl)
      · rcases hc.after ho he with hc' | ⟨k₁, pr, -, hs, hlink, -, -, ht'⟩
        · exact .inr ⟨i, ph, hc'⟩
        · obtain ⟨hne, token, ht⟩ := hc
          have hp := stepped ht hs
          cases pr with
          | more ph' => exact .inr ⟨i, ph', hp.1, ht'⟩
          | done r =>
            cases r with
            | error => exact hp.elim
            | ok =>
              rcases hp with ⟨hd, -⟩ | hl
              · exact absurd hd hne
              · exact .inl (hlink.trans hl)
    | false =>
      -- Only a close call that begins can have made the difference.
      rcases notes_after ho he with hn | ⟨i, rfl, hn⟩
      · rw [hn.disposed, hk] at hd
        cases hd
      · cases hn with
        | @disposed token ht =>
          refine .inr ⟨i, .endLifetime, by simp, token, ?_⟩
          exact List.getElem?_set_self (List.getElem?_eq_some_iff.mp ht).1
        | raised | concluded =>
          have hf : k.disposed = true := hd
          rw [hk] at hf
          cases hf

theorem sole_of_reachable (h : k.Reachable) : k.Sole :=
  Reachable.induct sole_initial (fun hr hs he => hs.after hr he) h

/-! ## After the end -/

namespace Over

variable (ho : k.Over)
include ho

/-- Nobody is at work on a closed link. -/
theorem not_working (h : k.Reachable) {token : Nat} {ph : OpenPhase}
    (ht : k.tasks[i]? = some ⟨token, .opening ph⟩) (hi : ph.stance = .inside) :
    ∃ epoch, ph = .recheckDisposed epoch := by
  have hk : ph.OnLink k := linkRegime_kept.opening_of_inside h ht hi
  have hl := ho.link
  cases ph with
  | recheckDisposed epoch => exact ⟨epoch, rfl⟩
  | consider => exact absurd hl hk.2
  | begin | reportDown => exact absurd hl hk.2.1
  | conclude outcome =>
    cases outcome with
    | ok => exact absurd (hl.symm.trans hk.2) (by simp)
    | error => exact absurd hl hk.2.1
  | working | raiseLink => exact absurd hl hk.1.link_ne.1
  | startWatcher => exact absurd (hl.symm.trans hk.1.link) (by simp)
  | reportUp => exact absurd (hl.symm.trans hk.2) (by simp)
  | _ => cases hi

theorem not_restoring (h : k.Reachable) {w : Watcher} (hw : k.watchers[i]? = some w)
    (hi : w.phase.stance = .inside) : ∃ cause, w.phase = .lowerLink cause := by
  have hk := linkRegime_kept.watching_of_inside h hw hi
  revert hi hk
  generalize w.phase = ph
  intro hi (hk : ph.OnLink i k)
  have hl := ho.link
  cases ph with
  | lowerLink cause => exact ⟨cause, rfl⟩
  | decide | announce | pausing | giveUp | reportDown => exact absurd (hl.symm.trans hk.link) (by simp)
  | recovering | raiseLink | startWatcher => exact absurd (hl.symm.trans hk.1.link) (by simp)
  | reportUp => exact absurd (hl.symm.trans hk.2.1) (by simp)
  | _ => cases hi

theorem not_toggling (h : k.Reachable) {token : Nat} {f : Feature} {enable edge : Bool}
    {run : Run Toggling} {g : Subscribing} (ht : k.tasks[i]? = some ⟨token, .toggling f enable edge run⟩) :
    run.phase ≠ .acting (.calling g) := fun hg =>
  (slotRegime_kept.toggling_of_inside h ht hg).link ho.link

theorem not_closing {token : Nat} {ph : ClosePhase} (ht : k.tasks[i]? = some ⟨token, .closing ph⟩) :
    ph = .dispose :=
  Classical.byContradiction fun hne => ho.closes i ph ⟨hne, token, ht⟩

/-- Once the client is over it stays so. -/
theorem after (h : k.Reachable) (he : k.after e = some k') : k'.Over where
  link := (ho.link ▸ linkMoves_after h he).eq_closed
  closes i ph hc := by
    have hord := orderly_of_reachable h
    rcases closes_after hord he hc with hc | ⟨token, ph₀, k₁, -, ht, hs, -⟩
    · exact ho.closes i ph hc
    · cases ho.not_closing ht
      have hl : ClosePhase.dispose.Lowered → k.link = .closed ∧ k.opened = true := False.elim
      have hd := (ClosePhase.sole_step hl hs).2.1 rfl
      rw [disposed_of_closed h ho.link] at hd
      cases hd

theorem scope_le (h : k.Reachable) {o : Operating} (ht : k.tasks[i]? = some o) :
    o.task.scope ≤ Scope.routine := by
  have silent : ∀ {P : Prop}, ({ notes := P } : Scope) ≤ Scope.routine := ⟨fun _ => False.elim, fun _ => False.elim⟩
  obtain ⟨token, task⟩ := o
  cases task with
  | ready | ended => exact silent
  | opening ph =>
    by_cases hi : ph.stance = .inside
    · obtain ⟨epoch, rfl⟩ := ho.not_working h ht hi
      exact silent
    · cases ph <;> first | exact silent | exact absurd rfl hi
  | closing ph =>
    cases ho.not_closing ht
    exact silent
  | running x run =>
    simp only [Task.scope, runScope]
    split
    · rename_i a _
      cases a with
      | admission => exact silent
      | calling => exact Scope.le_refl _
    · exact silent
  | toggling f enable edge run =>
    simp only [Task.scope, runScope]
    split
    · rename_i a ha
      cases a with
      | calling g => exact absurd ha (ho.not_toggling h ht)
      | _ => exact silent
    · exact silent

/-- Whatever happens once the client is over makes routine calls at most and reports nothing. -/
theorem touches (h : k.Reachable) (he : k.after e = some k') :
    k.handler.wire.Touches .routine k'.handler.wire := by
  have hord := orderly_of_reachable h
  rcases after_cases he with ⟨i, rfl, hs⟩ | ⟨i, rfl, hs⟩ | hb
  · obtain ⟨o, k₁, t, ht, hstep, rfl⟩ := stepTask_eq_some hs
    exact (Task.movement (hord.lifetimeOver ht) hstep).wire.mono (ho.scope_le h ht)
  · obtain ⟨w, k₁, ph, hw, hstep, rfl⟩ := stepWatcher_eq_some hs
    have hm := (WatchPhase.movement hstep).wire
    have hle : w.phase.scope ≤ Scope.routine := by
      by_cases hi : w.phase.stance = .inside
      · obtain ⟨cause, hp⟩ := ho.not_restoring h hw hi
        rw [hp]
        exact Scope.nothing_le _
      · cases hp : w.phase <;> first | exact Scope.nothing_le _ | exact absurd (by rw [hp]; rfl) hi
    exact hm.mono hle
  · exact hb.quiet

/-- No control call is on its way any more. -/
theorem quiet (h : k.Reachable) : k.Quiet := by
  refine recordRegime_kept.always h id (fun ht hi hk => ?_) (fun ht hi _ => ?_) (fun ht hg _ => ?_)
    (fun hw hi hk => ?_)
  · obtain ⟨epoch, rfl⟩ := ho.not_working h ht hi
    exact hk
  · cases ho.not_closing ht
    cases hi
  · exact absurd hg (ho.not_toggling h ht)
  · obtain ⟨cause, hp⟩ := ho.not_restoring h hw hi
    rw [hp] at hk
    exact hk

theorem slot (h : k.Reachable) : k.handler.slot = none := by
  refine slotRegime_kept.always h (fun hv => hv.closed ho.link) (fun ht hi hk => ?_) (fun ht hi _ => ?_)
    (fun _ _ hk => absurd ho.link hk.link) (fun hw hi hk => ?_)
  · obtain ⟨epoch, rfl⟩ := ho.not_working h ht hi
    exact hk.closed ho.link
  · cases ho.not_closing ht
    cases hi
  · obtain ⟨cause, hp⟩ := ho.not_restoring h hw hi
    rw [hp] at hk
    exact hk.closed ho.link

/-- The record of control calls stands as it is. -/
theorem control_eq (h : k.Reachable) (hr : k.Reaches k') :
    k'.Reachable ∧ k'.Over ∧ k'.handler.wire.control = k.handler.wire.control := by
  induction hr with
  | refl => exact ⟨h, ho, rfl⟩
  | tail e _ he ih =>
    obtain ⟨hr, ho', hc⟩ := ih
    refine ⟨hr.after he, ho'.after hr he, ?_⟩
    exact ((ho'.touches hr he).control_eq (fun _ => id) (ho'.quiet hr).owned).2.trans hc

end Over

end HubDevice.Kernel
