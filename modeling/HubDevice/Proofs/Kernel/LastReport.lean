import HubDevice.Proofs.Kernel.Closure
import HubDevice.Proofs.Kernel.Reports

/-!
# What a closed client was told last

Once the close call that ended a client has returned, the status stays. It is that of a closed client if an
open call had ever succeeded (`closed_of_over`). Otherwise the close call reports nothing, and the status is
what the last open call left: disconnected, or still retrying if that call had announced another attempt and
was then cut short by the close (`status_of_closed`).
-/

namespace HubDevice.Kernel

open FairLock Retry Wire

variable {k k' : Kernel} {e : Happening} {i : Nat} {l : List (Kernel × Happening)}
  {x : Kernel × Happening} {interval : Option Span} {policy : Policy}

/-- What a close call on its way makes of a kernel in which none is. -/
theorem Closes.reports_of_over {ph : ClosePhase} (hc : k.Closes i ph) (h : k.Reachable)
    (he : k.after e = some k') (ho : k'.Over) (hopen : k'.opened = true) :
    k'.handler.wire.reports = closedStatus :: k.handler.wire.reports := by
  have hord := orderly_of_reachable h
  rcases hc.after hord he with hc' | ⟨k₁, pr, -, hs, -, hop, hwire, hleft⟩
  · exact absurd hc' (ho.closes _ _)
  have hl : ph.Lowered → k.link = .closed ∧ k.opened = true := (sole_of_reachable h).lowered hc
  cases pr with
  | more ph' =>
    have hne := (ClosePhase.sole_step hl hs).1
    exact absurd ⟨hne, hleft⟩ (ho.closes i ph')
  | done r =>
    have hph : ph.Entered := by
      cases ClosePhase.turn_of_step hs with
      | already => exact absurd rfl hc.1
      | loweredUnopened | reportedClosed => trivial
    have hk : k.opened = true := (hc.opened_eq hph h he).symm.trans hopen
    have hstep := ClosePhase.entered_step hs hph hk
    cases r with
    | error => exact hstep.elim
    | ok => rw [hwire, show k₁.handler.wire.reports = _ from hstep]

/-- A client that has become over without a close call on its way was so before. -/
theorem over_of_after (h : k.Reachable) (he : k.after e = some k') (hc : ∀ i ph, ¬ k.Closes i ph)
    (ho : k'.Over) : k.Over ∧ k'.opened = k.opened := by
  have hord := orderly_of_reachable h
  have hd' := disposed_of_closed (h.after he) ho.link
  have hover : k.disposed = true → k.Over := fun hd => by
    rcases (sole_of_reachable h).pending hd with hl | ⟨i, ph, hi⟩
    · exact ⟨hl, hc⟩
    · exact absurd hi (hc i ph)
  rcases notes_after hord he with hn | ⟨j, rfl, hn⟩
  · exact ⟨hover (hn.disposed.symm.trans hd'), hn.opened⟩
  · cases hn with
    | @disposed token ht =>
      have hi : (k.tasks.set j ⟨token, .closing .endLifetime⟩)[j]? = some ⟨token, .closing .endLifetime⟩ :=
        List.getElem?_set_self (List.getElem?_eq_some_iff.mp ht).1
      exact absurd ⟨nofun, token, hi⟩ (ho.closes j .endLifetime)
    | raised ht =>
      obtain ⟨epoch, hp⟩ := (hover hd').not_working h ht rfl
      cases hp
    | concluded => exact ⟨hover hd', rfl⟩

/-- An opened client that is over was told so last. -/
theorem closed_of_over (h : k.Reachable) (ho : k.Over) (hopen : k.opened = true) :
    k.status.value = closedStatus := by
  have hmem : closedStatus ∈ k.handler.wire.reports := by
    refine Reachable.induct (P := fun k => k.Over → k.opened = true → closedStatus ∈ k.handler.wire.reports)
      (fun _ _ ho => by cases ho.link) (fun {k k' e} hr ih he ho hopen => ?_) h ho hopen
    by_cases hc : ∃ i ph, k.Closes i ph
    · obtain ⟨i, ph, hc⟩ := hc
      rw [hc.reports_of_over hr he ho hopen]
      exact List.mem_cons_self
    · obtain ⟨ho₀, hop⟩ := over_of_after hr he (fun i ph hi => hc ⟨i, ph, hi⟩) ho
      obtain ⟨A, ht⟩ := wire_after (orderly_of_reachable hr) he
      obtain ⟨new, hn, -⟩ := ht.reports
      rw [hn]
      exact List.mem_append_right _ (ih ho₀ (hop.symm.trans hopen))
  obtain ⟨newer, older, hs⟩ := List.append_of_mem hmem
  obtain ⟨-, rfl, -⟩ := final_of_closed h hs
  rw [status_of_reports h, hs]
  rfl

/-- Nobody is at work on a client that is over, so that what it was told last fits the link. -/
theorem Over.truthful (ho : k.Over) (h : k.Reachable) : k.Truthful := by
  refine reportRegime_kept.always h id (fun ht hi hk => ?_) (fun ht hi _ => ?_) (fun _ _ hk => hk)
    (fun hw hi hk => ?_)
  · obtain ⟨epoch, rfl⟩ := ho.not_working h ht hi
    exact hk
  · cases ho.not_closing ht
    cases hi
  · obtain ⟨cause, hp⟩ := ho.not_restoring h hw hi
    rw [hp] at hk
    exact hk

/-- Nothing is reported once the client is over. -/
theorem Over.reports_eq (ho : k.Over) (h : k.Reachable) (hr : k.Reaches k') :
    k'.handler.wire.reports = k.handler.wire.reports := by
  induction hr with
  | refl => rfl
  | tail e hr he ih =>
    obtain ⟨hr', ho', -⟩ := ho.control_eq h hr
    obtain ⟨new, hn, hall⟩ := (ho'.touches hr' he).reports
    have hnew : new = [] := List.eq_nil_iff_forall_not_mem.mpr hall
    rw [hn, hnew]
    exact ih

/-- Once a close call has returned and none that has begun is still on its way, the status stays. It is that
of a closed client if an open call had ever succeeded; else it is disconnected, or retrying if the last open
call to end was cut short by the close. -/
theorem status_of_closed (hp : Path (initial interval policy) l k) (hx : ∃ x ∈ l, ReturnsClose x)
    (hn : ∀ i ph, ¬ k.Closes i ph) :
    (∀ k', k.Reaches k' → k'.status.value = k.status.value ∧
      k'.handler.wire.reports = k.handler.wire.reports) ∧
    (k.opened = true → k.status.value = closedStatus) ∧
    (k.opened = false → k.status.value.state = .disconnected ∨
      (k.status.value.state = .retrying ∧ k.lastOpen = some (.error .disposed))) := by
  have hr := hp.reachable (reachable_initial interval policy)
  obtain ⟨x, hx, hc⟩ := hx
  have ho : k.Over := by
    rcases (sole_of_reachable hr).pending (disposed_of_mem hp hx (.inr hc)) with hl | ⟨i, ph, hi⟩
    · exact ⟨hl, hn⟩
    · exact absurd hi (hn i ph)
  refine ⟨fun k' hk' => ?_, closed_of_over hr ho, fun hf => ?_⟩
  · have hrep := ho.reports_eq hr hk'
    refine ⟨?_, hrep⟩
    rw [status_of_reports hr, status_of_reports (hr.reaches hk'), hrep]
  · have hu : k.Unclosed := fun hc => absurd (hc.2.symm.trans hf) (by simp)
    have hl := ho.link
    rcases (ho.truthful hr).down hu (by simp [hl]) (by simp [hl]) with hd | ⟨ht, -, hlast⟩
    · exact .inl hd
    · exact .inr ⟨ht, hlast⟩

/-- The status of a client that was opened and closed stays disabled. -/
theorem status_of_closed_firstClosing : ∃ l k, Path (initial none .standard) l k ∧
    (∃ x ∈ l, ReturnsClose x) ∧ (∀ i ph, ¬ k.Closes i ph) ∧
    ∀ k', k.Reaches k' → k'.handler.wire.reports = [closedStatus, ⟨.connected, .connectionOk⟩] := by
  obtain ⟨k₀, k₁, k₂, k₃, k, h₀, h₁, h₂, h₃, h₄, -, hc, hres, ht, hrep⟩ := firstClosing_returns
  obtain ⟨l₀, hp₀⟩ := History.of_reaches (reaches_of_course h₀)
  obtain ⟨l₂, hp₂⟩ := History.of_reaches (reaches_of_course h₂)
  have hp := (((hp₀.tail _ h₁).trans hp₂).tail _ h₃).tail _ h₄
  have hx : ReturnsClose (k₂, .stepTask 1) := ⟨1, 0, _, _, hc, rfl, k₃, h₃, hres⟩
  have hn : ∀ i ph, ¬ k.Closes i ph := by
    rintro i ph ⟨-, token, hti⟩
    rw [ht] at hti
    rcases i with _ | _ | _ | i <;> cases hti
  refine ⟨_, k, hp, ⟨_, by simp, hx⟩, hn, fun k' hk' => ?_⟩
  rw [← hrep]
  exact ((status_of_closed hp ⟨_, by simp, hx⟩ hn).1 k' hk').2

/-- An open call announces another attempt after a failure, a close call cuts it short, and takes the gate. -/
def cutShort : List Happening :=
  [Happening.start 0 .open] ++ List.replicate 10 (Happening.stepTask 0) ++
    [Happening.answer 0 (.ok .done), .stepTask 0, .answer 1 (.error (.network "no route")), .stepTask 0,
      .start 1 .close] ++ List.replicate 4 (Happening.stepTask 1) ++ [Happening.stepTask 0, .stepTask 0, .stepTask 1]

/-- The close call returns, and the client is left with the announcement that the connection is being
restored. -/
theorem retrying_left_behind : ∃ l k, Path (initial none .standard) l k ∧
    (∃ x ∈ l, ReturnsClose x) ∧ (∀ i ph, ¬ k.Closes i ph) ∧ k.gate.holder = none ∧ k.link = .closed ∧
    k.status.value = ⟨.retrying, .communicationError⟩ := by
  have hcourse : ∃ k₀ k, (initial none .standard).course cutShort = some k₀ ∧
      k₀.after (.stepTask 1) = some k ∧ k₀.tasks[1]? = some ⟨1, .closing .lowerLink⟩ ∧
      k.tasks = [⟨0, .ended (.error .disposed)⟩, ⟨1, .ended (.ok .done)⟩] ∧ k.gate.holder = none ∧
      k.link = .closed ∧ k.status.value = ⟨.retrying, .communicationError⟩ :=
    ⟨_, _, rfl, rfl, rfl, rfl, rfl, rfl, rfl⟩
  obtain ⟨k₀, k, h₀, h₁, hc, ht, hg, hl, hs⟩ := hcourse
  obtain ⟨l, hp⟩ := History.of_reaches (reaches_of_course h₀)
  have hres : k.result? 1 = some (.ok .done) := result?_eq_some.mpr ⟨1, by rw [ht]; rfl⟩
  refine ⟨_, k, hp.tail _ h₁, ⟨_, List.mem_cons_self, 1, 1, _, _, hc, rfl, k, h₁, hres⟩, ?_, hg, hl, hs⟩
  rintro i ph ⟨-, token, hti⟩
  rw [ht] at hti
  rcases i with _ | _ | i <;> cases hti

end HubDevice.Kernel
