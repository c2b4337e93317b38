import HubDevice.Proofs.Kernel.Attempts

/-!
# After a recovery was given up

Once the link is lost and nobody is at work on it, the client is dormant: until an open call begins its
attempts, or a close or drop begins, nothing is reported, no control call is made and the link stays lost
(`dormant_of_path`).
-/

namespace HubDevice.Kernel

open FairLock Retry Wire

variable {p : Party} {k k' : Kernel} {e : Happening} {i token : Nat} {l : List (Kernel × Happening)}

/-- The link is lost, nobody restores it, and nobody is at work on it. -/
structure Dormant (k : Kernel) : Prop where
  link : k.link = .lost
  unwatched : k.Unwatched
  quiet : k.Quiet
  idle : ∀ {i : Nat} {o : Operating}, k.tasks[i]? = some o → ¬ o.task.Works

/-- An open call begins its attempts in a step of a run. -/
def BeginsOpen (x : Kernel × Happening) : Prop :=
  ∃ i token, x.2 = .stepTask i ∧ x.1.tasks[i]? = some ⟨token, .opening .begin⟩

/-- What a party that is not inside the gate leaves settled is settled while nobody is inside. -/
theorem Regime.Custody.settled_of_outside {R : Regime} (h : R.Custody k) (hp : ∀ p, k.stance p ≠ .inside) :
    R.settled k := by
  cases hg : k.gate.holder with
  | none => exact h.settled hg
  | some p => exact (Regime.party_of_not_inside (hp p)).mp (h.party_of_holder hg)

/-- A link that is lost while nobody is inside the gate leaves the client dormant. -/
theorem dormant_of_outside (hr : k.Reachable) (hl : k.link = .lost) (hp : ∀ p, k.stance p ≠ .inside) :
    k.Dormant where
  link := hl
  unwatched := by
    have hset : k.Settled := (linkRegime_kept.custody hr).settled_of_outside hp
    have hm := hset.meaning
    rwa [hl] at hm
  quiet := (recordRegime_kept.custody hr).settled_of_outside hp
  idle ht hw := hp _ ((stance_of_tasks ht).trans hw.inside)

/-! ## Steps -/

/-- An operation that is not at work leaves what the gate protects as it was, unless it begins an open. -/
theorem Task.aside_of_idle {t t' : Task} (hd : t.Due k) (ht : ¬ t.Works) (hb : t ≠ .opening .begin)
    (h : t.step token p k = some (k', t')) : Aside k k' := by
  cases t with
  | ready request => cases request <;> cases h <;> exact Aside.refl k
  | opening ph =>
    obtain ⟨_, hs, -⟩ := ofPart_eq_some h
    refine OpenPhase.aside ?_ hs
    cases ph with
    | checkDisposed | checkConnected | readEpoch | askGate | awaitGate => exact .inl (by simp [OpenPhase.stance])
    | recheckDisposed e => exact .inr (.inl ⟨e, rfl⟩)
    | consider e => exact .inr (.inr ⟨e, rfl⟩)
    | begin => exact absurd rfl hb
    | _ => exact absurd trivial ht
  | closing ph =>
    obtain ⟨_, hs, -⟩ := ofPart_eq_some h
    exact ClosePhase.aside ht (ClosePhase.Due.reporting hd) hs
  | running x run =>
    obtain ⟨_, hs, -⟩ := ofPart_eq_some h
    exact Guarded.aside_turn (Run.turn_of_step hs)
  | toggling f enable edge run =>
    obtain ⟨_, hs, -⟩ := ofPart_eq_some h
    exact Toggling.aside_turn (fun g hp => ht ⟨g, hp⟩) (Run.turn_of_step hs)
  | ended result => cases h

/-- A change of a subscription does not ask the transport while the link is lost. -/
theorem Toggling.idle_turn {f : Feature} {enable edge c : Bool} {r r' : Run Toggling} (hl : k.link = .lost)
    (hr : ∀ g, r.phase ≠ .acting (.calling g))
    (h : Run.Turn (Kernel.toggling f enable edge p) c k r k' (.more r')) :
    ¬ ∃ g, r'.phase = .acting (.calling g) := by
  rintro ⟨g, hg⟩
  cases h with
  | @advanced a a' _ hp hs =>
    cases hg
    cases turn_of_step hs with
    | began hc =>
      rw [hl] at hc
      cases hc
    | calling => exact hr _ hp
  | @retried _ e k₁ delay =>
    have hph := Run.awaiting_cases (Kernel.toggling f enable edge p)
      ((Kernel.toggling f enable edge p).granted k₁ e r.attempt delay) delay
    rcases hph with hph | ⟨t, hph⟩ <;> rw [hph] at hg <;> cases hg
  | resumed => cases hg

/-- An operation that is not at work does not get to work while the link is lost. -/
theorem Task.idle_step {t t' : Task} (hl : k.link = .lost) (hlife : k.lifetimeOver = false) (hd : t.Due k)
    (ht : ¬ t.Works) (hb : t ≠ .opening .begin) (h : t.step token p k = some (k', t')) : ¬ t'.Works := by
  intro hw
  cases t with
  | ready request =>
    cases request with
    | «open» | close | run =>
      cases h
      cases hw
    | toggle =>
      cases h
      obtain ⟨g, hg⟩ := hw
      cases hg
  | opening ph =>
    obtain ⟨pr, hs, rfl⟩ := ofPart_eq_some h
    cases pr with
    | done r => exact hw
    | more ph' =>
      cases OpenPhase.turn_of_step hs with
      | late | began => exact hb rfl
      | admitted | unconnected | read | asked | entered | admittedInside | own => exact hw
      | _ => exact ht trivial
  | closing ph =>
    obtain ⟨pr, hs, rfl⟩ := ofPart_eq_some h
    cases pr with
    | done r => exact hw
    | more ph' =>
      cases ClosePhase.turn_of_step hs with
      | entered =>
        have hover := hd.2
        rw [hlife] at hover
        cases hover
      | lowered | releasing | released | troubled => exact ht rfl
      | _ => cases hw
  | running x run =>
    obtain ⟨pr, -, rfl⟩ := ofPart_eq_some h
    cases pr <;> exact hw
  | toggling f enable edge run =>
    obtain ⟨pr, hs, rfl⟩ := ofPart_eq_some h
    cases pr with
    | done r => exact hw
    | more run' =>
      exact Toggling.idle_turn hl (fun g hg => ht ⟨g, hg⟩) (Run.turn_of_step hs) hw
  | ended r => cases h

namespace Dormant

theorem outside (h : k.Dormant) (i : Nat) : k.stance (.watcher i) ≠ .inside := by
  have hend := h.unwatched i
  rw [watcherEnded_eq] at hend
  simp only [stance]
  cases hq : k.posts[i]? with
  | none => simp
  | some q =>
    obtain ⟨s, ph⟩ := q
    rw [hq] at hend
    cases ph with
    | ended exit => simp [WatchPhase.stance]
    | _ => cases hend

theorem aside (h : k.Dormant) (ho : k.Orderly) (he : k.after e = some k') (hb : ¬ BeginsOpen (k, e)) :
    Aside k k' := by
  rcases after_cases he with ⟨i, rfl, hs⟩ | ⟨i, rfl, hs⟩ | hbg
  · obtain ⟨o, k₁, t, ht, hstep, rfl⟩ := stepTask_eq_some hs
    have hne : o.task ≠ .opening .begin := fun hp => hb ⟨i, o.token, rfl, ht.trans (by rw [← hp])⟩
    exact { Task.aside_of_idle (ho.due ht) (h.idle ht) hne hstep with }
  · exact aside_stepWatcher ho hs (h.outside i)
  · exact hbg.toAside

theorem after (h : k.Dormant) (ho : k.Orderly) (hlife : k.lifetimeOver = false) (he : k.after e = some k')
    (hb : ¬ BeginsOpen (k, e)) : k'.Dormant := by
  have ha := h.aside ho he hb
  refine ⟨ha.link.trans h.link, fun i => ha.ended i (h.unwatched i), h.quiet.touches ha.wire fun _ => id, ?_⟩
  intro i o hi
  rcases tasks_after ho he i with hs | ⟨-, token, r, hn⟩ | ⟨o', k₁, t, rfl, ht, hs, -, hn⟩
  · exact h.idle (hs.symm.trans hi)
  · rw [hn] at hi
    cases hi
    exact id
  · rw [hn] at hi
    cases hi
    have hne : o'.task ≠ .opening .begin := fun hp => hb ⟨i, o'.token, rfl, ht.trans (by rw [← hp])⟩
    exact Task.idle_step h.link hlife (ho.due ht) (h.idle ht) hne hs

end Dormant

/-! ## Runs -/

/-- Nothing happens to the connection: the link is lost, and nothing was reported or asked of the transport. -/
structure Rests (k k' : Kernel) : Prop where
  link : k'.link = .lost
  reports : k'.handler.wire.reports = k.handler.wire.reports
  control : k'.handler.wire.control = k.handler.wire.control
  sessions : k'.handler.wire.sessions.length = k.handler.wire.sessions.length

/-- As long as no open call begins its attempts and no close or drop begins, a dormant client rests. -/
theorem dormant_of_path (hr : k.Reachable) (h : k.Dormant) (hp : Path k l k')
    (hlife : ∀ x ∈ l, x.1.lifetimeOver = false) (hb : ∀ x ∈ l, ¬ BeginsOpen x) : k'.Dormant ∧ k.Rests k' := by
  induction hp with
  | refl => exact ⟨h, h.link, rfl, rfl, rfl⟩
  | @tail l k₁ k₂ e hp he ih =>
    obtain ⟨hd, hrest⟩ := ih (fun x hx => hlife x (List.mem_cons_of_mem _ hx))
      fun x hx => hb x (List.mem_cons_of_mem _ hx)
    have hr₁ := hp.reachable hr
    have ho := orderly_of_reachable hr₁
    have hl₁ := hlife _ List.mem_cons_self
    have hb₁ := hb _ List.mem_cons_self
    have hctl := ((hd.aside ho he hb₁).wire.control_eq (fun _ => id) hd.quiet.owned).2
    have hd₂ := hd.after ho hl₁ he hb₁
    have hrep := reports_of_idle ho hl₁ he (fun _ ht => hd.idle ht) fun _ => hd.outside _
    exact ⟨hd₂, hd₂.link, hrep.trans hrest.reports, hctl.trans hrest.control,
      ((chronicled_of_reachable hr₁).length_eq (chronicled_of_reachable (hr₁.after he)) hctl).trans
        hrest.sessions⟩

end HubDevice.Kernel
