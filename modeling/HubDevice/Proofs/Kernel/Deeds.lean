import HubDevice.Proofs.Kernel.Order

/-!
# What a happening does to the session slot

Whatever happens to a kernel, the session slot and the reported status change in few ways: a `Deed` is one
step of an opening or a closing, a use of the wire that leaves all sessions as they are, or something in the
background, and at most one status is reported with it (`Kernel.Does`). `does_after` says so of every
happening, so that what a deed keeps is proved once for each kind of deed and not for each phase of each
party.
-/

namespace HubDevice

open Wire

/-- No status is reported, and no session is connected or closed. -/
structure Wire.Scope.Plain (A : Scope) : Prop where
  statuses : ∀ st, ¬ A.statuses st
  connect : ∀ s c, ¬ A.calls (.connect s c)
  close : ∀ s, ¬ A.calls (.close s)

theorem plain_nothing : Scope.nothing.Plain := ⟨fun _ => id, fun _ _ => id, fun _ => id⟩

theorem plain_routine : Scope.routine.Plain := ⟨fun _ => id, fun _ _ => id, fun _ => id⟩

theorem plain_onChannel : Scope.onChannel.Plain := ⟨fun _ => id, fun _ _ => id, fun _ => id⟩

/-- What can be done to the session slot at once; `P` is what is known of an opening that takes a step. -/
inductive Handler.Deed (P : Opening → Prop) (h : Handler) : Handler → Prop where
  | uses {A : Scope} {h' : Handler} : A.Plain → Uses A h h' → Deed P h h'
  | opens {c : Bool} {o : Opening} {h' : Handler} {pr : Progress Opening (Except ClientError Unit)} :
      P o → o.step c h = some (h', pr) → Deed P h h'
  | closes {c : Closing} {h' : Handler} {pr : Progress Closing (Except ClientError Unit)} :
      c.step h = some (h', pr) → Deed P h h'
  | passes (now : Nat) : Deed P h { h with now }
  | refreshes {i : Nat} {h' : Handler} : h.stepRefresher i = some h' → Deed P h h'
  | discards : Deed P h h.stopRefresher

theorem Handler.Deed.idle {P : Opening → Prop} (h : Handler) : Deed P h h :=
  .uses plain_nothing (Uses.refl h)

theorem Handler.Deed.reports_eq {P : Opening → Prop} {h h' : Handler} (hd : h.Deed P h') :
    h'.wire.reports = h.wire.reports := by
  cases hd with
  | uses hA hu => exact hu.touches.reports_eq hA.statuses
  | opens _ ho => exact (Opening.touches_step ho).reports_eq fun _ => id
  | closes hc => exact (Closing.slot_step hc).1.reports_eq fun _ => id
  | passes => rfl
  | refreshes hs => exact (Handler.stepRefresher_slot hs).2.2.reports_eq fun _ => id
  | discards => rw [Handler.stopRefresher_wire]

namespace Kernel

open FairLock Retry

variable {P : Opening → Prop} {p : Party} {k k' : Kernel}

/-- A deed, and the status that is reported with it. -/
inductive Does (P : Opening → Prop) (k k' : Kernel) : Option Status → Prop where
  | silently : k.handler.Deed P k'.handler → k'.status = k.status → Does P k k' none
  | telling {handler : Handler} (st : Status) : k.handler.Deed P handler →
      k'.handler = { handler with wire := handler.wire.record (.reported st) } →
      k'.status = k.status.set st → Does P k k' (some st)

/-- Only the session slot and the status count. -/
theorem Does.of_eq {st : Option Status} {k₁ : Kernel} (h : Does P k k₁ st) (hh : k'.handler = k₁.handler)
    (hs : k'.status = k₁.status) : Does P k k' st := by
  cases h with
  | silently hd hst => exact .silently (hh.symm ▸ hd) (hs.trans hst)
  | telling st hd hw hst => exact .telling st hd (hh.trans hw) (hs.trans hst)

theorem does_nothing (hh : k'.handler = k.handler) (hs : k'.status = k.status) : Does P k k' none :=
  .silently (hh ▸ .idle _) hs

theorem does_report (k : Kernel) (state : ConnectionState) (reason : StatusReason) :
    Does P k (k.report state reason) (some ⟨state, reason⟩) := .telling _ (.idle _) rfl rfl

theorem does_uses {A : Scope} (hA : A.Plain) {handler : Handler} (hu : Handler.Uses A k.handler handler) :
    Does P k { k with handler } none := .silently (.uses hA hu) rfl

/-! ## Operations -/

theorem Admission.does_nothing {a : Admission} {pr : Progress Admission (Except ClientError Unit)}
    (h : a.Turn p k k' pr) : Does P k k' none := by
  cases h <;> exact Kernel.does_nothing rfl rfl

theorem Admission.does_abandon (a : Admission) : Does P k (a.abandon p k) none := by
  cases a <;> exact Kernel.does_nothing rfl rfl

theorem Guarded.does_turn {x : Exchange} {c : Bool} {r : Run Guarded}
    {pr : Progress (Run Guarded) (Except ClientError Reply)} (h : Run.Turn (guarded x p) c k r k' pr) :
    Does P k k' none := by
  have stepped : ∀ {a : Guarded} {k' pr}, a.step x p k = some (k', pr) → Does P k k' none := by
    intro a k' pr hs
    cases Guarded.turn_of_step hs with
    | admitting ht | admitted ht | refused ht => exact Admission.does_nothing ht
    | calling hf | returned hf => exact does_uses plain_routine (Forward.uses_step hf)
  cases h with
  | @cancelledActing a =>
    cases a with
    | admission a => exact a.does_abandon
    | calling f => exact does_uses plain_nothing (f.uses_abandon k.handler)
  | cancelledPausing | resumed => exact Kernel.does_nothing rfl rfl
  | advanced _ hs | succeeded _ _ hs | failed _ hs | retried _ hs => exact stepped hs

theorem Toggling.does_turn {f : Feature} {enable edge c : Bool} {r : Run Toggling}
    {pr : Progress (Run Toggling) (Except ClientError Reply)}
    (h : Run.Turn (Kernel.toggling f enable edge p) c k r k' pr) : Does P k k' none := by
  have stepped : ∀ {a : Toggling} {k' pr}, a.step f enable edge p k = some (k', pr) → Does P k k' none := by
    intro a k' pr hs
    cases Toggling.turn_of_step hs with
    | admitting ht | admitted ht | refused ht => exact Admission.does_nothing ht
    | calling hg | changed hg | failed hg =>
      exact .silently (.uses plain_onChannel (Subscribing.uses_step hg)) rfl
    | _ => exact Kernel.does_nothing rfl rfl
  cases h with
  | @cancelledActing a =>
    cases a with
    | admission a => exact a.does_abandon
    | calling g => exact .silently (.uses plain_nothing (g.uses_abandon k.handler)) rfl
    | _ => exact Kernel.does_nothing rfl rfl
  | cancelledPausing | resumed => exact Kernel.does_nothing rfl rfl
  | advanced _ hs | succeeded _ _ hs | failed _ hs | retried _ hs => exact stepped hs

/-! ## Attempts -/

theorem Recovery.deed_step {fs : Features} {c : Bool} {h h' : Handler} {a : Recovery}
    {pr : Progress Recovery (Except ClientError Unit)} (hP : ∀ o, a = .opening o → P o)
    (hs : a.step fs c h = some (h', pr)) : h.Deed P h' := by
  cases turn_of_step hs with
  | opening ho | opened ho | unopened ho => exact .opens (hP _ rfl) ho
  | replayed he => exact .uses plain_onChannel (uses_stepFirst he)
  | refused he => exact .uses plain_onChannel ((uses_stepFirst he).trans (uses_abandonAll _ _))

theorem does_of_turn {fs : Features} {c c' : Bool} {granted : Kernel → ClientError → Kernel} {r : Run Recovery}
    {q : Progress (Run Recovery) (Except ClientError Unit)}
    (hP : ∀ o, r.phase = .acting (.opening o) → P o)
    (hg : ∀ k e, granted k e = k ∨ ∃ st : Status, granted k e = k.report st.state st.reason)
    (h : Run.Turn (recovery fs c granted) c' k r k' q) : ∃ st, Does P k k' st := by
  have stepped : ∀ {a k₁ pr}, r.phase = .acting a → (recovery fs c granted).step k a = some (k₁, pr) →
      k.handler.Deed P k₁.handler ∧ k₁.status = k.status := by
    intro a k₁ pr hp hs
    obtain ⟨_, he, rfl⟩ := liftHandler_eq_some hs
    exact ⟨Recovery.deed_step (fun o ha => hP o (ha ▸ hp)) he, rfl⟩
  cases h with
  | @cancelledActing a => exact ⟨none, does_uses plain_nothing (a.uses_abandon k.handler)⟩
  | cancelledPausing | resumed => exact ⟨none, does_nothing rfl rfl⟩
  | advanced hp hs | succeeded _ hp hs | failed hp hs =>
    obtain ⟨hd, hst⟩ := stepped hp hs
    exact ⟨none, .silently hd hst⟩
  | @retried _ e k₁ delay hp hs =>
    obtain ⟨hd, hst⟩ := stepped hp hs
    have hk : (recovery fs c granted).granted k₁ e r.attempt delay = granted k₁ e := rfl
    rw [hk]
    rcases hg k₁ e with he | ⟨st, he⟩ <;> rw [he]
    · exact ⟨none, .silently hd hst⟩
    · exact ⟨some st, .telling st hd rfl (congrArg (·.set st) hst)⟩

/-! ## Phases -/

theorem OpenPhase.does {token : Nat} {ph : OpenPhase} {pr : Progress OpenPhase (Except ClientError Unit)}
    (hP : ∀ run o, ph = .working run → run.phase = .acting (.opening o) → P o)
    (h : ph.step token p k = some (k', pr)) : ∃ st, Does P k k' st := by
  cases turn_of_step h with
  | @overtaken run =>
    refine ⟨none, ?_⟩
    unfold Run.abandon
    split
    · rename_i a _
      exact does_uses plain_nothing (a.uses_abandon k.handler)
    · exact does_nothing rfl rfl
  | worked _ ht => exact does_of_turn (fun o => hP _ o rfl) (fun k e => .inr ⟨statusOf k.policy e false, rfl⟩) ht
  | reportedUp | reportedDown => exact ⟨_, does_report k _ _⟩
  | _ => exact ⟨none, does_nothing rfl rfl⟩

theorem ClosePhase.does {ph : ClosePhase} {pr : Progress ClosePhase (Except ClientError Unit)}
    (h : ph.step p k = some (k', pr)) : ∃ st, Does P k k' st := by
  cases turn_of_step h with
  | releasing hc | released hc | troubled hc => exact ⟨none, .silently (.closes hc) rfl⟩
  | reportedTrouble | reportedClosed => exact ⟨_, does_report k _ _⟩
  | dismissed =>
    refine ⟨none, ?_⟩
    unfold dismissWatcher
    split <;> exact does_nothing rfl rfl
  | _ => exact ⟨none, does_nothing rfl rfl⟩

theorem WatchPhase.does {w : Watcher} {ph ph' : WatchPhase}
    (hP : ∀ run o, ph = .recovering run → run.phase = .acting (.opening o) → P o)
    (h : ph.step p k w = some (k', ph')) : ∃ st, Does P k k' st := by
  cases turn_of_step h with
  | expired | reportedUp => exact ⟨_, .telling _ (.idle _) rfl rfl⟩
  | announced | paused => exact ⟨_, does_report k _ _⟩
  | @reportedDown e => exact ⟨_, .telling (statusOf k.policy e true) (.idle _) rfl rfl⟩
  | worked ht hq =>
    obtain ⟨st, hst⟩ := does_of_turn (fun o => hP _ o rfl) (fun _ _ => .inl rfl) ht
    cases hq with
    | goesOn | restored => exact ⟨st, hst⟩
    | stopped | failed => exact ⟨st, hst.of_eq rfl rfl⟩
  | _ => exact ⟨none, does_nothing rfl rfl⟩

theorem Task.does {token : Nat} {t t' : Task}
    (hP : ∀ run o, t = .opening (.working run) → run.phase = .acting (.opening o) → P o)
    (h : t.step token p k = some (k', t')) : ∃ st, Does P k k' st := by
  cases t with
  | ready request => cases request <;> cases h <;> exact ⟨none, does_nothing rfl rfl⟩
  | opening ph =>
    obtain ⟨_, hs, -⟩ := ofPart_eq_some h
    exact OpenPhase.does (fun run o hp => hP run o (hp ▸ rfl)) hs
  | closing ph =>
    obtain ⟨_, hs, -⟩ := ofPart_eq_some h
    exact ClosePhase.does hs
  | running x run =>
    obtain ⟨_, hs, -⟩ := ofPart_eq_some h
    exact ⟨none, Guarded.does_turn (Run.turn_of_step hs)⟩
  | toggling f enable edge run =>
    obtain ⟨_, hs, -⟩ := ofPart_eq_some h
    exact ⟨none, Toggling.does_turn (Run.turn_of_step hs)⟩
  | ended result => cases h

/-! ## All happenings -/

/-- A party is at work on an opening. -/
def Brings (k : Kernel) (o : Opening) : Prop :=
  ∃ run : Run Recovery, run.phase = .acting (.opening o) ∧
    ((∃ i token : Nat, k.tasks[i]? = some ⟨token, .opening (.working run)⟩) ∨
      ∃ (i : Nat) (w : Watcher), k.watchers[i]? = some w ∧ w.phase = .recovering run)

theorem does_after {e : Happening} (he : k.after e = some k') : ∃ st, Does k.Brings k k' st := by
  cases e with
  | stepTask i =>
    obtain ⟨⟨token, t⟩, k₁, t', ht, hstep, rfl⟩ := stepTask_eq_some he
    obtain ⟨st, hst⟩ : ∃ st, Does k.Brings k k₁ st := by
      refine Task.does (fun run o htask hp => ⟨run, hp, .inl ⟨i, token, ?_⟩⟩) hstep
      rw [ht, show t = _ from htask]
    exact ⟨st, hst.of_eq rfl rfl⟩
  | stepWatcher i =>
    obtain ⟨w, k₁, ph, hw, hstep, rfl⟩ := stepWatcher_eq_some he
    obtain ⟨st, hst⟩ : ∃ st, Does k.Brings k k₁ st :=
      WatchPhase.does (fun run o hph hp => ⟨run, hp, .inr ⟨i, w, hw, hph⟩⟩) hstep
    exact ⟨st, hst.of_eq rfl rfl⟩
  | stepRefresher i =>
    obtain ⟨handler, hs, rfl⟩ := Option.map_eq_some_iff.mp he
    exact ⟨none, .silently (.refreshes hs) rfl⟩
  | start | fire | setPolicy =>
    cases he
    exact ⟨none, does_nothing rfl rfl⟩
  | answer call o =>
    cases he
    exact ⟨none, does_uses plain_nothing ⟨_, rfl, (Touch.answered call o).touches⟩⟩
  | endSession s cause =>
    cases he
    exact ⟨none, does_uses plain_nothing ⟨_, rfl, (Touch.ended s cause).touches⟩⟩
  | pass ms =>
    cases he
    exact ⟨none, .silently (.passes _) rfl⟩
  | drop =>
    cases he
    refine ⟨none, ?_⟩
    unfold drop dismissWatcher
    split <;> exact does_nothing rfl rfl
  | discard =>
    simp only [after] at he
    split at he <;> cases he
    exact ⟨none, .silently .discards rfl⟩

end Kernel

end HubDevice
