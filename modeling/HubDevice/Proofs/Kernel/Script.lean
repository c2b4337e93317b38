import HubDevice.Proofs.Kernel.Attempts
import Mathlib.Algebra.GroupWithZero.Nat

/-!
# Attempts that go by a script

Whatever a script says of the attempts of a party, there is a transport that makes them go that way: it fails
an attempt by refusing to create a session (`Recovery.fails`), and lets one succeed by granting every call
(`Recovery.succeeds`). A whole series of failures that are granted a retry takes exactly as long as the delays
between the attempts (`path_of_failures`).
-/

namespace HubDevice.Kernel

open FairLock Retry Wire

/-! ## One attempt and its transport -/

namespace Recovery

variable {fs : Features} {h h' h'' : Handler} {a a' : Recovery}

/-- The transport answers calls, and an attempt goes on. -/
inductive Moves (fs : Features) (h : Handler) (a : Recovery) : Handler → Recovery → Prop where
  | refl : Moves fs h a h a
  | answered {h' : Handler} {a' : Recovery} (call : CallId) (o : Outcome) : Moves fs h a h' a' →
      Moves fs h a { h' with wire := h'.wire.answer call o } a'
  | stepped {h' h'' : Handler} {a' a'' : Recovery} : Moves fs h a h' a' →
      a'.step fs false h' = some (h'', .more a'') → Moves fs h a h'' a''

theorem Moves.trans (h₁ : Moves fs h a h' a') {h'' : Handler} {a'' : Recovery} (h₂ : Moves fs h' a' h'' a'') :
    Moves fs h a h'' a'' := by
  induction h₂ with
  | refl => exact h₁
  | answered call o _ ih => exact ih.answered call o
  | stepped _ hs ih => exact ih.stepped hs

/-- An attempt can be made to end in a way. -/
def CanEnd (fs : Features) (h : Handler) (a : Recovery) (r : Except ClientError Unit) : Prop :=
  ∃ h' a' h'', Moves fs h a h' a' ∧ a'.step fs false h' = some (h'', .done r)

theorem Moves.canEnd {r : Except ClientError Unit} (h₁ : Moves fs h a h' a') (h₂ : CanEnd fs h' a' r) :
    CanEnd fs h a r := by
  obtain ⟨h₃, a₃, h₄, hm, hs⟩ := h₂
  exact ⟨h₃, a₃, h₄, h₁.trans hm, hs⟩

/-- An attempt that has just made a call gets any answer to it. -/
theorem Moves.called {r : HubDevice.Request} (hm : Moves fs h a (h'.call r).1 a') (hn : h'.wire.Numbered)
    (o : Outcome) :
    ∃ h₁ w, Moves fs h a h₁ a' ∧ w.Numbered ∧
      h₁.take? h'.wire.issued = some ({ h' with wire := w }, (h'.wire.call r).1.bring r o) := by
  obtain ⟨w, hw⟩ := Wire.take?_answer_call hn r o
  refine ⟨_, w, hm.answered h'.wire.issued o, ?_, congrArg (Option.map _) hw⟩
  obtain ⟨rfl, -⟩ := Wire.take?_eq_some hw
  have hnum : (h'.wire.call r).1.Numbered := (Touch.called (A := { calls := fun _ => True }) trivial).numbered hn
  intro c hc
  obtain ⟨hc, -⟩ := mem_calls_abandon.mp hc
  exact (Touch.answered (A := .nothing) h'.wire.issued o).numbered hnum c hc

/-- Every attempt comes to ask for a session. -/
theorem asks (fs : Features) (hn : h.wire.Numbered) :
    ∃ h' : Handler, h'.wire.Numbered ∧
      Moves fs h (.opening .start) (h'.call .create).1 (.opening (.creating h'.wire.issued)) := by
  have hn' : h.stopRefresher.wire.Numbered := by
    rw [Handler.stopRefresher_wire]
    exact hn
  cases hs : h.stopRefresher.slot with
  | none =>
    refine ⟨h.stopRefresher, hn', Moves.refl.stepped ?_⟩
    simp [step, Opening.step, hs, Opening.create_eq, Handler.call_id]
  | some s =>
    let h₁ : Handler := { h.stopRefresher with slot := none }
    have hm : Moves fs h (.opening .start) (h₁.call (.close s)).1 (.opening (.discarding h₁.wire.issued)) := by
      refine Moves.refl.stepped ?_
      simp [step, Opening.step, hs, Handler.call_id, h₁]
    obtain ⟨h₂, w, hm, hw, ht⟩ := hm.called hn' (.ok .done)
    refine ⟨{ h₁ with wire := w }, hw, hm.stepped ?_⟩
    simp [step, Opening.step, ht, Opening.create_eq, Handler.call_id]

/-- The transport refuses to create a session. -/
theorem fails (fs : Features) (hn : h.wire.Numbered) (t : TransportError) :
    CanEnd fs h (.opening .start) (.error (.transport t)) := by
  obtain ⟨h₁, hn₁, hm⟩ := asks fs hn
  obtain ⟨h₂, w, hm, -, ht⟩ := hm.called hn₁ (.error t)
  have ht : h₂.take? h₁.wire.issued = some ({ h₁ with wire := w }, .error t) := ht
  exact ⟨h₂, _, { h₁ with wire := w }, hm, by simp [step, Opening.step, ht]⟩

theorem stepFirst_none (h : Handler) (m : Nat) (ps : List (Option Subscribing)) :
    stepFirst h (List.replicate m none ++ ps) =
      (stepFirst h ps).map fun r => { r with pending := List.replicate m none ++ r.pending } := by
  induction m with
  | zero => cases hs : stepFirst h ps <;> simp [hs]
  | succ m ih =>
    rw [List.replicate_succ, List.cons_append, stepFirst, ih]
    cases stepFirst h ps <;> rfl

/-- The transport opens the first channel that is still to be opened. -/
theorem serves (fs : Features) (m : Nat) (c : Channel) (rest : List (Option Subscribing)) {s : SessionId}
    (hn : h.wire.Numbered) (hs : h.slot = some s) :
    ∃ h₁ a₁ w, Moves fs h (.replaying (List.replicate m none ++ some (.start true c) :: rest)) h₁ a₁ ∧
      w.Numbered ∧
      a₁.step fs false h₁ = some ({ h with wire := w }, settle (List.replicate m none ++ none :: rest)) := by
  have hm : Moves fs h (.replaying (List.replicate m none ++ some (.start true c) :: rest))
      (h.call (.subscribe s c)).1 (.replaying (List.replicate m none ++ some (.waiting h.wire.issued) :: rest)) := by
    refine Moves.refl.stepped ?_
    have hf : stepFirst h (some (.start true c) :: rest) =
        some { handler := (h.call (.subscribe s c)).1, pending := some (.waiting h.wire.issued) :: rest } := by
      simp [stepFirst, Subscribing.step, Subscribing.request, Handler.current, hs, Handler.call_id]
    simp [step, stepFirst_none, hf, settle]
  obtain ⟨h₁, w, hm, hw, ht⟩ := hm.called hn (.ok .done)
  have ht : h₁.take? h.wire.issued = some ({ h with wire := w }, .ok .done) := ht
  refine ⟨h₁, _, w, hm, hw, ?_⟩
  have hf : stepFirst h₁ (some (.waiting h.wire.issued) :: rest) =
      some { handler := { h with wire := w }, pending := none :: rest } := by
    simp [stepFirst, Subscribing.step, ht]
  simp [step, stepFirst_none, hf]

/-- The transport opens the channels that are still to be opened, one after the other. -/
theorem replayed {s : SessionId} {m : Nat} {c : Channel} {cs : List Channel} (hn : h.wire.Numbered)
    (hs : h.slot = some s) :
    CanEnd fs h (.replaying (List.replicate m none ++ (c :: cs).map fun c => some (.start true c))) (.ok ()) := by
  induction cs generalizing h m c with
  | nil =>
    obtain ⟨h₁, a₁, w, hm, -, hstep⟩ := serves fs m c [] hn hs
    exact ⟨h₁, a₁, { h with wire := w }, hm, hstep.trans (by simp [settle])⟩
  | cons c' cs ih =>
    obtain ⟨h₁, a₁, w, hm, hw, hstep⟩ := serves fs m c
      ((c' :: cs).map fun c => some (.start true c)) hn hs
    have hmore : settle (List.replicate m none ++ none :: (c' :: cs).map fun c => some (.start true c)) =
        .more (.replaying (List.replicate (m + 1) none ++ (c' :: cs).map fun c => some (.start true c))) := by
      rw [List.replicate_succ', List.append_assoc]
      simp [settle]
    exact (hm.stepped (hstep.trans (by rw [hmore]))).canEnd (ih (h := { h with wire := w }) hw hs)

/-- The transport grants every call of an attempt. -/
theorem succeeds (fs : Features) (hn : h.wire.Numbered) : CanEnd fs h (.opening .start) (.ok ()) := by
  obtain ⟨h₁, hn₁, hm⟩ := asks fs hn
  obtain ⟨h₂, w, hm, hn₂, ht⟩ := hm.called hn₁ (.ok .done)
  let s : SessionId := (h₁.wire.call .create).1.sessions.length
  let h₃ : Handler := { h₁ with wire := w }
  have ht : h₂.take? h₁.wire.issued = some (h₃, .ok (.session s)) := ht
  have hm : Moves fs h (.opening .start) (h₃.call (.connect s false)).1
      (.opening (.connecting s h₃.wire.issued)) := by
    refine hm.stepped ?_
    simp [step, Opening.step, ht, Handler.call_id]
  obtain ⟨h₄, w', hm, hn₄, ht⟩ := hm.called hn₂ (.ok .done)
  have ht : h₄.take? h₃.wire.issued = some ({ h₃ with wire := w' }, .ok .done) := ht
  let h₅ : Handler := ({ h₃ with wire := w', slot := some s } : Handler).startRefresher s
  have hstep : (Recovery.opening (.connecting s h₃.wire.issued)).step fs false h₄ =
      some (h₅, settle (replay fs)) := by
    simp [step, Opening.step, ht, h₅]
  have hslot : h₅.slot = some s := Handler.startRefresher_slot _ _
  have hn₅ : h₅.wire.Numbered := by
    have hw := Handler.startRefresher_wire { h₃ with wire := w', slot := some s } s
    rw [show h₅.wire = w' from hw]
    exact hn₄
  cases hc : fs.channels with
  | nil => exact ⟨h₄, _, h₅, hm, hstep.trans (by simp [settle, replay, hc])⟩
  | cons c cs =>
    have hmore : settle (replay fs) = .more (.replaying (replay fs)) := by simp [settle, replay, hc]
    have hreplay : replay fs = List.replicate 0 none ++ (c :: cs).map fun c => some (.start true c) := by
      simp [replay, hc]
    exact (hm.stepped (hstep.trans (by rw [hmore]))).canEnd (hreplay ▸ replayed hn₅ hslot)

/-- The transport makes an attempt end as it likes. -/
theorem canEnd (fs : Features) (hn : h.wire.Numbered) (o : Except TransportError Unit) :
    CanEnd fs h (.opening .start) (o.mapError .transport) := by
  cases o with
  | ok v => exact succeeds fs hn
  | error t => exact fails fs hn t

theorem Moves.now (hm : Moves fs h a h' a') : h'.now = h.now := by
  induction hm with
  | refl => rfl
  | answered _ _ _ ih => exact ih
  | stepped _ hs ih => exact (now_step hs).trans ih

end Recovery

/-! ## A party and its transport -/

variable {C D : Kernel → Prop} {p : Party} {P : Policy} {k k₁ k' k'' : Kernel} {l l' : List (Kernel × Happening)}
  {run run' : Run Recovery} {x : Action Kernel Recovery Unit} {n : Nat}

/-- A run that meets only kernels of a kind. -/
structure PathIn (C : Kernel → Prop) (k : Kernel) (l : List (Kernel × Happening)) (k' : Kernel) : Prop where
  path : Path k l k'
  visited : ∀ x ∈ l, C x.1

theorem PathIn.refl (C : Kernel → Prop) (k : Kernel) : PathIn C k [] k := ⟨.refl, by simp⟩

theorem PathIn.tail (h : PathIn C k l k') (hC : C k') {e : Happening} (he : k'.after e = some k'') :
    PathIn C k ((k', e) :: l) k'' where
  path := h.path.tail e he
  visited x hx := by
    rcases List.mem_cons.mp hx with rfl | hx
    · exact hC
    · exact h.visited x hx

theorem PathIn.trans (h : PathIn C k l k') (h' : PathIn C k' l' k'') : PathIn C k (l' ++ l) k'' where
  path := h.path.trans h'.path
  visited x hx := (List.mem_append.mp hx).elim (h'.visited x) (h.visited x)

theorem PathIn.mono (h : PathIn C k l k') (hCD : ∀ k, C k → D k) : PathIn D k l k' :=
  ⟨h.path, fun x hx => hCD _ (h.visited x hx)⟩

theorem PathIn.mono_of_reachable (h : PathIn C k l k') (hr : k.Reachable)
    (hCD : ∀ k, k.Reachable → C k → D k) : PathIn D k l k' :=
  ⟨h.path, fun x hx => hCD _ (h.path.reachable_of_mem hr hx) (h.visited x hx)⟩

/-- Policy, tokens and features are the same, and so is whether everything has to stop. -/
structure Alike (k k' : Kernel) : Prop where
  policy : k'.policy = k.policy
  features : k'.features = k.features
  disposed : k'.disposed = k.disposed
  lifetimeOver : k'.lifetimeOver = k.lifetimeOver
  fired : k'.fired = k.fired

theorem Alike.refl (k : Kernel) : Alike k k := ⟨rfl, rfl, rfl, rfl, rfl⟩

theorem Alike.trans (h : Alike k k') (h' : Alike k' k'') : Alike k k'' where
  policy := h'.policy.trans h.policy
  features := h'.features.trans h.features
  disposed := h'.disposed.trans h.disposed
  lifetimeOver := h'.lifetimeOver.trans h.lifetimeOver
  fired := h'.fired.trans h.fired

/-- A party is at work on a run of attempts that need not stop. -/
def Pursuing (k : Kernel) (p : Party) (run : Run Recovery) : Prop := ∃ x, k.working? p = some (run, x, false)

theorem action_of_working (h : k.working? p = some (run, x, false)) :
    ∃ granted, x = recovery k.features false granted ∧ ∀ k e, Relays openScope k (granted k e) ∧
      (granted k e).handler.now = k.handler.now := by
  rcases working?_cases h with ⟨i, token, rfl, -, -, hf, rfl⟩ | ⟨i, w, rfl, -, -, hst, rfl⟩
  · refine ⟨fun k e => k.reportFailure e false, ?_, fun k e => ⟨relays_granted k e, rfl⟩⟩
    rw [openAction, hf]
  · refine ⟨fun k _ => k, ?_, fun k e => ⟨Relays.refl k, rfl⟩⟩
    rw [watcherAction, hst]

theorem pursuing_of_task {i token : Nat} (ht : k.tasks[i]? = some ⟨token, .opening (.working run)⟩)
    (hl : k.lifetimeOver = false) (hf : k.tokenFired token = false) : k.Pursuing (.task i) run :=
  ⟨_, working?_of_task ht hl hf⟩

theorem pursuing_of_watcher {i : Nat} {w : Watcher} (hw : k.watchers[i]? = some w)
    (hp : w.phase = .recovering run) (hst : k.watcherStopped w = false) : k.Pursuing (.watcher i) run :=
  ⟨_, working?_of_watcher hw hp hst⟩

/-- A run that goes on is what the party is at work on next. -/
theorem stepped_of_working (h : k.working? p = some (run, x, false))
    (hs : run.step x false k = some (k₁, .more run')) :
    ∃ k', k.after p.step = some k' ∧ k'.Pursuing p run' ∧ k'.handler = k₁.handler ∧ Alike k k' := by
  obtain ⟨granted, hx, hg⟩ := action_of_working h
  have hrel : k.Relays openScope k₁ := by
    subst hx
    exact relays_of_turn recovery_le_open (fun k e => (hg k e).1) (Run.turn_of_step hs)
  obtain ⟨handler, status, rfl, -⟩ := hrel
  rcases working?_cases h with ⟨i, token, rfl, ht, hl, hf, rfl⟩ | ⟨i, w, rfl, hw, hp, hst, rfl⟩
  · have hstep : Task.step token (.task i) k (.opening (.working run)) =
        some ({ k with handler, status }, .opening (.working run')) := by
      simp [Task.step, ofPart, OpenPhase.step, hl, hf, hs]
    refine ⟨_, stepTask_of_step ht hstep, pursuing_of_task ?_ hl hf, rfl, ⟨rfl, rfl, rfl, rfl, rfl⟩⟩
    exact List.getElem?_set_self (List.getElem?_eq_some_iff.mp ht).1
  · have hstep : w.phase.step (.watcher i) k w = some ({ k with handler, status }, .recovering run') := by
      simp [hp, WatchPhase.step, hst, hs]
    have hw' := getElem?_watchers_setPhase (k := { k with handler, status }) hw (.recovering run')
    exact ⟨_, stepWatcher_of_step hw hstep, pursuing_of_watcher hw' rfl hst, rfl, ⟨rfl, rfl, rfl, rfl, rfl⟩⟩

/-! ## A script -/

/-- Nothing has interfered since a kernel, and the party is at work. -/
def Undisturbed (p : Party) (k k' : Kernel) : Prop := Alike k k' ∧ ∃ run, k'.Pursuing p run

theorem Undisturbed.trans (h : Alike k k') (h' : Undisturbed p k' k'') : Undisturbed p k k'' :=
  ⟨h.trans h'.1, h'.2⟩

theorem Pursuing.answer (h : k.Pursuing p run) (call : CallId) (o : Outcome) :
    (k.answer call o).Pursuing p run := by
  obtain ⟨x, hx⟩ := h
  exact ⟨x, hx⟩

theorem Pursuing.setTime (h : k.Pursuing p run) (now : Nat) : (k.setTime now).Pursuing p run := by
  obtain ⟨x, hx⟩ := h
  exact ⟨x, hx⟩

theorem outcomes_append (ms ms' : List Mark) : outcomes (ms ++ ms') = outcomes ms ++ outcomes ms' :=
  List.filterMap_append

theorem mark?_answer (call : CallId) (o : Outcome) : mark? p (k, .answer call o) = none :=
  mark?_of_ne (by simp [Happening.party?])

/-- While an attempt goes on, the transport leads the party to where it leads the attempt. -/
theorem path_of_moves {h' : Handler} {a a' : Recovery} (hm : Recovery.Moves k.features k.handler a h' a')
    (hk : k.Pursuing p ⟨P, n, .acting a⟩) :
    ∃ l k', PathIn (Undisturbed p k) k l k' ∧ k'.Pursuing p ⟨P, n, .acting a'⟩ ∧ k'.handler = h' ∧ Alike k k' ∧
      outcomes (marks p l) = [] := by
  induction hm with
  | refl => exact ⟨[], k, .refl _ k, hk, rfl, .refl k, rfl⟩
  | answered call o _ ih =>
    obtain ⟨l, k', hp, hk', rfl, hal, ho⟩ := ih
    have he : k'.after (.answer call o) = some (k'.answer call o) := rfl
    refine ⟨_, _, hp.tail ⟨hal, _, hk'⟩ he, hk'.answer call o, rfl, hal.trans ⟨rfl, rfl, rfl, rfl, rfl⟩, ?_⟩
    rw [marks_cons, mark?_answer]
    exact ho
  | @stepped h' h'' a' a'' _ hs ih =>
    obtain ⟨l, k', hp, ⟨x, hx⟩, rfl, hal, ho⟩ := ih
    obtain ⟨granted, hxe, -⟩ := action_of_working hx
    have hact : x.step k' a' = some ({ k' with handler := h'' }, .more a'') := by
      subst hxe
      simp [recovery, liftHandler, hal.features, hs]
    have hrun : Run.step x false k' ⟨P, n, .acting a'⟩ =
        some ({ k' with handler := h'' }, .more ⟨P, n, .acting a''⟩) := by
      simp [Run.step, hact]
    obtain ⟨k₁, he, hk₁, hh, hal'⟩ := stepped_of_working hx hrun
    refine ⟨_, k₁, hp.tail ⟨hal, _, x, hx⟩ he, hk₁, hh, hal.trans hal', ?_⟩
    rw [marks_cons, outcomes_append, ho, mark?_of_working hx]
    simp only [Run.mark?, hact]
    cases a'.isStart <;> rfl

theorem mark?_of_end {a : Recovery} {o : Except ClientError Unit}
    (h : k.working? p = some (⟨P, n, .acting a⟩, x, false)) (hs : x.step k a = some (k', .done o)) :
    mark? p (k, p.step) = some (.ended (x.now k) o) := by
  rw [mark?_of_working h]
  simp [Run.mark?, hs]

/-- The transport leads an attempt of the party to its end: the next step of the party ends it. -/
theorem path_of_attempt (hr : k.Reachable) (o : Except TransportError Unit)
    (hk : k.Pursuing p ⟨P, n, .acting (.opening .start)⟩) :
    ∃ l k' x a h, PathIn (Undisturbed p k) k l k' ∧ k'.working? p = some (⟨P, n, .acting a⟩, x, false) ∧
      x.step k' a = some ({ k' with handler := h }, .done (o.mapError .transport)) ∧
      h.now = k.handler.now ∧ Alike k k' ∧ outcomes (marks p l) = [] := by
  obtain ⟨h₁, a, h, hm, hs⟩ := Recovery.canEnd k.features (orderly_of_reachable hr).numbered o
  obtain ⟨l, k', hp, ⟨x, hx⟩, rfl, hal, ho⟩ := path_of_moves hm hk
  obtain ⟨granted, hxe, -⟩ := action_of_working hx
  refine ⟨l, k', x, a, h, hp, hx, ?_, (Recovery.now_step hs).trans hm.now, hal, ho⟩
  subst hxe
  simp [recovery, liftHandler, hal.features, hs]

/-- A party that waits for a time begins the next attempt as soon as it has come. -/
theorem path_of_pausing {t : Nat} (hk : k.Pursuing p ⟨P, n, .pausing (k.handler.now + t)⟩) :
    ∃ l k', PathIn (Undisturbed p k) k l k' ∧ k'.Pursuing p ⟨P, n, .acting (.opening .start)⟩ ∧
      k'.handler.now = k.handler.now + t ∧ Alike k k' ∧ outcomes (marks p l) = [] := by
  have hpass : k.after (.pass t) = some (k.setTime (k.handler.now + t)) := rfl
  obtain ⟨x, hx⟩ := hk.setTime (k.handler.now + t)
  obtain ⟨granted, hxe, -⟩ := action_of_working hx
  have hrun : Run.step x false (k.setTime (k.handler.now + t)) ⟨P, n, .pausing (k.handler.now + t)⟩ =
      some (k.setTime (k.handler.now + t), .more ⟨P, n, .acting (.opening .start)⟩) := by
    subst hxe
    simp [Run.step, recovery, setTime]
  obtain ⟨k₂, he, hk₂, hh, hal⟩ := stepped_of_working hx hrun
  have hal₁ : Alike k (k.setTime (k.handler.now + t)) := ⟨rfl, rfl, rfl, rfl, rfl⟩
  refine ⟨_, k₂, ((PathIn.refl _ k).tail ⟨.refl k, _, hk⟩ hpass).tail ⟨hal₁, _, x, hx⟩ he, hk₂, ?_,
    hal₁.trans hal, ?_⟩
  · rw [hh]
    rfl
  · rw [marks_cons, mark?_of_working hx]
    rfl

/-- A party that was granted a retry begins the next attempt as soon as the delay is over. -/
theorem path_of_awaiting {d : Span} (hk : k.Pursuing p ⟨P, n, Run.awaiting x k₁ d⟩)
    (hx : x.start = .opening .start ∧ x.now k₁ = k.handler.now) :
    ∃ l k', PathIn (Undisturbed p k) k l k' ∧ k'.Pursuing p ⟨P, n, .acting (.opening .start)⟩ ∧
      k'.handler.now = d.deadline k.handler.now ∧ Alike k k' ∧ outcomes (marks p l) = [] := by
  unfold Run.awaiting at hk
  rw [hx.1, hx.2] at hk
  split at hk
  · rename_i hz
    exact ⟨[], k, .refl _ k, hk, (d.deadline_of_isZero hz _).symm, .refl k, rfl⟩
  · obtain ⟨t, ht⟩ := Nat.exists_eq_add_of_le (d.le_deadline k.handler.now)
    rw [ht] at hk ⊢
    exact path_of_pausing hk

/-- A failure that is granted a retry is followed by the next attempt as soon as the delay is over. -/
theorem path_of_retry (hr : k.Reachable) {t : TransportError} {d : Span}
    (hk : k.Pursuing p ⟨P, n, .acting (.opening .start)⟩) (ht : P.transient (.transport t) = true)
    (hd : P.decide n (.transport t) = .retry d) :
    ∃ l k', PathIn (Undisturbed p k) k l k' ∧ k'.Pursuing p ⟨P, nextAttempt n, .acting (.opening .start)⟩ ∧
      k'.handler.now = d.deadline k.handler.now ∧ Alike k k' ∧
      outcomes (marks p l) = [.error (.transport t)] := by
  obtain ⟨l, k₁, x, a, h, hp, hx, hact, hnow, hal, ho⟩ := path_of_attempt hr (.error t) hk
  have hact : x.step k₁ a = some ({ k₁ with handler := h }, .done (.error (.transport t))) := hact
  obtain ⟨granted, hxe, hg⟩ := action_of_working hx
  have hrun : Run.step x false k₁ ⟨P, n, .acting a⟩ = some (x.granted { k₁ with handler := h } (.transport t) n d,
      .more ⟨P, nextAttempt n,
        Run.awaiting x (x.granted { k₁ with handler := h } (.transport t) n d) d⟩) := by
    simp only [Run.step, hact, Run.afterFailure, ht, hd, Run.awaiting]
    simp
    split <;> rfl
  obtain ⟨k₂, he, hk₂, hh, hal₂⟩ := stepped_of_working hx hrun
  have hal₂ := hal.trans hal₂
  have hnow₂ : k₂.handler.now = k.handler.now := by
    rw [hh, hxe]
    exact ((hg _ _).2.trans hnow)
  obtain ⟨l', k₃, hp', hk₃, hnow₃, hal₃, ho'⟩ := path_of_awaiting hk₂ (by
    rw [hh, hxe]
    exact ⟨rfl, rfl⟩)
  refine ⟨_, k₃, (hp.tail ⟨hal, _, x, hx⟩ he).trans (hp'.mono fun _ => Undisturbed.trans hal₂), hk₃, ?_,
    hal₂.trans hal₃, ?_⟩
  · rw [hnow₃, hnow₂]
  · rw [marks_append, outcomes_append, ho', marks_cons, outcomes_append, ho, mark?_of_end hx hact]
    rfl

/-- Failures that are granted a retry follow each other as soon as the delays between them are over. -/
theorem path_of_failures {es : List TransportError} {ds : List Span} (hr : k.Reachable)
    (hk : k.Pursuing p ⟨P, min n maxAttempt, .acting (.opening .start)⟩)
    (hd : P.delays? n (es.map .transport) = some ds) :
    ∃ l k', PathIn (Undisturbed p k) k l k' ∧
      k'.Pursuing p ⟨P, min (n + es.length) maxAttempt, .acting (.opening .start)⟩ ∧
      k'.handler.now = Policy.afterDelays ds k.handler.now ∧ Alike k k' ∧
      outcomes (marks p l) = (es.map fun t => .error (.transport t)).reverse := by
  induction es generalizing k n ds with
  | nil =>
    cases hd
    exact ⟨[], k, .refl _ k, hk, rfl, .refl k, rfl⟩
  | cons t es ih =>
    simp only [List.map_cons, Policy.delays?] at hd
    split at hd
    · rename_i ht
      split at hd
      · cases hd
      · rename_i d hdec
        obtain ⟨ds', hds, rfl⟩ := Option.map_eq_some_iff.mp hd
        obtain ⟨l, k₁, hp, hk₁, hnow, hal, ho⟩ := path_of_retry hr hk ht hdec
        have hnext : nextAttempt (min n maxAttempt) = min (n + 1) maxAttempt := by unfold nextAttempt; omega
        rw [hnext] at hk₁
        obtain ⟨l', k₂, hp', hk₂, hnow', hal', ho'⟩ := ih (hp.path.reachable hr) hk₁ hds
        refine ⟨l' ++ l, k₂, hp.trans (hp'.mono fun _ => Undisturbed.trans hal), ?_, ?_, hal.trans hal', ?_⟩
        · have hn : n + 1 + es.length = n + (t :: es).length := by simp only [List.length_cons]; omega
          exact hn ▸ hk₂
        · rw [hnow', hnow, Policy.afterDelays_cons]
        · rw [marks_append, outcomes_append, ho, ho', List.map_cons, List.reverse_cons]
    · cases hd

/-- The last failure of a script is not granted another attempt. -/
theorem final_of_script {m : Nat} {o : Except TransportError Unit}
    (ho : ∀ t, o = .error t → P.transient (.transport t) = false ∨ P.decide m (.transport t) = .stop)
    (e : ClientError) (he : o.mapError .transport = .error e) : P.transient e = false ∨ P.decide m e = .stop := by
  cases o with
  | ok v => cases he
  | error t =>
    cases he
    exact ho t rfl

/-- A party and its transport go by a script: failures that are granted a retry each, and then an attempt that
ends as it may. The next step of the party ends that attempt. -/
theorem path_of_script {es : List TransportError} {ds : List Span} (hr : k.Reachable)
    (hk : k.Pursuing p ⟨P, min n maxAttempt, .acting (.opening .start)⟩)
    (hd : P.delays? n (es.map .transport) = some ds) (o : Except TransportError Unit) :
    ∃ l k' x a h, PathIn (Undisturbed p k) k l k' ∧
      k'.working? p = some (⟨P, min (n + es.length) maxAttempt, .acting a⟩, x, false) ∧
      x.step k' a = some ({ k' with handler := h }, .done (o.mapError .transport)) ∧
      h.now = Policy.afterDelays ds k.handler.now ∧ Alike k k' ∧
      outcomes (marks p l) = (es.map fun t => .error (.transport t)).reverse := by
  obtain ⟨l, k₁, hp, hk₁, hnow, hal, ho⟩ := path_of_failures hr hk hd
  obtain ⟨l', k₂, x, a, h, hp', hx, hact, hnow', hal', ho'⟩ := path_of_attempt (hp.path.reachable hr) o hk₁
  refine ⟨l' ++ l, k₂, x, a, h, hp.trans (hp'.mono fun _ => Undisturbed.trans hal), hx, hact, hnow'.trans hnow,
    hal.trans hal', ?_⟩
  rw [marks_append, outcomes_append, ho, ho']
  rfl

end HubDevice.Kernel
