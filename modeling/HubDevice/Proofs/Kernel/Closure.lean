import HubDevice.Proofs.Kernel.Closing

/-!
# What closing leaves

The history of runs in which a client is closed. That the client was closed is reported last, by the call
that took the gate after an open call had succeeded, and by no other (`Recalled`); nothing is reported after
it (`final_of_closed`). An operation that starts later is refused at its first check (`Refused`). Together
this is `closed_for_good`.
-/

namespace HubDevice.Kernel

open FairLock Retry Wire

variable {p : Party} {k k' : Kernel} {e : Happening} {i j : Nat} {l : List (Kernel × Happening)}
  {x : Kernel × Happening}

/-- The status of a client that was closed. -/
def closedStatus : Status := ⟨.disabled, .clientClosed⟩

/-! ## The last report -/

theorem closing_of_reported (h : k.Orderly) (he : k.after e = some k') {new : List Status}
    (hn : k'.handler.wire.reports = new ++ k.handler.wire.reports) (hm : closedStatus ∈ new) :
    ∃ i token, e = .stepTask i ∧ k.tasks[i]? = some ⟨token, .closing .reportClosed⟩ ∧
      k'.handler.wire.reports = closedStatus :: k.handler.wire.reports ∧
      k'.tasks[i]? = some ⟨token, .ended (.ok .done)⟩ := by
  have failing : ¬ Failing closedStatus := fun h => by rcases h with h | h <;> cases h
  rcases reporter_after h he hn hm with ⟨i, ⟨token, t⟩, rfl, ht, hst⟩ | ⟨i, w, -, -, hst⟩
  · rcases Task.reporting hst with ⟨ph, rfl, hst⟩ | ⟨ph, rfl, hst⟩
    · cases ph with
      | working | reportDown => exact absurd hst failing
      | reportUp => cases hst
      | _ => exact hst.elim
    · cases ph with
      | reportTrouble => cases hst
      | reportClosed =>
        obtain ⟨o, k₁, t, ht', hs, rfl⟩ := stepTask_eq_some he
        rw [ht] at ht'
        cases ht'
        cases hs
        exact ⟨i, token, rfl, ht, rfl, List.getElem?_set_self (List.getElem?_eq_some_iff.mp ht).1⟩
      | _ => exact hst.elim
  · revert hst
    generalize w.phase = ph
    intro hst
    cases ph with
    | giveUp | announce | reportDown => exact absurd hst failing
    | reportUp => cases hst
    | _ => exact hst.elim

/-- The report that the client was closed is the only one and the last one, and the client is over. -/
theorem final_of_closed (h : k.Reachable) {newer older : List Status}
    (hs : k.handler.wire.reports = newer ++ closedStatus :: older) :
    k.Over ∧ newer = [] ∧ closedStatus ∉ older := by
  refine Reachable.induct (P := fun k => ∀ newer older,
    k.handler.wire.reports = newer ++ closedStatus :: older → k.Over ∧ newer = [] ∧ closedStatus ∉ older)
    (fun _ _ newer older hs => ?_) (fun {k k' e} hr ih he newer older hs => ?_) h newer older hs
  · have hlen := congrArg List.length hs
    simp [initial, Handler.withInterval, reports] at hlen
  · have hord := orderly_of_reachable hr
    obtain ⟨A, hw⟩ := wire_after hord he
    obtain ⟨new, hn, -⟩ := hw.reports
    by_cases hm : closedStatus ∈ k.handler.wire.reports
    · obtain ⟨newer', older', hs'⟩ := List.append_of_mem hm
      obtain ⟨ho, hnil, hnot⟩ := ih _ _ hs'
      obtain ⟨new', hn', hall⟩ := (ho.touches hr he).reports
      have hnew : new' = [] := List.eq_nil_iff_forall_not_mem.mpr fun st hst => hall st hst
      rw [hnew, List.nil_append] at hn'
      exact ⟨ho.after hr he, (ih newer older (hn'.symm.trans hs)).2⟩
    · have hm' : closedStatus ∈ new := by
        have hmem : closedStatus ∈ k'.handler.wire.reports := by
          rw [hs]
          simp
        rw [hn] at hmem
        exact (List.mem_append.mp hmem).resolve_right hm
      obtain ⟨i, token, rfl, ht, hrep, ht'⟩ := closing_of_reported hord he hn hm'
      have hc : k.Closes i .reportClosed := ⟨by simp, token, ht⟩
      obtain ⟨hl, -⟩ := (sole_of_reachable hr).lowered hc trivial
      refine ⟨⟨(hl ▸ linkMoves_after hr he).eq_closed, fun j ph hj => ?_⟩, ?_⟩
      · have hji : j = i := by
          rcases closes_after hord he hj with hj | ⟨_, _, _, he', -⟩
          · exact (sole_of_reachable hr).unique hj hc
          · cases he'
            rfl
        obtain ⟨-, _, hj⟩ := hj
        rw [hji, ht'] at hj
        cases hj
      · rw [hrep] at hs
        cases newer with
        | nil =>
          cases hs
          exact ⟨rfl, hm⟩
        | cons st newer =>
          have hs := (List.cons.inj hs).2
          exact absurd (by rw [hs]; simp) hm

/-! ## Open calls that have succeeded -/

/-- An open call returns with success in a step of a run. -/
def Succeeds (x : Kernel × Happening) : Prop := ∃ i, x.1.InOpen i ∧ Returns x i (.ok .done)

/-- The phases of an open call that has raised the link. -/
def OpenPhase.Raised : OpenPhase → Prop
  | .startWatcher | .reportUp | .conclude (.ok _) => True
  | _ => False

theorem opened_of_lastOpen (h : k.Reachable) {v : Unit} (hl : k.lastOpen = some (.ok v)) :
    k.opened = true := by
  refine Reachable.induct (P := fun k => k.lastOpen = some (.ok v) → k.opened = true)
    (fun _ _ hl => by cases hl) (fun {k k' e} hr ih he hl => ?_) h hl
  have ho := orderly_of_reachable hr
  rcases notes_after ho he with hn | ⟨i, rfl, hn⟩
  · exact opened_after ho he (ih (hn.lastOpen.symm.trans hl))
  · cases hn with
    | disposed => exact opened_after ho he (ih hl)
    | raised => rfl
    | concluded ht =>
      cases hl
      have hk := slotRegime_kept.opening_of_inside hr ht rfl
      exact opened_after ho he (Engaged.opened hk)

theorem opened_of_connected (h : k.Reachable) (hl : k.link = .connected) : k.opened = true :=
  opened_of_link h (by simp [hl]) (by simp [hl])

/-- An open call succeeds only while the connection is one that was up. -/
theorem Succeeds.opened (h : x.1.Reachable) (hs : Succeeds x) : x.1.opened = true := by
  obtain ⟨i, hi, hr⟩ := hs
  obtain ⟨token, ph, r, ht, hret, he⟩ := hi.returned (orderly_of_reachable h) hr
  have linked : x.1.link = .connected → x.1.opened = true := opened_of_connected h
  cases hret with
  | refused | cancelled => cases he
  | connected hc =>
    rw [(steady_of_reachable h).connected] at hc
    exact linked (by simpa using hc)
  | found hl => exact linked hl
  | shared hl hsh =>
    unfold sharedOutcome at hsh
    split at hsh
    · cases hsh
    · split at hsh
      · cases hsh
      · cases r with
        | error => cases he
        | ok v => exact opened_of_lastOpen h hsh
  | concluded r =>
    cases r with
    | error => cases he
    | ok v =>
      have hk := slotRegime_kept.opening_of_inside h ht rfl
      exact Engaged.opened hk

theorem opened_of_reaches (h : k.Reachable) (hr : k.Reaches k') (ho : k.opened = true) :
    k'.opened = true := by
  induction hr with
  | refl => exact ho
  | tail e hr he ih => exact opened_after (orderly_of_reachable (h.reaches hr)) he ih

variable {interval : Option Span} {policy : Policy}

theorem opened_of_succeeds (h : Path (initial interval policy) l k) (hx : x ∈ l) (hs : Succeeds x) :
    k.opened = true := by
  obtain ⟨_, _, k₁, hbefore, he, hafter⟩ := h.of_mem hx
  have hx' : x.1.Reachable := hbefore.reachable (reachable_initial interval policy)
  exact opened_of_reaches hx' (((Reaches.refl _).tail _ he).trans hafter.reaches) (hs.opened hx')

/-- A connection that was up goes back to an open call that has succeeded, or is about to. -/
theorem succeeded_of_opened (h : Path (initial interval policy) l k) (ho : k.opened = true) :
    (∃ x ∈ l, Succeeds x) ∨
      ∃ (i token : Nat) (ph : OpenPhase), k.tasks[i]? = some ⟨token, .opening ph⟩ ∧ ph.Raised := by
  induction h with
  | refl => cases ho
  | @tail l k k' e hp he ih =>
    have hord := orderly_of_reachable (hp.reachable (reachable_initial interval policy))
    cases hk : k.opened with
    | false =>
      rcases notes_after hord he with hn | ⟨i, rfl, hn⟩
      · rw [hn.opened, hk] at ho
        cases ho
      · cases hn with
        | @raised token ht =>
          exact .inr ⟨i, token, .startWatcher, List.getElem?_set_self (List.getElem?_eq_some_iff.mp ht).1,
            trivial⟩
        | disposed | concluded =>
          have ho : k.opened = true := ho
          rw [hk] at ho
          cases ho
    | true =>
      rcases ih hk with ⟨x, hx, hs⟩ | ⟨i, token, ph, ht, hr⟩
      · exact .inl ⟨x, List.mem_cons_of_mem _ hx, hs⟩
      · rcases tasks_after hord he i with hs | ⟨hn, -⟩ | ⟨o, k₁, t, rfl, ht', hs, -, hn⟩
        · exact .inr ⟨i, token, ph, hs.trans ht, hr⟩
        · rw [hn] at ht
          cases ht
        · rw [ht] at ht'
          cases ht'
          cases ph with
          | startWatcher =>
            cases hs
            exact .inr ⟨i, token, .reportUp, hn, trivial⟩
          | reportUp =>
            cases hs
            exact .inr ⟨i, token, .conclude (.ok ()), hn, trivial⟩
          | conclude outcome =>
            cases outcome with
            | error => exact hr.elim
            | ok v =>
              cases hs
              refine .inl ⟨(k, .stepTask i), List.mem_cons_self, i, ⟨token, _, ht⟩, rfl, k', he, ?_⟩
              exact result?_eq_some.mpr ⟨token, hn⟩
          | _ => exact hr.elim

/-! ## Who reports the end -/

/-- The phases of a close call that has taken the gate. -/
def ClosePhase.Entered : ClosePhase → Prop
  | .dispose | .endLifetime | .askGate | .awaitGate => False
  | _ => True

/-- The close call with a number takes the gate. -/
def TakesGate (x : Kernel × Happening) (i : Nat) : Prop :=
  x.2 = .stepTask i ∧ ∃ token, x.1.tasks[i]? = some ⟨token, .closing .awaitGate⟩

/-- The close call with a number took the gate after an open call had succeeded. -/
def TookGate (l : List (Kernel × Happening)) (i : Nat) : Prop :=
  ∃ newer x older, l = newer ++ x :: older ∧ TakesGate x i ∧ ∃ y ∈ older, Succeeds y

theorem TookGate.cons (h : TookGate l i) (x : Kernel × Happening) : TookGate (x :: l) i := by
  obtain ⟨newer, y, older, rfl, hy⟩ := h
  exact ⟨x :: newer, y, older, rfl, hy⟩

theorem ClosePhase.entered_step {ph : ClosePhase} {pr : Progress ClosePhase (Except ClientError Unit)}
    (h : ph.step p k = some (k', pr)) (he : ph.Entered) (ho : k.opened = true) :
    pr.Leaves (fun ph' => ph' ≠ .dispose ∧ ph'.Entered)
      (k'.handler.wire.reports = closedStatus :: k.handler.wire.reports) False := by
  cases turn_of_step h with
  | loweredUnopened hf => exact Bool.noConfusion (ho.symm.trans hf)
  | lowered | releasing | released | troubled | reportedTrouble | unwatched | dismissed | joined =>
    exact ⟨by simp, trivial⟩
  | reportedClosed => exact rfl
  | _ => exact he.elim

theorem ClosePhase.of_entered {ph ph' : ClosePhase} (h : ph.step p k = some (k', .more ph'))
    (he : ph'.Entered) :
    k'.opened = k.opened ∧ (ph.Entered ∨ ph = .awaitGate ∧ ph' = .lowerLink ∧ k.gate.heldBy p = true) := by
  cases turn_of_step h with
  | disposed | lifetimeEnded | asked => exact he.elim
  | entered hh => exact ⟨rfl, .inr ⟨rfl, rfl, heldBy_iff.mpr hh⟩⟩
  | lowered | releasing | released | troubled | reportedTrouble | unwatched | joined => exact ⟨rfl, .inl trivial⟩
  | dismissed => exact ⟨(aside_dismissWatcher k).opened, .inl trivial⟩

/-- What a history tells of close calls: which have taken the gate, and whether the end was reported. -/
structure Recalled (l : List (Kernel × Happening)) (k : Kernel) : Prop where
  entered : ∀ {i ph}, k.Closes i ph → ph.Entered → k.opened = true → TookGate l i
  took : ∀ {i}, TookGate l i → (∃ ph, k.Closes i ph ∧ ph.Entered ∧ k.opened = true) ∨
    closedStatus ∈ k.handler.wire.reports ∧ (k.result? i).isSome = true
  reported : closedStatus ∈ k.handler.wire.reports → ∃ i, TookGate l i ∧ (k.result? i).isSome = true

theorem recalled_initial : Recalled [] (initial interval policy) where
  entered h := by
    obtain ⟨-, _, ht⟩ := h
    cases ht
  took h := by
    obtain ⟨newer, _, _, hl, -⟩ := h
    simp at hl
  reported h := by simp [initial, Handler.withInterval, reports] at h

theorem isSome_result?_after (h : k.Orderly) (he : k.after e = some k') (hi : (k.result? i).isSome = true) :
    (k'.result? i).isSome = true := by
  obtain ⟨r, hr⟩ := Option.isSome_iff_exists.mp hi
  rw [result?_after h he hr]
  rfl

/-- Nobody raises the link while a close call has the gate or has lowered the link. -/
theorem Closes.opened_eq {ph : ClosePhase} (hc : k.Closes i ph) (hph : ph.Entered) (h : k.Reachable)
    (he : k.after e = some k') : k'.opened = k.opened := by
  have hord := orderly_of_reachable h
  cases hk : k.opened with
  | true => exact opened_after hord he hk
  | false =>
    obtain ⟨-, token, ht⟩ := id hc
    have hl : ph = .lowerLink := by
      cases ph with
      | lowerLink => rfl
      | dispose | endLifetime | askGate | awaitGate => exact hph.elim
      | _ =>
        have hl := ((sole_of_reachable h).lowered hc trivial).2
        rw [hk] at hl
        cases hl
    subst hl
    rcases notes_after hord he with hn | ⟨j, -, hn⟩
    · exact hn.opened.trans hk
    · cases hn with
      | @raised token' ht' =>
        have hij := hord.eq_of_inside (p := .task i) (q := .task j) (by rw [stance_of_tasks ht]; rfl)
          (by rw [stance_of_tasks ht']; rfl)
        cases hij
        rw [ht] at ht'
        cases ht'
      | disposed | concluded => exact hk

theorem Recalled.entered_after (h : Recalled l k) (hp : Path (initial interval policy) l k)
    (he : k.after e = some k') {ph : ClosePhase} (hc : k'.Closes i ph) (hph : ph.Entered)
    (hopen : k'.opened = true) : TookGate ((k, e) :: l) i := by
  have hr := hp.reachable (reachable_initial interval policy)
  have hord := orderly_of_reachable hr
  rcases closes_after hord he hc with hc | ⟨token, ph₀, k₁, rfl, ht, hs, -, hop⟩
  · exact (h.entered hc hph ((hc.opened_eq hph hr he).symm.trans hopen)).cons _
  · obtain ⟨hop', hcase⟩ := ClosePhase.of_entered hs hph
    have hk : k.opened = true := (hop.trans hop').symm.trans hopen
    rcases hcase with hph₀ | ⟨rfl, -, hh⟩
    · exact (h.entered ⟨fun e => (by rw [e] at hph₀; exact hph₀), token, ht⟩ hph₀ hk).cons _
    · rcases succeeded_of_opened hp hk with hsucc | ⟨j, token', ph', ht', hrs⟩
      · exact ⟨[], (k, .stepTask i), l, rfl, ⟨rfl, token, ht⟩, hsucc⟩
      · have hj : k.stance (.task j) = .inside := by
          rw [stance_of_tasks ht']
          cases ph' <;> first | rfl | exact hrs.elim
        have hij := hord.holder hj
        rw [heldBy_iff.mp hh] at hij
        cases hij
        rw [ht] at ht'
        cases ht'

theorem Recalled.took_after (h : Recalled l k) (hp : Path (initial interval policy) l k)
    (he : k.after e = some k') (ht : TookGate ((k, e) :: l) i) :
    (∃ ph, k'.Closes i ph ∧ ph.Entered ∧ k'.opened = true) ∨
      closedStatus ∈ k'.handler.wire.reports ∧ (k'.result? i).isSome = true := by
  have hr := hp.reachable (reachable_initial interval policy)
  have hord := orderly_of_reachable hr
  obtain ⟨A, hw⟩ := wire_after hord he
  obtain ⟨new, hn, -⟩ := hw.reports
  obtain ⟨newer, x, older, hl, hx, hs⟩ := ht
  cases newer with
  | nil =>
    obtain ⟨rfl, rfl⟩ := List.cons.inj hl
    obtain ⟨he', token, ht⟩ := hx
    obtain ⟨y, hy, hsy⟩ := hs
    have hk := opened_of_succeeds hp hy hsy
    cases he'
    obtain ⟨o, k₁, t, ht', hs, rfl⟩ := stepTask_eq_some he
    rw [ht] at ht'
    cases ht'
    obtain ⟨pr, hpr, rfl⟩ := ofPart_eq_some hs
    cases ClosePhase.turn_of_step hpr
    refine .inl ⟨.lowerLink, ⟨by simp, token, ?_⟩, trivial, hk⟩
    exact List.getElem?_set_self (List.getElem?_eq_some_iff.mp ht).1
  | cons y newer =>
    obtain ⟨rfl, rfl⟩ := List.cons.inj hl
    rcases h.took ⟨newer, x, older, rfl, hx, hs⟩ with ⟨ph, hc, hph, hk⟩ | ⟨hrep, hres⟩
    · have hk' := opened_after hord he hk
      rcases hc.after hord he with hc' | ⟨k₁, pr, -, hs, -, -, hwire, hleft⟩
      · exact .inl ⟨ph, hc', hph, hk'⟩
      · have hstep := ClosePhase.entered_step hs hph hk
        cases pr with
        | more ph' => exact .inl ⟨ph', ⟨hstep.1, hleft⟩, hstep.2, hk'⟩
        | done r =>
          cases r with
          | error => exact hstep.elim
          | ok =>
            refine .inr ⟨?_, hleft⟩
            rw [hwire, show k₁.handler.wire.reports = _ from hstep]
            exact List.mem_cons_self
    · refine .inr ⟨?_, isSome_result?_after hord he hres⟩
      rw [hn]
      exact List.mem_append_right _ hrep

theorem recalled_of_path (hp : Path (initial interval policy) l k) : Recalled l k := by
  induction hp with
  | refl => exact recalled_initial
  | @tail l k k' e hp he ih =>
    have hr := hp.reachable (reachable_initial interval policy)
    have hord := orderly_of_reachable hr
    refine ⟨fun hc hph hk => ih.entered_after hp he hc hph hk, fun ht => ih.took_after hp he ht,
      fun hrep => ?_⟩
    by_cases hm : closedStatus ∈ k.handler.wire.reports
    · obtain ⟨i, ht, hres⟩ := ih.reported hm
      exact ⟨i, ht.cons _, isSome_result?_after hord he hres⟩
    · obtain ⟨A, hw⟩ := wire_after hord he
      obtain ⟨new, hn, -⟩ := hw.reports
      rw [hn] at hrep
      have hm' := (List.mem_append.mp hrep).resolve_right hm
      obtain ⟨i, token, rfl, ht, -, ht'⟩ := closing_of_reported hord he hn hm'
      have hc : k.Closes i .reportClosed := ⟨by simp, token, ht⟩
      refine ⟨i, (ih.entered hc trivial ((sole_of_reachable hr).lowered hc trivial).2).cons _, ?_⟩
      rw [result?_eq_some.mpr ⟨token, ht'⟩]
      rfl

/-! ## Operations that start too late -/

theorem disposed_after (h : k.Orderly) (he : k.after e = some k') (hd : k.disposed = true) :
    k'.disposed = true := by
  rcases notes_after h he with hn | ⟨i, -, hn⟩
  · exact hn.disposed.trans hd
  · cases hn with
    | disposed => rfl
    | raised | concluded => exact hd

/-- About to make the check that every operation makes first. -/
inductive Task.Checking (p : Party) : Task → Prop where
  | opening : Checking p (.opening .checkDisposed)
  | running (x : Exchange) {policy : Policy} : policy.transient .disposed = false →
      Checking p (.running x (.ofPolicy (guarded x p) policy 0))
  | toggling (f : Feature) (enable edge : Bool) {policy : Policy} : policy.transient .disposed = false →
      Checking p (.toggling f enable edge (.ofPolicy (Kernel.toggling f enable edge p) policy 0))

theorem Task.checking_of_ready (token : Nat) {r : Request} (hr : r ≠ .close)
    (hp : k.policy.transient .disposed = false) :
    ∃ t, (Task.ready r).step token p k = some (k, t) ∧ t.Checking p := by
  cases r with
  | «open» => exact ⟨_, rfl, .opening⟩
  | close => exact absurd rfl hr
  | run x => exact ⟨_, rfl, .running x hp⟩
  | toggle f enable edge => exact ⟨_, rfl, .toggling f enable edge hp⟩

/-- The check of a client that is being closed: the operation returns, and nothing else happens. -/
theorem Task.Checking.step {t : Task} (h : t.Checking p) (token : Nat) (hd : k.disposed = true) :
    ∃ x, t.step token p k = some (k, .ended (.error x)) ∧
      (x = .disposed ∨ x = .cancelled ∧ k.tokenFired token = true) := by
  cases h with
  | opening => exact ⟨.disposed, by simp [Task.step, ofPart, OpenPhase.step, hd, Except.map], .inl rfl⟩
  | running x hp =>
    cases hf : k.tokenFired token with
    | true =>
      exact ⟨.cancelled, by simp [Task.step, ofPart, Run.step, Run.ofPolicy, guarded, hf, Guarded.abandon,
        Admission.abandon], .inr ⟨rfl, rfl⟩⟩
    | false =>
      exact ⟨.disposed, by simp [Task.step, ofPart, Run.step, Run.ofPolicy, guarded, hf, Guarded.step,
        Admission.step, hd, Run.afterFailure, hp], .inl rfl⟩
  | toggling f enable edge hp =>
    cases hf : k.tokenFired token with
    | true =>
      exact ⟨.cancelled, by simp [Task.step, ofPart, Run.step, Run.ofPolicy, Kernel.toggling, hf,
        Toggling.abandon, Admission.abandon], .inr ⟨rfl, rfl⟩⟩
    | false =>
      exact ⟨.disposed, by simp [Task.step, ofPart, Run.step, Run.ofPolicy, Kernel.toggling, hf,
        Toggling.step, Admission.step, hd, Run.afterFailure, hp], .inl rfl⟩

/-- Whether a happening is a step of the operation with a number. -/
def Happening.isStepOf (i : Nat) : Happening → Bool
  | .stepTask j => i = j
  | _ => false

/-- How many steps an operation has taken. -/
def stepsOf (i : Nat) (l : List (Kernel × Happening)) : Nat := l.countP fun x => x.2.isStepOf i

/-- An operation that was started when the client was being closed: it has not begun, is about to be refused,
or was refused. -/
inductive Refused (i token : Nat) (l : List (Kernel × Happening)) (k : Kernel) : Prop where
  | ready {r : Request} : stepsOf i l = 0 → r ≠ .close → k.tasks[i]? = some ⟨token, .ready r⟩ →
      Refused i token l k
  | checking {t : Task} : stepsOf i l = 1 → t.Checking (.task i) → k.tasks[i]? = some ⟨token, t⟩ →
      Refused i token l k
  | returned : (k.result? i).isSome = true → Refused i token l k

/-- A step by which an operation is refused or comes to be: it leaves the transport alone, and returns with
nothing else. -/
def Refusal (i token : Nat) (x : Kernel × Happening) : Prop :=
  ∃ k', x.1.stepTask i = some k' ∧ k'.handler = x.1.handler ∧ ∀ r, k'.result? i = some r →
    r = .error .disposed ∨ r = .error .cancelled ∧ x.1.tokenFired token = true

/-- The operation with a number can take a step, and is refused or comes to be. -/
theorem Refused.step {token : Nat} (h : Refused i token l k) (hd : k.disposed = true)
    (hp : k.policy.transient .disposed = false) (hn : (k.result? i).isSome = false) :
    Refusal i token (k, .stepTask i) ∧ ∀ k', k.stepTask i = some k' →
      Refused i token ((k, .stepTask i) :: l) k' := by
  have counted : stepsOf i ((k, .stepTask i) :: l) = stepsOf i l + 1 := by
    simp [stepsOf, Happening.isStepOf]
  cases h with
  | ready hl hr ht =>
    have hi : i < k.tasks.length := (List.getElem?_eq_some_iff.mp ht).1
    obtain ⟨t, hs, hc⟩ := Task.checking_of_ready (p := .task i) token hr hp
    have hk := stepTask_of_step ht hs
    refine ⟨⟨_, hk, rfl, fun r hres => ?_⟩, fun k' hk' => ?_⟩
    · rw [(result?_set hi).mp hres] at hc
      cases hc
    · rw [hk] at hk'
      cases hk'
      exact .checking (by rw [counted, hl]) hc (List.getElem?_set_self hi)
  | checking hl hc ht =>
    have hi : i < k.tasks.length := (List.getElem?_eq_some_iff.mp ht).1
    obtain ⟨x, hs, hx⟩ := hc.step token hd
    have hk := stepTask_of_step ht hs
    refine ⟨⟨_, hk, rfl, fun r hres => ?_⟩, fun k' hk' => ?_⟩
    · cases (result?_set hi).mp hres
      rcases hx with rfl | ⟨rfl, hf⟩
      · exact .inl rfl
      · exact .inr ⟨rfl, hf⟩
    · rw [hk] at hk'
      cases hk'
      exact .returned (by rw [(result?_set hi).mpr rfl]; rfl)
  | returned hres =>
    rw [hn] at hres
    cases hres

theorem Refused.other {token : Nat} (h : Refused i token l k) (ho : k.Orderly) (he : k.after e = some k')
    (hei : e ≠ .stepTask i) : Refused i token ((k, e) :: l) k' := by
  have counted : stepsOf i ((k, e) :: l) = stepsOf i l := by
    unfold stepsOf
    rw [List.countP_cons_of_neg]
    cases e <;> simp [Happening.isStepOf]
    exact fun hij => hei (hij ▸ rfl)
  have same : ∀ {o}, k.tasks[i]? = some o → k'.tasks[i]? = some o := by
    intro o ht
    rcases tasks_after ho he i with hs | ⟨hn, -⟩ | ⟨_, _, _, he', -⟩
    · exact hs.trans ht
    · rw [hn] at ht
      cases ht
    · exact absurd he' hei
  cases h with
  | ready hl hr ht => exact .ready (counted.trans hl) hr (same ht)
  | checking hl hc ht => exact .checking (counted.trans hl) hc (same ht)
  | returned hres => exact .returned (isSome_result?_after ho he hres)

theorem result?_of_stepTask (h : k.stepTask i = some k') : (k.result? i).isSome = false := by
  obtain ⟨o, k₁, t, ho, hs, -⟩ := stepTask_eq_some h
  cases hr : k.result? i with
  | none => rfl
  | some r =>
    obtain ⟨token, ht⟩ := result?_eq_some.mp hr
    rw [ht] at ho
    cases ho
    cases hs

/-- An operation that starts when the client is being closed is refused, whatever else happens. -/
theorem refused_of_path (hp : Path k l k') (hr : k.Reachable) (hd : k.disposed = true) {token : Nat}
    {r : Request} (ht : k.tasks[i]? = some ⟨token, .ready r⟩) (hne : r ≠ .close)
    (hpol : ∀ x ∈ l, x.1.policy.transient = ClientError.transient) :
    k'.disposed = true ∧ Refused i token l k' ∧ ∀ x ∈ l, x.2 = .stepTask i → Refusal i token x := by
  induction hp with
  | refl => exact ⟨hd, .ready rfl hne ht, by simp⟩
  | @tail l k₁ k₂ e hp he ih =>
    obtain ⟨hd₁, hq, hall⟩ := ih fun x hx => hpol x (List.mem_cons_of_mem _ hx)
    have hord := orderly_of_reachable (hp.reachable hr)
    have hpol₁ : k₁.policy.transient .disposed = false := by
      rw [hpol (k₁, e) List.mem_cons_self]
      rfl
    by_cases hei : e = .stepTask i
    · subst hei
      obtain ⟨hs, hq'⟩ := hq.step hd₁ hpol₁ (result?_of_stepTask he)
      refine ⟨disposed_after hord he hd₁, hq' k₂ he, fun x hx hxi => ?_⟩
      rcases List.mem_cons.mp hx with rfl | hx
      · exact hs
      · exact hall x hx hxi
    · refine ⟨disposed_after hord he hd₁, hq.other hord he hei, fun x hx hxi => ?_⟩
      rcases List.mem_cons.mp hx with rfl | hx
      · exact absurd hxi hei
      · exact hall x hx hxi

/-! ## Closed for good -/

/-- A close call takes its first step. -/
def BeginsClose (x : Kernel × Happening) : Prop :=
  ∃ i token, x.2 = .stepTask i ∧ x.1.tasks[i]? = some ⟨token, .closing .dispose⟩

/-- A close call returns. -/
def ReturnsClose (x : Kernel × Happening) : Prop :=
  ∃ i token ph r, x.1.tasks[i]? = some ⟨token, .closing ph⟩ ∧ Returns x i r

theorem disposed_of_reaches (h : k.Orderly) (hr : k.Reaches k') (hd : k.disposed = true) :
    k'.Orderly ∧ k'.disposed = true := by
  induction hr with
  | refl => exact ⟨h, hd⟩
  | tail e _ he ih => exact ⟨ih.1.after he, disposed_after ih.1 he ih.2⟩

theorem BeginsClose.disposed (h : BeginsClose x) (he : x.1.after x.2 = some k) : k.disposed = true := by
  obtain ⟨i, token, hx, ht⟩ := h
  rw [hx] at he
  obtain ⟨o, k₁, t, ht', hs, rfl⟩ := stepTask_eq_some he
  rw [ht] at ht'
  cases ht'
  obtain ⟨pr, hp, -⟩ := ofPart_eq_some hs
  cases ClosePhase.turn_of_step hp with
  | already hd => exact hd
  | disposed => rfl

theorem ReturnsClose.disposed (h : ReturnsClose x) (ho : x.1.Orderly) : x.1.disposed = true := by
  obtain ⟨i, token, ph, r, ht, -, k', hs, hres⟩ := h
  by_cases hph : ph = .dispose
  · subst hph
    obtain ⟨o, k₁, t, ht', hstep, rfl⟩ := stepTask_eq_some hs
    rw [ht] at ht'
    cases ht'
    obtain ⟨pr, hp, rfl⟩ := ofPart_eq_some hstep
    cases ClosePhase.turn_of_step hp with
    | already hd => exact hd
    | disposed =>
      have hi := (List.getElem?_eq_some_iff.mp ht).1
      cases (result?_set (k := { x.1 with disposed := true }) hi).mp hres
  · exact ho.disposed ⟨hph, token, ht⟩

theorem disposed_of_mem (hp : Path (initial interval policy) l k) (hx : x ∈ l)
    (h : BeginsClose x ∨ ReturnsClose x) : k.disposed = true := by
  obtain ⟨_, _, k₁, hbefore, he, hafter⟩ := hp.of_mem hx
  have ho := orderly_of_reachable (hbefore.reachable (reachable_initial interval policy))
  have hd : k₁.disposed = true := by
    rcases h with h | h
    · exact h.disposed he
    · exact disposed_after ho he (h.disposed ho)
  exact (disposed_of_reaches (ho.after he) hafter.reaches hd).2

/-- In every run, whatever calls and happenings it mixes: that the client was closed is reported once at most
and last; it is reported by a close call that took the gate after an open call had succeeded, as soon as it
returns, and else not at all. Once a close call has returned and none that has begun is still on its way, the
slot is empty, no session is created or connected any more, and no other control call is made. An operation
that starts after a close call has begun leaves the transport alone and is refused within two steps. -/
theorem closed_for_good (hp : Path (initial interval policy) l k) :
    (∀ newer older, k.handler.wire.reports = newer ++ closedStatus :: older →
      newer = [] ∧ closedStatus ∉ older) ∧
    (closedStatus ∈ k.handler.wire.reports ↔ ∃ i, TookGate l i ∧ (k.result? i).isSome = true) ∧
    ((∃ x ∈ l, ReturnsClose x) → (∀ i ph, ¬ k.Closes i ph) → ∀ k', k.Reaches k' →
      k'.handler.slot = none ∧ k'.handler.wire.sessions.length = k.handler.wire.sessions.length ∧
        k'.handler.wire.control = k.handler.wire.control) ∧
    ((∃ x ∈ l, BeginsClose x) → ∀ i token r, k.tasks[i]? = some ⟨token, .ready r⟩ → r ≠ .close →
      ∀ l' k', Path k l' k' → (∀ x ∈ l', x.1.policy.transient = ClientError.transient) →
        (∀ x ∈ l', x.2 = .stepTask i → Refusal i token x) ∧
          ((k'.result? i).isSome = true ∨ stepsOf i l' < 2 ∧ (k'.stepTask i).isSome = true)) := by
  have hr := hp.reachable (reachable_initial interval policy)
  have hord := orderly_of_reachable hr
  have recalled := recalled_of_path hp
  refine ⟨fun newer older hs => (final_of_closed hr hs).2, ⟨recalled.reported, fun ⟨i, ht, hres⟩ => ?_⟩,
    fun ⟨x, hx, hc⟩ hn k' hk' => ?_, fun ⟨x, hx, hb⟩ i token r ht hne l' k' hp' hpol => ?_⟩
  · rcases recalled.took ht with ⟨ph, ⟨-, token, ht'⟩, -⟩ | ⟨hrep, -⟩
    · obtain ⟨r, hres⟩ := Option.isSome_iff_exists.mp hres
      obtain ⟨token', hres⟩ := result?_eq_some.mp hres
      rw [ht'] at hres
      cases hres
    · exact hrep
  · have hl : k.link = .closed := by
      rcases (sole_of_reachable hr).pending (disposed_of_mem hp hx (.inr hc)) with hl | ⟨i, ph, hi⟩
      · exact hl
      · exact absurd hi (hn i ph)
    obtain ⟨hr', ho', hctl⟩ := Over.control_eq ⟨hl, hn⟩ hr hk'
    exact ⟨ho'.slot hr', (chronicled_of_reachable hr).length_eq (chronicled_of_reachable hr') hctl, hctl⟩
  · obtain ⟨hd, hq, hall⟩ := refused_of_path hp' hr (disposed_of_mem hp hx (.inl hb)) ht hne hpol
    refine ⟨hall, ?_⟩
    cases hq with
    | @ready r hl hne ht =>
      refine .inr ⟨by omega, ?_⟩
      have hs : ∃ t, (Task.ready r).step token (.task i) k' = some (k', t) := by
        cases r <;> exact ⟨_, rfl⟩
      obtain ⟨t, hs⟩ := hs
      rw [stepTask_of_step ht hs]
      rfl
    | checking hl hc ht =>
      obtain ⟨_, hs, -⟩ := hc.step token hd
      refine .inr ⟨by omega, ?_⟩
      rw [stepTask_of_step ht hs]
      rfl
    | returned hres => exact .inl hres

/-- After a first opening a close call is started and runs up to its first step. -/
def firstClosing : List Happening := firstOpening ++ [Happening.start 0 .close, .stepTask 1]

/-- The close call takes the gate, releases the transport and waits for the watcher to end. -/
def firstRelease : List Happening :=
  List.replicate 5 (Happening.stepTask 1) ++
    [Happening.answer 2 (.ok .done), .stepTask 1, .stepTask 1, .stepWatcher 0, .stepTask 1]

/-- The close call returns, and a message is asked for. -/
theorem firstClosing_returns : ∃ k₀ k₁ k₂ k₃ k, (initial none .standard).course firstClosing = some k₀ ∧
    k₀.after (.stepTask 1) = some k₁ ∧ k₁.course firstRelease = some k₂ ∧
    k₂.after (.stepTask 1) = some k₃ ∧ k₃.after (.start 7 (.run (.one .receive))) = some k ∧
    k₀.tasks[1]? = some ⟨0, .closing .dispose⟩ ∧ k₂.tasks[1]? = some ⟨0, .closing .reportClosed⟩ ∧
    k₃.result? 1 = some (.ok .done) ∧
    k.tasks = [⟨0, .ended (.ok .done)⟩, ⟨0, .ended (.ok .done)⟩, ⟨7, .ready (.run (.one .receive))⟩] ∧
    k.handler.wire.reports = [closedStatus, ⟨.connected, .connectionOk⟩] :=
  ⟨_, _, _, _, _, rfl, rfl, rfl, rfl, rfl, rfl, rfl, rfl, rfl, rfl⟩

/-- What `closed_for_good` says of this run: it has a call that took the gate after an open call had
succeeded, its slot is empty, and whatever follows the message will not be received. -/
theorem closed_for_good_firstClosing : ∃ l k, Path (initial none .standard) l k ∧
    (∃ i, TookGate l i ∧ (k.result? i).isSome = true) ∧ k.handler.slot = none ∧
    ∀ l' k', Path k l' k' → (∀ x ∈ l', x.1.policy.transient = ClientError.transient) →
      ∀ x ∈ l', x.2 = .stepTask 2 → Refusal 2 7 x := by
  obtain ⟨k₀, k₁, k₂, k₃, k, h₀, h₁, h₂, h₃, h₄, hb, hc, hres, ht, hrep⟩ := firstClosing_returns
  obtain ⟨l₀, hp₀⟩ := History.of_reaches (reaches_of_course h₀)
  obtain ⟨l₂, hp₂⟩ := History.of_reaches (reaches_of_course h₂)
  have hp := (((hp₀.tail _ h₁).trans hp₂).tail _ h₃).tail _ h₄
  obtain ⟨-, htook, hover, hlate⟩ := closed_for_good hp
  have hreturns : ReturnsClose (k₂, .stepTask 1) := ⟨1, 0, _, _, hc, rfl, k₃, h₃, hres⟩
  have hbegins : BeginsClose (k₀, .stepTask 1) := ⟨1, 0, rfl, hb⟩
  refine ⟨_, k, hp, htook.mp (by rw [hrep]; simp), ?_, fun l' k' hp' hpol => ?_⟩
  · refine (hover ⟨_, by simp, hreturns⟩ (fun i ph hcl => ?_) k (.refl k)).1
    obtain ⟨-, token, hti⟩ := hcl
    rw [ht] at hti
    rcases i with _ | _ | _ | i <;> cases hti
  · exact (hlate ⟨_, by simp, hbegins⟩ 2 7 (.run (.one .receive)) (by rw [ht]; rfl) (by simp) l' k' hp' hpol).1

end HubDevice.Kernel
