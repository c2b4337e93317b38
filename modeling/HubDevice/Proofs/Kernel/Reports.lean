import Mathlib.Data.List.Chain
import HubDevice.Proofs.Kernel.Announcement
import HubDevice.Proofs.Kernel.Deeds
import HubDevice.Proofs.Kernel.Vacancy

/-!
# What the application was told last

The regime of the reported status. While nobody is at work and no close call has had its say, the application
was last told that the connection is up if and only if it is, and that it is not being restored unless an open
call that announced another attempt was cut short by a close or a drop (`Truthful`). Every section inside the
gate that moves the link tells so before it leaves, and whoever is about to tell that the connection is up
has told something else before, so that this is never told twice in a row (`reports_of_reachable`).
-/

namespace HubDevice.Kernel

open FairLock Retry Wire

variable {p : Party} {k k' : Kernel}

/-- The connection state that was reported last. -/
def told (k : Kernel) : ConnectionState := k.status.value.state

/-- No close call has anything to report yet: none has begun, or no open call has ever succeeded. -/
def Unclosed (k : Kernel) : Prop := ¬ (k.disposed = true ∧ k.opened = true)

/-- What was told last of a link that nobody brings up: that there is no connection, or, if everything is
over and `cut`, that it is being restored. -/
def Resting (cut : Prop) (k : Kernel) : Prop :=
  k.told = .disconnected ∨ (k.told = .retrying ∧ k.lifetimeOver = true ∧ cut)

theorem Resting.mono {cut cut' : Prop} (h : k.Resting cut) (hc : cut → cut') : k.Resting cut' :=
  h.imp_right fun ⟨ht, hl, h⟩ => ⟨ht, hl, hc h⟩

/-- What is true of the last report while nobody is at work. -/
structure Truthful (k : Kernel) : Prop where
  up : k.Unclosed → k.link = .connected → k.told = .connected
  notUp : k.link ≠ .connected → k.link ≠ .closed → k.told ≠ .connected
  down : k.Unclosed → k.link ≠ .connected → k.link ≠ .reconnecting →
    k.Resting (k.lastOpen = some (.error .disposed))

/-- What is true of the last report while an open call makes its attempts. -/
structure Attempting (k : Kernel) : Prop where
  notUp : k.told ≠ .connected
  failing : k.Unclosed → k.told = .disconnected ∨ k.told = .retrying

def OpenPhase.OnReports (k : Kernel) : OpenPhase → Prop
  | .working _ => k.Attempting
  | .raiseLink | .startWatcher | .reportUp | .reportDown _ => k.told ≠ .connected
  | .conclude (.ok _) => k.Unclosed → k.told = .connected
  | .conclude (.error e) =>
    k.told ≠ .connected ∧ (k.Unclosed → k.link ≠ .reconnecting → k.Resting (e = .disposed))
  | _ => k.Truthful

def WatchPhase.OnReports (k : Kernel) : WatchPhase → Prop
  | .lowerLink _ => k.Truthful
  | .decide _ | .announce _ _ | .giveUp | .reportDown _ => True
  | _ => k.told ≠ .connected

def reportRegime : Regime where
  settled := Truthful
  opening ph k := ph.OnReports k
  closing ph k := match ph with
    | .releasing _ => True
    | _ => k.Truthful
  toggling _ _ _ _ := Truthful
  watching _ ph k := ph.OnReports k

/-! ## What happens aside -/

namespace Aside

variable (h : Aside k k')
include h

theorem told_ne (hk : k.told ≠ .connected) : k'.told ≠ .connected := by
  rcases h.told with he | ⟨-, -, hs⟩
  · unfold Kernel.told
    rw [he]
    exact hk
  · exact hs

theorem unclosed (hk : k'.Unclosed) : k.Unclosed ∧ k'.told = k.told := by
  refine ⟨fun ⟨hd, ho⟩ => hk ⟨h.disposed hd, h.opened.trans ho⟩, ?_⟩
  rcases h.told with he | ⟨hd, ho, -⟩
  · exact congrArg (fun s : Watched Status => s.value.state) he
  · exact absurd ⟨hd, ho⟩ hk

theorem resting {cut cut' : Prop} (hu : k'.Unclosed) (hk : k.Resting cut) (hc : cut → cut') :
    k'.Resting cut' := by
  unfold Resting at hk ⊢
  rw [(h.unclosed hu).2]
  exact hk.imp_right fun ⟨ht, hl, hcut⟩ => ⟨ht, h.lifetimeOver hl, hc hcut⟩

theorem truthful (hk : k.Truthful) : k'.Truthful where
  up hu hl := by
    rw [(h.unclosed hu).2]
    exact hk.up (h.unclosed hu).1 (h.link.symm.trans hl)
  notUp hl hc := h.told_ne (hk.notUp (h.link ▸ hl) (h.link ▸ hc))
  down hu hl hr := by
    have hk' := hk.down (h.unclosed hu).1 (h.link ▸ hl) (h.link ▸ hr)
    exact h.resting hu hk' h.lastOpen.trans

theorem attempting (hk : k.Attempting) : k'.Attempting where
  notUp := h.told_ne hk.notUp
  failing hu := by
    rw [(h.unclosed hu).2]
    exact hk.failing (h.unclosed hu).1

end Aside

theorem OpenPhase.OnReports.aside {ph : OpenPhase} (h : Aside k k') (hk : ph.OnReports k) :
    ph.OnReports k' := by
  cases ph with
  | working => exact h.attempting hk
  | raiseLink | startWatcher | reportUp | reportDown => exact h.told_ne hk
  | conclude outcome =>
    cases outcome with
    | ok =>
      intro hu
      rw [(h.unclosed hu).2]
      exact hk (h.unclosed hu).1
    | error e =>
      refine ⟨h.told_ne hk.1, fun hu hr => ?_⟩
      exact h.resting hu (hk.2 (h.unclosed hu).1 (h.link ▸ hr)) id
  | _ => exact h.truthful hk

theorem WatchPhase.OnReports.aside {ph : WatchPhase} (h : Aside k k') (hk : ph.OnReports k) :
    ph.OnReports k' := by
  cases ph with
  | lowerLink => exact h.truthful hk
  | decide | announce | giveUp | reportDown => trivial
  | _ => exact h.told_ne hk

/-! ## Attempts -/

theorem statusOf_final_state (policy : Policy) (e : ClientError) :
    (statusOf policy e true).state = .disconnected := by
  unfold statusOf
  split
  · rfl
  · rfl
  · split <;> rfl

theorem attempting_reportFailure (k : Kernel) (e : ClientError) : (k.reportFailure e false).Attempting := by
  have hs : (k.reportFailure e false).told = .disconnected ∨ (k.reportFailure e false).told = .retrying :=
    failing_statusOf k.policy e false
  refine ⟨fun hc => ?_, fun _ => hs⟩
  rcases hs with hs | hs <;> rw [hc] at hs <;> cases hs

theorem keeps_attempting (k₀ : Kernel) (token : Nat) :
    Run.Keeps (openAction k₀ token) Attempting (fun _ => Attempting) Attempting := by
  have stepped : ∀ {k k' : Kernel} {a : Recovery} {pr}, k.Attempting →
      (openAction k₀ token).step k a = some (k', pr) → k'.Attempting := by
    intro k k' a pr hk hs
    obtain ⟨_, -, rfl⟩ := liftHandler_eq_some hs
    exact ⟨hk.notUp, hk.failing⟩
  exact {
    start := id
    abandon := fun hk => ⟨hk.notUp, hk.failing⟩
    granted := fun e _ _ _ => attempting_reportFailure _ e
    more := stepped
    ok := stepped
    error := stepped }

theorem Attempting.holds (hk : k.Attempting) (run : Run Recovery) :
    run.Holds Attempting (fun _ => Attempting) k := by
  unfold Run.Holds
  split <;> exact hk

theorem attempting_of_holds {run : Run Recovery} (h : run.Holds Attempting (fun _ => Attempting) k) :
    k.Attempting := by
  unfold Run.Holds at h
  split at h <;> exact h

/-! ## Parties inside -/

theorem OpenPhase.reports_step {token : Nat} {ph : OpenPhase}
    {pr : Progress OpenPhase (Except ClientError Unit)} (hl : ph.OnLink k) (hi : ph.stance = .inside)
    (hk : ph.OnReports k) (h : ph.step token p k = some (k', pr)) :
    pr.Leaves (fun ph' => reportRegime.opener ph' k') k'.Truthful k'.Truthful := by
  have freed : ∀ {gate : FairLock Party}, k.Truthful → Truthful { k with gate } := fun ht =>
    Aside.truthful { Aside.refl k with } ht
  cases turn_of_step h with
  | refusedInside | found => exact freed hk
  | @shared _ outcome => cases outcome <;> exact freed hk
  | admittedInside | own => exact hk
  | late =>
    obtain ⟨-, hc, hl⟩ := hl
    have hk : k.Truthful := hk
    exact ⟨hk.notUp hl hc, fun hu hr => (hk.down hu hl hr).mono fun _ => rfl⟩
  | began ho =>
    obtain ⟨hs, hc, hl⟩ := hl
    have hk : k.Truthful := hk
    have hr : k.link ≠ .reconnecting := fun hr => by
      have hm := hs.meaning
      rw [hr] at hm
      exact absurd (hm.2.symm.trans ho) (by simp)
    exact ⟨hk.notUp hl hc, fun hu => (hk.down hu hl hr).imp_right And.left⟩
  | @overtaken run ho =>
    have ha := (keeps_attempting k token).idle_abandon (Attempting.holds hk run)
    have hover : (run.abandon (openAction k token) k).lifetimeOver = true := by
      obtain ⟨_, _, he, -⟩ := relays_overtaken k k token run
      rw [he]
      exact ho
    exact ⟨ha.notUp, fun hu _ => (ha.failing hu).imp_right fun ht => ⟨ht, hover, rfl⟩⟩
  | @worked run _ q _ ht =>
    have hq := ht.keeps (keeps_attempting k token) (Attempting.holds hk run)
    cases q with
    | more run' => exact attempting_of_holds hq
    | done r =>
      cases r with
      | ok v => exact hq.notUp
      | error e =>
        rcases error_of_turn ht with ⟨rfl, -⟩ | ⟨t, rfl⟩ <;> exact hq.notUp
  | raised | watched => exact hk
  | reportedUp => exact fun _ => rfl
  | @reportedDown e =>
    have hs : (k.reportFailure e true).told = .disconnected := statusOf_final_state k.policy e
    exact ⟨by simp [hs], fun _ _ => .inl hs⟩
  | @concluded outcome =>
    cases outcome with
    | ok v =>
      obtain ⟨-, hl⟩ := hl
      exact ⟨fun hu _ => hk hu, fun hn => absurd hl hn, fun _ hn => absurd hl hn⟩
    | error e =>
      obtain ⟨-, -, hl⟩ := hl
      refine ⟨fun _ hc => absurd hc hl, fun _ _ => hk.1, fun hu _ hr => (hk.2 hu hr).mono ?_⟩
      rintro rfl
      rfl
  | _ => cases hi

theorem truthful_of_closed (hl : k.link = .closed) (hd : k.disposed = true) (ho : k.opened = true) :
    k.Truthful where
  up hu := absurd ⟨hd, ho⟩ hu
  notUp _ hc := absurd hl hc
  down hu := absurd ⟨hd, ho⟩ hu

theorem ClosePhase.reports_step {ph : ClosePhase} {pr : Progress ClosePhase (Except ClientError Unit)}
    (hr : k.Reachable) (hd : ph.Due k) (hl : ph.OnLink k) (hi : ph.stance = .inside)
    (hk : reportRegime.closing ph k) (h : ph.step p k = some (k', pr)) :
    pr.Leaves (fun ph' => reportRegime.closer ph' k') k'.Truthful k'.Truthful := by
  cases turn_of_step h with
  | lowered => trivial
  | loweredUnopened ho =>
    have hk : k.Truthful := hk
    have hne : k.link ≠ .connected ∧ k.link ≠ .reconnecting := by
      constructor <;> intro hl
      all_goals
        have hop := opened_of_link hr (by simp [hl]) (by simp [hl])
        exact absurd (hop.symm.trans ho) (by simp)
    exact ⟨nofun, fun _ hc => absurd rfl hc, fun hu _ _ => hk.down hu hne.1 hne.2⟩
  | releasing => trivial
  | released | troubled => exact truthful_of_closed hl.2 hd.1 hd.2.2
  | _ => cases hi

theorem WatchPhase.reports_step {i : Nat} {w : Watcher} {ph ph' : WatchPhase} (hl : ph.OnLink i k)
    (hi : ph.stance = .inside) (hk : ph.OnReports k) (h : ph.step p k w = some (k', ph')) :
    reportRegime.watcher i ph' (k'.setPhase i ph') := by
  have left : ∀ {k : Kernel} {ph : WatchPhase}, k.link = .lost ∨ k.link = .reconnecting →
      k.told ≠ .connected → (k.link = .lost → k.told = .disconnected) → (k.setPhase i ph).Truthful := by
    intro k ph hl hn hd
    refine ⟨fun _ hc => ?_, fun _ _ => hn, fun _ _ hr => ?_⟩
    · rcases hl with hl | hl <;> exact absurd (hl.symm.trans hc) (by simp)
    · exact .inl (hd (hl.resolve_right hr))
  cases turn_of_step h with
  | foundClosed =>
    have hk : k.Truthful := hk
    exact ⟨hk.up, hk.notUp, hk.down⟩
  | lowered | declined | granted => trivial
  | expired => exact left (.inl hl.link) nofun fun _ => rfl
  | announced | paused => exact nofun
  | stoppedPausing => exact left (.inr hl.link) hk fun he => by cases hl.link.symm.trans he
  | resumed | raised | watched => exact hk
  | worked ht hq =>
    obtain ⟨handler, rfl⟩ := handler_of_turn ht
    cases hq with
    | goesOn | restored => exact hk
    | stopped => exact left (.inr hl.1.link) hk fun he => by cases hl.1.link.symm.trans he
    | failed => trivial
  | reportedUp =>
    exact ⟨fun _ _ => rfl, fun hc => absurd hl.2.1 hc, fun _ hc => absurd hl.2.1 hc⟩
  | @reportedDown e =>
    have hs : (k.reportFailure e true).told = .disconnected := statusOf_final_state k.policy e
    exact left (k := { k.reportFailure e true with gate := _ }) (.inl hl.link)
      (fun hc => by cases hs.symm.trans hc) fun _ => hs
  | _ => cases hi

theorem reportRegime_kept : reportRegime.Kept where
  reachable := id
  initial _ _ := ⟨nofun, nofun, fun _ _ _ => .inl rfl⟩
  settled_aside h hk := h.truthful hk
  opening_aside h hk := hk.aside h
  closing_aside {ph k k'} h hk := by
    cases ph with
    | releasing => trivial
    | _ => exact h.truthful hk
  toggling_aside h hk := h.truthful hk
  watching_aside h hk := hk.aside h
  enter_opening hk := hk
  enter_closing _ _ hk := hk
  enter_toggling _ _ hk := hk
  enter_watching hk := hk
  step_opening hr ht hi hk h := OpenPhase.reports_step (linkRegime_kept.opening_of_inside hr ht hi) hi hk h
  step_closing hr ht hi hk h :=
    ClosePhase.reports_step hr ((orderly_of_reachable hr).due ht)
      (linkRegime_kept.closing_of_inside hr ht hi) hi hk h
  step_toggling {_ _ _ _ _ _ _ k' _ pr} _ _ _ hk h := by
    have ht : k'.Truthful := by
      cases Toggling.turn_of_step h with
      | calling | changed | failed => exact ⟨hk.up, hk.notUp, hk.down⟩
    cases pr with
    | more a => cases a <;> exact ht
    | done r => cases r <;> exact ht
  abandon_toggling _ _ _ _ hk := ⟨hk.up, hk.notUp, hk.down⟩
  step_watching hr hw hi hk h := WatchPhase.reports_step (linkRegime_kept.watching_of_inside hr hw hi) hi hk h

/-! ## One report at a time -/

/-- Whatever happens, at most one status is reported, and it is the last one from then on. -/
theorem says_after {e : Happening} (he : k.after e = some k') : ∃ st : Option Status,
    k'.handler.wire.reports = st.toList ++ k.handler.wire.reports ∧
      k'.status.value = st.getD k.status.value := by
  obtain ⟨st, hst⟩ := does_after he
  refine ⟨st, ?_⟩
  cases hst with
  | silently hd hs => exact ⟨hd.reports_eq, congrArg Watched.value hs⟩
  | telling st hd hh hs =>
    refine ⟨?_, congrArg Watched.value hs⟩
    rw [hh]
    exact congrArg (st :: ·) hd.reports_eq

/-- The status is the one that was reported last, or that of a client on which nothing has happened. -/
theorem status_of_reports (h : k.Reachable) : k.status.value = k.handler.wire.reports.head?.getD {} := by
  refine Reachable.induct (P := fun k => k.status.value = k.handler.wire.reports.head?.getD {})
    (fun _ _ => rfl) (fun hr ih he => ?_) h
  obtain ⟨st, hrep, hval⟩ := says_after he
  rw [hrep, hval]
  cases st with
  | none => exact ih
  | some st => rfl

/-- A report that the connection is up tells nothing else. -/
theorem up_of_reported (h : k.Orderly) {e : Happening} (he : k.after e = some k') {new : List Status}
    {st : Status} (hn : k'.handler.wire.reports = new ++ k.handler.wire.reports) (hm : st ∈ new)
    (hs : st.state = .connected) : Up st := by
  have failing : ¬ Failing st := by
    rintro (hf | hf) <;> exact absurd (hs.symm.trans hf) (by simp)
  rcases reporter_after h he hn hm with ⟨i, ⟨token, t⟩, -, -, hst⟩ | ⟨i, w, -, -, hst⟩
  · rcases Task.reporting hst with ⟨ph, rfl, hst⟩ | ⟨ph, rfl, hst⟩
    · cases ph with
      | reportUp => exact hst
      | working | reportDown => exact absurd hst failing
      | _ => exact hst.elim
    · cases ph with
      | reportTrouble | reportClosed =>
        cases hst
        cases hs
      | _ => exact hst.elim
  · revert hst
    generalize w.phase = ph
    intro hst
    cases ph with
    | reportUp => exact hst
    | giveUp | announce | reportDown => exact absurd hst failing
    | _ => exact hst.elim

/-- Whoever reports the connection as up has reported something else before. -/
theorem told_of_announces (h : k.Reachable) {e : Happening} (ha : k.Announces e k') :
    k.told ≠ .connected := by
  rcases reportUp_of_announces h ha with ⟨i, token, -, ht⟩ | ⟨i, w, -, hw, hp⟩
  · exact reportRegime_kept.opening_of_inside h ht rfl
  · have hk := reportRegime_kept.watching_of_inside h hw (by rw [hp]; rfl)
    rw [hp] at hk
    exact hk

/-- Not both of two reports say that the connection is up. -/
def Alternate (st st' : Status) : Prop := ¬ (st.state = .connected ∧ st'.state = .connected)

/-- The connection is never reported as up twice in a row. -/
theorem reports_of_reachable (h : k.Reachable) : k.handler.wire.reports.IsChain Alternate := by
  refine Reachable.induct (P := fun k => k.handler.wire.reports.IsChain Alternate)
    (fun _ _ => .nil) (fun {k k' e} hr ih he => ?_) h
  have ho := orderly_of_reachable hr
  obtain ⟨st, hrep, -⟩ := says_after he
  rw [hrep]
  cases st with
  | none => exact ih
  | some st =>
    -- The status is the last report, and whoever announces the connection has left another one.
    refine List.isChain_cons.mpr ⟨fun last hlast ⟨hup, hlastUp⟩ => ?_, ih⟩
    have hlast : k.handler.wire.reports.head? = some last := hlast
    have hst : Up st := up_of_reported ho he hrep (List.mem_singleton_self st) hup
    have hne := told_of_announces hr ⟨he, [st], hrep, hst ▸ List.mem_singleton_self st⟩
    apply hne
    unfold told
    rw [status_of_reports hr, hlast]
    exact hlastUp

/-- While nobody holds the gate and neither a close nor a drop has begun, the status is connected if and only
if the link is, and disconnected otherwise. It always is the status that was reported last, and the connection
is never reported as up twice in a row. -/
theorem status_truthful (h : k.Reachable) :
    (k.gate.holder = none → k.disposed = false → k.lifetimeOver = false →
      (k.status.value.state = .connected ↔ k.link = .connected) ∧
        (k.link ≠ .connected → k.status.value.state = .disconnected)) ∧
    k.status.value = k.handler.wire.reports.head?.getD {} ∧
    k.handler.wire.reports.IsChain Alternate := by
  refine ⟨fun hg hd hl => ?_, status_of_reports h, reports_of_reachable h⟩
  have ht := (reportRegime_kept.custody h).settled hg
  have hs := (linkRegime_kept.custody h).settled hg
  have hu : k.Unclosed := fun hc => absurd (hc.1.symm.trans hd) (by simp)
  have hc : k.link ≠ .closed := fun hc => absurd ((disposed_of_closed h hc).symm.trans hd) (by simp)
  have hr : k.link ≠ .reconnecting := fun hr => by
    have hm := hs.meaning
    rw [hr] at hm
    exact absurd (hm.2.symm.trans hl) (by simp)
  refine ⟨⟨fun hup => ?_, ht.up hu⟩, fun hn => ?_⟩
  · by_contra hn
    exact ht.notUp hn hc hup
  · rcases ht.down hu hn hr with hd | ⟨-, ho, -⟩
    · exact hd
    · exact absurd (ho.symm.trans hl) (by simp)

/-- After a first recovery the connection was reported as up, as being restored, and as up again. -/
theorem firstRecovery_reported : ∃ k,
    (initial none .standard).course (firstRecovery ++ [.stepWatcher 0]) = some k ∧
      k.gate.holder = none ∧ k.disposed = false ∧ k.lifetimeOver = false ∧ k.link = .connected ∧
      k.handler.wire.reports.map Status.state = [.connected, .retrying, .connected] :=
  ⟨_, rfl, rfl, rfl, rfl, rfl, rfl⟩

theorem status_truthful_firstRecovery : ∃ k,
    (initial none .standard).course (firstRecovery ++ [.stepWatcher 0]) = some k ∧
      k.gate.holder = none ∧ k.disposed = false ∧ k.lifetimeOver = false ∧
      k.status.value.state = .connected := by
  obtain ⟨k, hc, hg, hd, hl, hlink, -⟩ := firstRecovery_reported
  have h := status_truthful ⟨none, .standard, reaches_of_course hc⟩
  exact ⟨k, hc, hg, hd, hl, (h.1 hg hd hl).1.mpr hlink⟩

end HubDevice.Kernel
