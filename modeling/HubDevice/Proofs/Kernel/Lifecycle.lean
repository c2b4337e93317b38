import Mathlib.Data.List.Nodup
import HubDevice.Proofs.Kernel.Attempts
import HubDevice.Proofs.Kernel.Deeds
import HubDevice.Proofs.Session.Lifecycle

/-!
# The sessions of a run

In every reachable kernel the session slot is tidy, and so is every opening on its way (`tidyRegime`). With it,
whatever happens is one of the moves of the slot (`moves_after`), and along a run each session whose opening
succeeded is in the slot, or was asked to close once (`kept_of_path`). `sessions_of_path` puts this together with
what is true of the refreshers.
-/

namespace HubDevice.Kernel

open FairLock Retry Wire

variable {p : Party} {k k' : Kernel} {h h' : Handler} {s : SessionId} {l : List (Kernel × Happening)}

/-! ## Attempts -/

/-- A tidy slot, and a tidy opening. -/
def Recovery.Tidy (h : Handler) : Recovery → Prop
  | .opening o => o.Tidy h
  | .replaying _ => h.Tidy

theorem Recovery.Tidy.handler {a : Recovery} (ha : a.Tidy h) : h.Tidy := by
  cases a with
  | opening o => exact ha.1
  | replaying pending => exact ha

theorem Recovery.Tidy.spared {A : Scope} {a : Recovery} (ha : a.Tidy h) (hs : h.Spares h')
    (ht : h.wire.Touches A h'.wire) : a.Tidy h' := by
  cases a with
  | opening o => exact Opening.Tidy.spared ha hs ht
  | replaying pending => exact hs.tidy ha

theorem spares_uses {A : Scope} (hA : A.Plain) (hu : Handler.Uses A h h') : h.Spares h' :=
  Handler.spares_of_touches hu.touches hu.slot hA.connect hA.close

theorem Recovery.tidy_step {fs : Features} {c : Bool} {a : Recovery}
    {pr : Progress Recovery (Except ClientError Unit)} (ha : a.Tidy h) (hs : a.step fs c h = some (h', pr)) :
    pr.Leaves (Recovery.Tidy h') h'.Tidy h'.Tidy := by
  have settled : ∀ {pending}, h'.Tidy → (settle pending).Leaves (Recovery.Tidy h') h'.Tidy h'.Tidy := by
    intro pending ht
    unfold settle
    split <;> exact ht
  cases turn_of_step hs with
  | opening ho | unopened ho => exact (Opening.moves_step ha ho).1
  | opened ho hpr => exact hpr ▸ settled (Opening.moves_step ha ho).1
  | replayed he hpr => exact hpr ▸ settled ((spares_uses plain_onChannel (uses_stepFirst he)).tidy ha)
  | refused he => exact (spares_uses plain_onChannel ((uses_stepFirst he).trans (uses_abandonAll _ _))).tidy ha

theorem spares_report (k : Kernel) (state : ConnectionState) (reason : StatusReason) :
    k.handler.Spares (k.report state reason).handler :=
  Handler.spares_of_touches (A := { statuses := fun _ => True }) (Touch.reported trivial).touches rfl
    (fun _ _ => False.elim) fun _ => False.elim

theorem keeps_tidy {fs : Features} {c : Bool} {granted : Kernel → ClientError → Kernel}
    (hg : ∀ (k : Kernel) e, k.handler.Spares (granted k e).handler) :
    Run.Keeps (recovery fs c granted) (fun k => k.handler.Tidy) (fun a k => a.Tidy k.handler)
      (fun k => k.handler.Tidy) := by
  have stepped : ∀ {k k' : Kernel} {a : Recovery} {pr}, a.Tidy k.handler →
      (recovery fs c granted).step k a = some (k', pr) →
      pr.Leaves (Recovery.Tidy k'.handler) k'.handler.Tidy k'.handler.Tidy := by
    intro k k' a pr ha hs
    obtain ⟨_, he, rfl⟩ := liftHandler_eq_some hs
    exact Recovery.tidy_step ha he
  exact {
    start := fun ht => ⟨ht, trivial⟩
    abandon := fun {k a} ha => (spares_uses plain_nothing (a.uses_abandon k.handler)).tidy ha.handler
    granted := fun e _ _ ht => (hg _ e).tidy ht
    more := fun ha hs => stepped ha hs
    ok := fun ha hs => stepped ha hs
    error := fun ha hs => stepped ha hs }

theorem keeps_opening (k₀ : Kernel) (token : Nat) :
    Run.Keeps (openAction k₀ token) (fun k => k.handler.Tidy) (fun a k => a.Tidy k.handler)
      (fun k => k.handler.Tidy) := keeps_tidy fun k _ => spares_report k _ _

theorem keeps_watching (k₀ : Kernel) (w : Watcher) :
    Run.Keeps (watcherAction k₀ w) (fun k => k.handler.Tidy) (fun a k => a.Tidy k.handler)
      (fun k => k.handler.Tidy) :=
  keeps_tidy fun k _ => spares_uses plain_nothing (Handler.Uses.refl k.handler)

/-! ## The regime -/

/-- A tidy slot while a run of attempts is on its way. -/
def Bringing (run : Run Recovery) (k : Kernel) : Prop :=
  run.Holds (fun k => k.handler.Tidy) (fun a k => a.Tidy k.handler) k

def OpenPhase.OnSessions (k : Kernel) : OpenPhase → Prop
  | .working run => k.Bringing run
  | _ => k.handler.Tidy

def WatchPhase.OnSessions (k : Kernel) : WatchPhase → Prop
  | .recovering run => k.Bringing run
  | _ => k.handler.Tidy

def tidyRegime : Regime where
  settled k := k.handler.Tidy
  opening ph k := ph.OnSessions k
  closing _ k := k.handler.Tidy
  toggling _ _ _ _ k := k.handler.Tidy
  watching _ ph k := ph.OnSessions k

theorem Aside.spares (ha : Aside k k') : k.handler.Spares k'.handler :=
  Handler.spares_of_touches ha.wire ha.slot (fun _ _ => False.elim) fun _ => False.elim

theorem Bringing.aside {run : Run Recovery} (ha : Aside k k') (hk : k.Bringing run) : k'.Bringing run := by
  unfold Bringing Run.Holds at hk ⊢
  split at hk
  · exact hk.spared ha.spares ha.wire
  · exact ha.spares.tidy hk

theorem OpenPhase.sessions_step {token : Nat} {ph : OpenPhase}
    {pr : Progress OpenPhase (Except ClientError Unit)} (hi : ph.stance = .inside) (hk : ph.OnSessions k)
    (hs : ph.step token p k = some (k', pr)) :
    pr.Leaves (fun ph' => tidyRegime.opener ph' k') k'.handler.Tidy k'.handler.Tidy := by
  cases turn_of_step hs with
  | @shared _ outcome | @concluded outcome => cases outcome <;> exact hk
  | began => exact ⟨hk, trivial⟩
  | overtaken => exact (keeps_opening k token).idle_abandon hk
  | @worked _ _ q _ ht =>
    have hq := ht.keeps (keeps_opening k token) hk
    cases q with
    | more run' => exact hq
    | done r =>
      cases r with
      | ok v => exact hq
      | error e => cases e <;> exact hq
  | reportedUp | reportedDown => exact (spares_report k _ _).tidy hk
  | refusedInside | admittedInside | found | own | late | raised | watched => exact hk
  | _ => cases hi

theorem ClosePhase.sessions_step {ph : ClosePhase} {pr : Progress ClosePhase (Except ClientError Unit)}
    (hi : ph.stance = .inside) (hk : k.handler.Tidy) (hs : ph.step p k = some (k', pr)) :
    pr.Leaves (fun ph' => tidyRegime.closer ph' k') k'.handler.Tidy k'.handler.Tidy := by
  cases turn_of_step hs with
  | lowered | loweredUnopened => exact hk
  | releasing hc | released hc | troubled hc => exact (Closing.moves_step hk hc).1
  | _ => cases hi

theorem WatchPhase.sessions_step {i : Nat} {w : Watcher} {ph ph' : WatchPhase} (hi : ph.stance = .inside)
    (hk : ph.OnSessions k) (hs : ph.step p k w = some (k', ph')) :
    tidyRegime.watcher i ph' (k'.setPhase i ph') := by
  cases turn_of_step hs with
  | announced => exact ⟨(spares_report k _ _).tidy hk, trivial⟩
  | paused | expired | reportedUp | reportedDown => exact (spares_report k _ _).tidy hk
  | resumed => exact ⟨hk, trivial⟩
  | worked ht hq =>
    have hl := ht.keeps (keeps_watching k w) hk
    cases hq with
    | goesOn | restored | failed => exact hl
    | @stopped r => cases r <;> exact hl
  | foundClosed | lowered | declined | granted | stoppedPausing | raised | watched => exact hk
  | _ => cases hi

theorem tidy_withInterval (interval : Option Span) : (Handler.withInterval interval).Tidy where
  numbered _ hc := absurd hc List.not_mem_nil
  connects := List.nodup_nil
  closes := List.nodup_nil
  known _ hs := absurd hs List.not_mem_nil
  closed _ hs := absurd hs List.not_mem_nil
  slot _ hs := by cases hs

theorem tidyRegime_kept : tidyRegime.Kept where
  reachable := id
  initial interval _ := tidy_withInterval interval
  settled_aside ha hk := ha.spares.tidy hk
  opening_aside {ph k k'} ha hk := by
    cases ph with
    | working => exact Bringing.aside ha hk
    | _ => exact ha.spares.tidy hk
  closing_aside ha hk := ha.spares.tidy hk
  toggling_aside ha hk := ha.spares.tidy hk
  watching_aside {_ ph k k'} ha hk := by
    cases ph with
    | recovering => exact Bringing.aside ha hk
    | _ => exact ha.spares.tidy hk
  enter_opening hk := hk
  enter_closing _ _ hk := hk
  enter_toggling _ _ hk := hk
  enter_watching hk := hk
  step_opening _ _ hi hk hs := OpenPhase.sessions_step hi hk hs
  step_closing _ _ hi hk hs := ClosePhase.sessions_step hi hk hs
  step_toggling {_ _ _ _ _ _ _ k' _ pr} _ _ _ hk hs := by
    have ht : k'.handler.Tidy := by
      cases Toggling.turn_of_step hs with
      | calling hg | changed hg | failed hg =>
        exact (spares_uses plain_onChannel (Subscribing.uses_step hg)).tidy hk
    cases pr with
    | more a => cases a <;> exact ht
    | done r => cases r <;> exact ht
  abandon_toggling {_ _ _ _ _ _ k g} _ _ _ _ hk :=
    (spares_uses plain_nothing (g.uses_abandon k.handler)).tidy hk
  step_watching _ _ hi hk hs := WatchPhase.sessions_step hi hk hs

theorem Bringing.tidy {run : Run Recovery} (hk : k.Bringing run) : k.handler.Tidy := by
  unfold Bringing Run.Holds at hk
  split at hk
  · exact Recovery.Tidy.handler hk
  · exact hk

/-- The session slot is always tidy. -/
theorem tidy_of_reachable (hr : k.Reachable) : k.handler.Tidy := by
  refine tidyRegime_kept.always hr id (fun {_ _ ph} _ _ hk => ?_) (fun _ _ hk => hk) (fun _ _ hk => hk)
    fun {_ w} _ _ hk => ?_
  · have hk : ph.OnSessions k := hk
    cases ph with
    | working run => exact Bringing.tidy hk
    | _ => exact hk
  · have hk : w.phase.OnSessions k := hk
    generalize w.phase = ph at hk
    cases ph with
    | recovering run => exact Bringing.tidy hk
    | _ => exact hk

theorem opening_tidy (hr : k.Reachable) {o : Opening} (hb : k.Brings o) : o.Tidy k.handler := by
  obtain ⟨run, hp, ⟨i, token, ht⟩ | ⟨i, w, hw, hph⟩⟩ := hb
  · have hk := tidyRegime_kept.opening_of_inside hr ht rfl
    simp only [tidyRegime, OpenPhase.OnSessions, Bringing, Run.Holds, hp] at hk
    exact hk
  · have hk := tidyRegime_kept.watching_of_inside hr hw (by rw [hph]; rfl)
    simp only [tidyRegime, WatchPhase.OnSessions, hph, Bringing, Run.Holds, hp] at hk
    exact hk

/-! ## All happenings -/

theorem deed_moves {P : Opening → Prop} (hd : h.Deed P h') (hP : ∀ o, P o → o.Tidy h) (ht : h.Tidy) :
    h.SlotMoves h' := by
  cases hd with
  | uses hA hu => exact .spared (spares_uses hA hu)
  | opens hp ho => exact (Opening.moves_step (hP _ hp) ho).2
  | closes hc => exact (Closing.moves_step ht hc).2
  | passes => exact .spared ⟨rfl, rfl, rfl, Nat.le_refl _, id⟩
  | refreshes hs =>
    obtain ⟨hslot, -, htouch⟩ := Handler.stepRefresher_slot hs
    exact .spared (Handler.spares_of_touches htouch hslot (fun _ _ => False.elim) fun _ => False.elim)
  | discards => exact .spared (Handler.spares_stop h)

theorem deed_refreshing {P : Opening → Prop} (hd : h.Deed P h') (hh : h.Refreshing) : h'.Refreshing := by
  cases hd with
  | uses _ hu => exact Handler.refreshing_uses hu hh
  | opens _ ho => exact Handler.refreshing_opens ho hh
  | closes hc => exact Handler.refreshing_closes hc hh
  | passes => exact hh.of_eq rfl rfl rfl rfl
  | refreshes hs => exact Handler.refreshing_refreshes hs hh
  | discards => exact Handler.refreshing_stop hh

/-- Whatever happens is one of the moves of the slot. -/
theorem moves_after (hr : k.Reachable) {e : Happening} (he : k.after e = some k') :
    k.handler.SlotMoves k'.handler := by
  have moved : ∀ {handler : Handler}, k.handler.Deed k.Brings handler → k.handler.SlotMoves handler :=
    fun hd => deed_moves hd (fun _ => opening_tidy hr) (tidy_of_reachable hr)
  obtain ⟨st, hdoes⟩ := does_after he
  cases hdoes with
  | silently hd _ => exact moved hd
  | telling st hd hh _ =>
    rw [hh]
    cases moved hd with
    | spared hs => exact .spared ⟨hs.slot, hs.connects, hs.closes, hs.sessions, hs.numbered⟩
    | dialled s hn hn' hc hcl => exact .dialled s hn hn' hc hcl
    | filled s hn hn' hc hcl => exact .filled s hn hn' hc hcl
    | emptied s hn hn' hc hcl => exact .emptied s hn hn' hc hcl

/-- Only the session in the slot is ever renewed. -/
theorem refreshing_of_reachable (hr : k.Reachable) : k.handler.Refreshing := by
  refine Reachable.induct (P := fun k => k.handler.Refreshing) (fun _ _ => ⟨nofun, fun _ => rfl⟩)
    (fun _ ih he => ?_) hr
  obtain ⟨st, hdoes⟩ := does_after he
  cases hdoes with
  | silently hd _ => exact deed_refreshing hd ih
  | telling st hd hh _ =>
    rw [hh]
    exact (deed_refreshing hd ih).of_eq rfl rfl rfl rfl

/-! ## Sessions that were opened -/

/-- In a step, whoever has asked a session to open is told that it is open. -/
def Connects (x : Kernel × Happening) (s : SessionId) : Prop :=
  ∃ p run a call w r, x.2 = Party.step p ∧ x.1.working? p = some (run, a, false) ∧
    run.phase = .acting (.opening (.connecting s call)) ∧ x.1.handler.wire.take? call = some (w, .ok r)

/-- In a step a session is asked to open, or is put into the slot. -/
def Raises (x : Kernel × Happening) (s : SessionId) : Prop :=
  ∃ k', x.1.after x.2 = some k' ∧
    (k'.handler.wire.connects = s :: x.1.handler.wire.connects ∨
      (x.1.handler.slot ≠ some s ∧ k'.handler.slot = some s))

theorem slot_of_turn {fs : Features} {granted : Kernel → ClientError → Kernel} {run : Run Recovery}
    {q : Progress (Run Recovery) (Except ClientError Unit)} {call : CallId} {w : Wire} {r : Reply}
    (hp : run.phase = .acting (.opening (.connecting s call)))
    (htake : k.handler.wire.take? call = some (w, .ok r))
    (h : Run.Turn (recovery fs false granted) false k run k' q) : k'.handler.slot = some s := by
  have stepped : ∀ {a k₁ pr}, run.phase = .acting a → (recovery fs false granted).step k a = some (k₁, pr) →
      k₁.handler.slot = some s ∧ ∀ e, pr ≠ .done (.error e) := by
    intro a k₁ pr hp' hs
    rw [hp] at hp'
    cases hp'
    obtain ⟨handler, he, rfl⟩ := liftHandler_eq_some hs
    simp only [Recovery.step, Opening.step_opened htake] at he
    cases he
    refine ⟨Handler.startRefresher_slot _ s, fun e hsettled => ?_⟩
    unfold Recovery.settle at hsettled
    split at hsettled <;> cases hsettled
  cases h with
  | cancelledActing hc | cancelledPausing hc => cases hc
  | advanced hp' hs | succeeded _ hp' hs => exact (stepped hp' hs).1
  | failed hp' hs | retried hp' hs => exact absurd rfl ((stepped hp' hs).2 _)
  | resumed hp' =>
    rw [hp] at hp'
    cases hp'

/-- A session that has come to be open is in the slot. -/
theorem slot_of_connects {e : Happening} (hc : Connects (k, e) s) (he : k.after e = some k') :
    k'.handler.slot = some s := by
  obtain ⟨p, run, a, call, w, r, rfl, hwork, hp, htake⟩ := hc
  rcases working?_cases hwork with ⟨i, token, rfl, ht, hl, hf, -⟩ | ⟨i, w, rfl, hw, hph, hst, -⟩
  · obtain ⟨o, k₁, t, ho, hs, rfl⟩ := stepTask_eq_some he
    cases ht.symm.trans ho
    obtain ⟨pr, hs, -⟩ := ofPart_eq_some hs
    cases OpenPhase.turn_of_step hs with
    | overtaken hover => exact absurd (hl.symm.trans hover) (by simp)
    | worked _ hturn =>
      rw [openAction, hf] at hturn
      have hslot := slot_of_turn hp htake hturn
      exact hslot
  · obtain ⟨w', k₁, ph, hw', hs, rfl⟩ := stepWatcher_eq_some he
    cases hw.symm.trans hw'
    rw [hph] at hs
    cases WatchPhase.turn_of_step hs with
    | worked hturn hq =>
      rw [watcherAction, hst] at hturn
      have hslot := slot_of_turn hp htake hturn
      cases hq <;> exact hslot

/-- A session that has come to be open is in the slot until it is asked to close. -/
theorem kept_of_path {interval : Option Span} {policy : Policy} (h : Path (initial interval policy) l k)
    {x : Kernel × Happening} (hx : x ∈ l) (hc : Connects x s) :
    k.handler.slot = some s ∨ s ∈ k.handler.wire.closes := by
  induction h with
  | refl => cases hx
  | @tail l k k' e hp he ih =>
    rcases List.mem_cons.mp hx with rfl | hx
    · exact .inl (slot_of_connects hc he)
    have hkept := ih hx
    cases moves_after (hp.reachable (reachable_initial interval policy)) he with
    | spared hs =>
      rw [hs.slot, hs.closes]
      exact hkept
    | dialled t hn _ _ hcl | filled t hn _ _ hcl =>
      -- The slot is empty when a session is asked for, so this one has left it already.
      rw [hn] at hkept
      rw [hcl]
      exact .inr (hkept.resolve_left nofun)
    | emptied t hn _ _ hcl =>
      rw [hn] at hkept
      rw [hcl]
      rcases hkept with ht | hm
      · cases ht
        exact .inr List.mem_cons_self
      · exact .inr (List.mem_cons_of_mem t hm)

/-- A session is brought up only while the slot is empty. -/
theorem slot_of_raises (hr : k.Reachable) {e : Happening} (h : Raises (k, e) s) : k.handler.slot = none := by
  obtain ⟨k', he, hraised⟩ := h
  have other : ∀ {l : List SessionId}, l ≠ s :: l := fun hl => by simpa using congrArg List.length hl
  cases moves_after hr he with
  | spared hs =>
    rcases hraised with hc | ⟨hne, hslot⟩
    · exact absurd (hs.connects.symm.trans hc) other
    · exact absurd (hs.slot.symm.trans hslot) hne
  | dialled t hn | filled t hn => exact hn
  | emptied t _ hn hc =>
    rcases hraised with hc' | ⟨-, hslot⟩
    · exact absurd (hc.symm.trans hc') other
    · exact absurd (hn.symm.trans hslot) nofun

/-- A session that has come to be open is in the slot and was not asked to close, or was so once. -/
theorem owned_of_path {interval : Option Span} {policy : Policy} (h : Path (initial interval policy) l k)
    {x : Kernel × Happening} (hx : x ∈ l) (hc : Connects x s) :
    (k.handler.slot = some s ∧ s ∉ k.handler.wire.closes) ∨
      (k.handler.slot ≠ some s ∧ k.handler.wire.closes.count s = 1) := by
  have ht := tidy_of_reachable (h.reachable (reachable_initial interval policy))
  by_cases hs : k.handler.slot = some s
  · exact .inl ⟨hs, (ht.slot s hs).2⟩
  · have hm := (kept_of_path h hx hc).resolve_left hs
    exact .inr ⟨hs, List.count_eq_one_of_mem ht.closes hm⟩

/-- In every run each session is asked to open and to close at most once. One whose opening has succeeded is in
the slot and was not asked to close, or is not there and was asked to close exactly once. A session is asked to
open or put into the slot only while the slot is empty, when all that were opened before have been asked to
close. At most one refresher was not stopped, and it renews the session in the slot. -/
theorem sessions_of_path {interval : Option Span} {policy : Policy} (h : Path (initial interval policy) l k) :
    k.handler.wire.connects.Nodup ∧ k.handler.wire.closes.Nodup ∧
    (∀ x ∈ l, ∀ s, Connects x s →
      (k.handler.slot = some s ∧ s ∉ k.handler.wire.closes) ∨
        (k.handler.slot ≠ some s ∧ k.handler.wire.closes.count s = 1)) ∧
    (∀ newer x older s, l = newer ++ x :: older → Raises x s →
      x.1.handler.slot = none ∧ ∀ y ∈ older, ∀ t, Connects y t → x.1.handler.wire.closes.count t = 1) ∧
    ∀ (i : Nat) (r : Refresher), k.handler.refreshers[i]? = some r → r.stopped = false →
      k.handler.slot = some r.session ∧
        ∀ (j : Nat) (r' : Refresher), k.handler.refreshers[j]? = some r' → r'.stopped = false → j = i := by
  have hr := h.reachable (reachable_initial interval policy)
  have ht := tidy_of_reachable hr
  have hrefresh := refreshing_of_reachable hr
  refine ⟨ht.connects, ht.closes, fun x hx s hc => owned_of_path h hx hc, fun newer x older s hl hraise => ?_,
    fun i r hi hun => ?_⟩
  · subst hl
    obtain ⟨hp, -⟩ := h.cut
    have hnone := slot_of_raises (hp.reachable (reachable_initial interval policy)) hraise
    refine ⟨hnone, fun y hy t hc => ?_⟩
    rcases owned_of_path hp hy hc with ⟨hslot, -⟩ | ⟨-, hcount⟩
    · exact absurd (hnone.symm.trans hslot) nofun
    · exact hcount
  · obtain ⟨hthis, hslot⟩ := hrefresh.unstopped hi hun
    refine ⟨hslot, fun j r' hj hun' => ?_⟩
    obtain ⟨hother, -⟩ := hrefresh.unstopped hj hun'
    exact Option.some.inj (hother.symm.trans hthis)

/-- The session of a first opening, which a first recovery replaces. -/
theorem firstRecovery_connects : ∃ k₀ k₁ k,
    (initial (some (.ofSeconds 60)) .standard).course (firstRecovery.take 14) = some k₀ ∧
      k₀.after (.stepTask 0) = some k₁ ∧ Connects (k₀, .stepTask 0) 0 ∧
      k₁.course (firstRecovery.drop 15) = some k ∧ k.handler.slot = some 1 :=
  ⟨_, _, _, rfl, rfl, ⟨.task 0, _, _, _, _, _, rfl, rfl, rfl, rfl⟩, rfl, rfl⟩

/-- After a first recovery the session of the first opening was asked to close once. -/
theorem sessions_of_path_firstRecovery : ∃ l k, Path (initial (some (.ofSeconds 60)) .standard) l k ∧
    k.handler.slot = some 1 ∧ k.handler.wire.closes.count 0 = 1 := by
  obtain ⟨k₀, k₁, k, h₀, he, hc, h₁, hslot⟩ := firstRecovery_connects
  obtain ⟨l₀, hp₀, -⟩ := path_of_course h₀
  obtain ⟨l₁, hp₁, -⟩ := path_of_course h₁
  have hp := (hp₀.tail _ he).trans hp₁
  have hm : (k₀, Happening.stepTask 0) ∈ l₁ ++ (k₀, .stepTask 0) :: l₀ :=
    List.mem_append_right l₁ List.mem_cons_self
  refine ⟨_, k, hp, hslot, ?_⟩
  rcases (sessions_of_path hp).2.2.1 _ hm 0 hc with ⟨hs, -⟩ | ⟨-, hcount⟩
  · exact absurd (hslot.symm.trans hs) (by simp)
  · exact hcount

end HubDevice.Kernel
