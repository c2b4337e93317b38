import HubDevice.Proofs.Kernel.Announcement
import HubDevice.Proofs.Retry.Series

/-!
# Attempts on record

The attempts that an open call or a watcher makes are read off the history of a run as `marks`. While a party
is inside the gate and no close or drop has begun, nothing that happens beside it changes what it is at work
on, and nothing is reported (`beside_of_after`). What all attempts have in common is `timed_recovery`: they
take several steps and no time of their own. `statusOf` is what the failures amount to for an observer.
-/

namespace HubDevice.Kernel

open FairLock Retry Wire

variable {A : Scope} {p : Party} {k k' : Kernel} {e : Happening} {l : List (Kernel × Happening)}
  {run : Run Recovery} {x : Action Kernel Recovery Unit}

/-! ## Marks -/

/-- Whether an attempt has yet to begin. -/
def Recovery.isStart : Recovery → Bool
  | .opening .start => true
  | _ => false

/-- The attempts that a party is at work on, and whether they have to stop. -/
def working? (k : Kernel) : Party → Option (Run Recovery × Action Kernel Recovery Unit × Bool)
  | .task i => match k.tasks[i]? with
    | some ⟨token, .opening (.working run)⟩ =>
      some (run, openAction k token, k.lifetimeOver || k.tokenFired token)
    | _ => none
  | .watcher i => k.watchers[i]?.bind fun w => match w.phase with
    | .recovering run => some (run, watcherAction k w, k.watcherStopped w)
    | _ => none

/-- The party that takes a step. -/
def Happening.party? : Happening → Option Party
  | .stepTask i => some (.task i)
  | .stepWatcher i => some (.watcher i)
  | _ => none

/-- The step of a party. -/
def Party.step : Party → Happening
  | .task i => .stepTask i
  | .watcher i => .stepWatcher i

theorem step_of_party (h : e.party? = some p) : e = p.step := by
  cases e <;> cases h <;> rfl

/-- What a happening notes of the attempts of a party. -/
def mark? (p : Party) (x : Kernel × Happening) : Option Mark :=
  if x.2.party? = some p then
    (x.1.working? p).bind fun r => r.1.mark? r.2.1 Recovery.isStart r.2.2 x.1
  else none

/-- What a run notes of the attempts of a party, the newest first. -/
def marks (p : Party) (l : List (Kernel × Happening)) : List Mark := l.filterMap (mark? p)

theorem marks_cons (y : Kernel × Happening) :
    marks p (y :: l) = (mark? p y).toList ++ marks p l := by
  unfold marks
  cases hm : mark? p y <;> simp [hm]

theorem marks_append (l l' : List (Kernel × Happening)) : marks p (l ++ l') = marks p l ++ marks p l' :=
  List.filterMap_append

theorem mark?_of_working (h : k.working? p = some (run, x, false)) :
    mark? p (k, p.step) = run.mark? x Recovery.isStart false k := by
  have hp : p.step.party? = some p := by cases p <;> rfl
  simp [mark?, hp, h]

theorem working?_of_task {i token : Nat} (ht : k.tasks[i]? = some ⟨token, .opening (.working run)⟩)
    (hl : k.lifetimeOver = false) (hf : k.tokenFired token = false) :
    k.working? (.task i) = some (run, openAction k token, false) := by
  simp [working?, ht, hl, hf]

theorem working?_of_watcher {i : Nat} {w : Watcher} (hw : k.watchers[i]? = some w)
    (hp : w.phase = .recovering run) (hst : k.watcherStopped w = false) :
    k.working? (.watcher i) = some (run, watcherAction k w, false) := by
  simp [working?, hw, hp, hst]

/-- What a party is at work on: an open call on its own attempts, a watcher on those of a recovery. -/
theorem working?_cases (h : k.working? p = some (run, x, false)) :
    (∃ i token, p = .task i ∧ k.tasks[i]? = some ⟨token, .opening (.working run)⟩ ∧ k.lifetimeOver = false ∧
      k.tokenFired token = false ∧ x = openAction k token) ∨
    ∃ i w, p = .watcher i ∧ k.watchers[i]? = some w ∧ w.phase = .recovering run ∧ k.watcherStopped w = false ∧
      x = watcherAction k w := by
  cases p with
  | task i =>
    simp only [working?] at h
    split at h
    · rename_i token r ht
      obtain ⟨rfl, hx, hc⟩ : r = run ∧ openAction k token = x ∧ (k.lifetimeOver || k.tokenFired token) = false := by
        simpa using h
      obtain ⟨hl, hf⟩ := Bool.or_eq_false_iff.mp hc
      exact .inl ⟨i, token, rfl, ht, hl, hf, hx.symm⟩
    · cases h
  | watcher i =>
    obtain ⟨w, hw, h⟩ := Option.bind_eq_some_iff.mp h
    split at h
    · rename_i r hp
      obtain ⟨rfl, hx, hc⟩ : r = run ∧ watcherAction k w = x ∧ k.watcherStopped w = false := by simpa using h
      exact .inr ⟨i, w, rfl, hw, hp, hc, hx.symm⟩
    · cases h

theorem mark?_of_ne {y : Kernel × Happening} (h : y.2.party? ≠ some p) : mark? p y = none := if_neg h

/-! ## Attempts -/

theorem Recovery.not_start_of_step {fs : Features} {c : Bool} {h h' : Handler} {a a' : Recovery}
    (hs : a.step fs c h = some (h', .more a')) : a'.isStart = false := by
  cases turn_of_step hs with
  | @opening _ o' _ ho =>
    have hne := Opening.ne_start_of_step ho
    cases o' <;> first | rfl | exact absurd rfl hne
  | opened _ hpr | replayed _ hpr =>
    unfold settle at hpr
    split at hpr <;> cases hpr
    rfl

theorem Recovery.not_start_of_done {fs : Features} {c : Bool} {h h' : Handler} {a : Recovery}
    {r : Except ClientError Unit} (hs : a.step fs c h = some (h', .done r)) : a.isStart = false := by
  have asked : ∀ {r}, Opening.step c h .start ≠ some (h', .done r) := by
    intro r hs
    simp only [Opening.step, Opening.create_eq] at hs
    split at hs <;> cases hs
  cases turn_of_step hs with
  | replayed | refused => rfl
  | @opened o _ _ ho | @unopened o _ _ ho =>
    cases o with
    | start => exact absurd ho asked
    | _ => rfl

theorem timed_recovery {fs : Features} {c : Bool} {granted : Kernel → ClientError → Kernel}
    (hg : ∀ k e, (granted k e).handler.now = k.handler.now) :
    Run.Timed (recovery fs c granted) Recovery.isStart where
  start := rfl
  more hs := by
    obtain ⟨_, he, -⟩ := liftHandler_eq_some hs
    exact Recovery.not_start_of_step he
  done hs := by
    obtain ⟨_, he, -⟩ := liftHandler_eq_some hs
    exact Recovery.not_start_of_done he
  now hs := by
    obtain ⟨_, he, rfl⟩ := liftHandler_eq_some hs
    exact Recovery.now_step he
  granted k e _ _ := hg k e

/-! ## What happens beside a party -/

/-- What the gate protects is left alone, and nothing is reported. -/
structure Unseen (k k' : Kernel) : Prop extends Aside k k' where
  reports : k'.handler.wire.reports = k.handler.wire.reports

/-- What a party is at work on is left alone as well. -/
structure Beside (p : Party) (k k' : Kernel) : Prop extends Unseen k k' where
  task : ∀ {i : Nat} {o}, p = .task i → k.tasks[i]? = some o → k'.tasks[i]? = some o
  post : ∀ {i : Nat} {q}, p = .watcher i → k.posts[i]? = some q → k'.posts[i]? = some q

/-- Whoever is not inside leaves alone what the gate protects. -/
theorem aside_after (ho : k.Orderly) (he : k.after e = some k')
    (hq : ∀ q, e.party? = some q → k.stance q ≠ .inside) : Aside k k' := by
  rcases after_cases he with ⟨i, rfl, hs⟩ | ⟨i, rfl, hs⟩ | hb
  · exact aside_stepTask ho hs (hq _ rfl)
  · exact aside_stepWatcher ho hs (hq _ rfl)
  · exact hb.toAside

/-- The phases in which an open call that has the gate works on the connection. -/
def OpenPhase.Works : OpenPhase → Prop
  | .working _ | .raiseLink | .startWatcher | .reportUp | .reportDown _ | .conclude _ => True
  | _ => False

/-- Where an operation that has the gate works on the connection. -/
def Task.Works : Task → Prop
  | .opening ph => ph.Works
  | .closing ph => ph.stance = .inside
  | .toggling _ _ _ run => ∃ g, run.phase = .acting (.calling g)
  | _ => False

/-- A party that works on the connection is inside the gate. -/
theorem Task.Works.inside {t : Task} (h : t.Works) : t.stance = .inside := by
  cases t with
  | ready | running | ended => exact h.elim
  | opening ph => cases ph <;> first | exact h.elim | rfl
  | closing ph => exact h
  | toggling f enable edge run =>
    obtain ⟨g, hg⟩ := h
    simp [stance, runStance, hg, Toggling.stance]

/-- As long as no close or drop begins, only an operation at work reports anything. -/
theorem Task.silent {t : Task} {st : Status} (hd : t.Due k) (hl : k.lifetimeOver = false) (ht : ¬ t.Works) :
    ¬ t.scope.statuses st := by
  intro hst
  rcases Task.reporting hst with ⟨ph, rfl, hst⟩ | ⟨ph, rfl, hst⟩
  · cases ph <;> first | exact hst.elim | exact absurd trivial ht
  · cases ph with
    | reportTrouble | reportClosed =>
      rw [hd.2.1] at hl
      cases hl
    | releasing => exact absurd rfl ht
    | _ => exact hst.elim

theorem WatchPhase.silent {ph : WatchPhase} {st : Status} (hp : ph.stance ≠ .inside) :
    ¬ ph.scope.statuses st := by
  cases ph <;> first | exact id | exact absurd rfl hp

/-- As long as no close or drop begins, only operations at work and watchers inside the gate report anything. -/
theorem reports_of_idle (ho : k.Orderly) (hl : k.lifetimeOver = false) (he : k.after e = some k')
    (ht : ∀ {i : Nat} {o}, e = .stepTask i → k.tasks[i]? = some o → ¬ o.task.Works)
    (hw : ∀ {i : Nat}, e = .stepWatcher i → k.stance (.watcher i) ≠ .inside) :
    k'.handler.wire.reports = k.handler.wire.reports := by
  obtain ⟨A, htouch⟩ := wire_after ho he
  obtain ⟨new, hn, -⟩ := htouch.reports
  cases new with
  | nil => exact hn
  | cons st rest =>
    rcases reporter_after ho he hn List.mem_cons_self with ⟨i, o, rfl, hi, hst⟩ | ⟨i, w, rfl, hi, hst⟩
    · exact absurd hst (Task.silent (ho.due hi) hl (ht rfl hi))
    · have hout := hw (i := i) rfl
      rw [stance_of_watchers hi] at hout
      exact absurd hst (WatchPhase.silent hout)

/-- As long as no close or drop begins, only parties inside the gate report anything. -/
theorem reports_after (ho : k.Orderly) (hl : k.lifetimeOver = false) (he : k.after e = some k')
    (hq : ∀ q, e.party? = some q → k.stance q ≠ .inside) :
    k'.handler.wire.reports = k.handler.wire.reports :=
  reports_of_idle ho hl he (fun he ht hw => hq _ (he ▸ rfl) ((stance_of_tasks ht).trans hw.inside))
    fun he => hq _ (he ▸ rfl)

/-- Nobody else is inside the gate. -/
def Unrivalled (k : Kernel) (p : Party) : Prop := ∀ q, q ≠ p → k.stance q ≠ .inside

theorem unrivalled_of_inside (ho : k.Orderly) (hi : k.stance p = .inside) : k.Unrivalled p :=
  fun _ hne hq => hne (ho.eq_of_inside hq hi)

theorem unrivalled_of_holder (ho : k.Orderly) (hh : ∀ q, k.gate.holder = some q → q = p) : k.Unrivalled p :=
  fun q hne hq => hne (hh q (ho.holder hq))

/-- The post of a watcher stays unless the watcher takes a step. -/
theorem posts_of_ne (ho : k.Orderly) (he : k.after e = some k') {i : Nat}
    (hne : e.party? ≠ some (.watcher i)) {q : Option SessionId × WatchPhase} (hq : k.posts[i]? = some q) :
    k'.posts[i]? = some q := by
  have kept : ∀ new, (k.posts ++ new)[i]? = some q := fun new => by
    rw [List.getElem?_append_left (List.getElem?_eq_some_iff.mp hq).1]
    exact hq
  rcases after_cases he with ⟨j, -, hs⟩ | ⟨j, rfl, hs⟩ | hb
  · obtain ⟨-, new, hnew, -⟩ := others_stepTask ho hs
    rw [hnew]
    exact kept new
  · obtain ⟨-, new, -, -, hposts⟩ := others_stepWatcher hs
    rw [hposts i fun hij => hne (hij ▸ rfl)]
    exact kept new
  · rw [hb.posts]
    exact hq

/-- What happens beside a party, with nobody else inside the gate. -/
theorem beside_of_after (ho : k.Orderly) (hs : k.Unrivalled p) (hl : k.lifetimeOver = false)
    (he : k.after e = some k') (hne : e.party? ≠ some p) : Beside p k k' := by
  have hq : ∀ q, e.party? = some q → k.stance q ≠ .inside := fun q hq => hs q fun hqp => hne (hqp ▸ hq)
  refine { aside_after ho he hq with task := ?_, post := ?_, reports := reports_after ho hl he hq }
  · rintro i o rfl ht
    rcases tasks_after ho he i with hi | ⟨hn, -⟩ | ⟨_, _, _, rfl, -⟩
    · exact hi.trans ht
    · rw [hn] at ht
      cases ht
    · exact absurd rfl hne
  · rintro i q rfl hp
    exact posts_of_ne ho he hne hp

/-! ## What an observer sees -/

/-- The reason that is reported when the connection cannot be brought up. -/
def failureReason : ClientError → StatusReason
  | .transport (.unauthorized _) => .badCredential
  | .transport (.deviceNotFound _) => .deviceDisabled
  | e => if e.transient then .retryExpired else .communicationError

/-- The report that the connection is being restored. -/
def retrying : Status := ⟨.retrying, .communicationError⟩

/-- The report of how bringing the connection up has ended. -/
def finalStatus : Except ClientError Unit → Status
  | .ok _ => ⟨.connected, .connectionOk⟩
  | .error e => ⟨.disconnected, failureReason e⟩

theorem statusOf_final {P : Policy} (hP : P.transient = ClientError.transient) (e : ClientError) :
    statusOf P e true = finalStatus (.error e) := by
  unfold statusOf
  rw [hP]
  cases e with
  | transport t => cases t <;> rfl
  | _ => rfl

theorem statusOf_granted {P : Policy} (hP : P.transient = ClientError.transient) {e : ClientError}
    (he : e.transient = true) : statusOf P e false = retrying := by
  unfold statusOf
  rw [hP]
  split
  · cases he
  · cases he
  · simp [he, retrying]

/-- What an observer sees of a kernel, compared with an earlier one: what was reported since, and where the
link stands; the features are the same. -/
structure Shows (k : Kernel) (said : List Status) (link : LinkState) (k' : Kernel) : Prop where
  reports : k'.handler.wire.reports = said ++ k.handler.wire.reports
  link : k'.link = link
  features : k'.features = k.features

variable {k₀ : Kernel} {said : List Status} {link : LinkState}

theorem shows_refl (k : Kernel) : k.Shows [] k.link k := ⟨rfl, rfl, rfl⟩

theorem Shows.unseen (h : k₀.Shows said link k) (hb : Unseen k k') : k₀.Shows said link k' where
  reports := hb.reports.trans h.reports
  link := hb.link.trans h.link
  features := hb.features.trans h.features

/-- Reports are on the wire: without it, nothing is seen but the link. -/
theorem Shows.of_handler {link' : LinkState} (h : k₀.Shows said link k) (hh : k'.handler = k.handler)
    (hf : k'.features = k.features) (hl : k'.link = link') : k₀.Shows said link' k' where
  reports := (congrArg (fun h : Handler => h.wire.reports) hh).trans h.reports
  link := hl
  features := hf.trans h.features

/-- Whoever reports nothing on the way changes nothing to be seen. -/
theorem Shows.relays (h : k₀.Shows said link k) (hr : k.Relays A k') (hA : ∀ st, ¬ A.statuses st) :
    k₀.Shows said link k' where
  reports := (hr.touches.reports_eq hA).trans h.reports
  link := hr.link_eq.trans h.link
  features := hr.features_eq.trans h.features

theorem Shows.report (h : k₀.Shows said link k) (st : Status) :
    k₀.Shows (st :: said) link (k.report st.state st.reason) where
  reports := congrArg (st :: ·) h.reports
  link := h.link
  features := h.features

theorem Shows.setLink (h : k₀.Shows said link k) (link' : LinkState) :
    k₀.Shows said link' (k.setLink link') := ⟨h.reports, rfl, h.features⟩

end HubDevice.Kernel
