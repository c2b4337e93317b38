import HubDevice.Agent.Publishing
import HubDevice.Proofs.Concurrent.History
import HubDevice.Proofs.Concurrent.Watched

/-!
# The pace of the publishing loop

A `Scene` is a publishing loop among its surroundings, which may change in any way while it works or waits. What a step
of the loop can do is listed in `Loop.Turn`, and `Scene.Sound` says what is known of a scene from its history: which
wait was completed since the publisher answered last, and that readiness was observed since. Every happening keeps it
(`Scene.sound_after`). No clock has the time at which the longest of all intervals will have passed, so that it need not
have passed between two readings (`Scene.early_of_longest`); any interval has whose end the clock knows (`Scene.paced`).
-/

namespace HubDevice.Publishing

variable {σ : Type} {draw? : σ → Option ((Reading × Bool) × σ)} {v : View} {l l' : Loop σ}

/-! ## Steps of the loop -/

/-- The loop waits for the interval. -/
inductive Phase.Waits : Phase → Prop
  | arm (period : Span) : Waits (.arm period)
  | pausing (deadline : Nat) : Waits (.pausing deadline)

/-- What one step of the loop can do. -/
inductive Loop.Turn (draw? : σ → Option ((Reading × Bool) × σ)) (v : View) (l : Loop σ) : Loop σ → Prop
  | ready (phase : l.phase = .check) (readiness : v.readiness.value.isReady = true) :
      Turn draw? v l { l with phase := .take }
  | unready (phase : l.phase = .check) (readiness : v.readiness.value.isReady = false) :
      Turn draw? v l { l with phase := .awaitReady .subscribe }
  /-- It is cancelled while it waits for readiness. -/
  | dropped {w : Readiness.Waiting} (phase : l.phase = .awaitReady w) (cancelled : v.cancelled = true) :
      Turn draw? v l { l with phase := .ended }
  | awaiting {w w' : Readiness.Waiting} (phase : l.phase = .awaitReady w)
      (step : w.step v.readiness = some (.more w')) : Turn draw? v l { l with phase := .awaitReady w' }
  | awaited {w : Readiness.Waiting} {ready : Bool} (phase : l.phase = .awaitReady w)
      (step : w.step v.readiness = some (.done ready)) :
      Turn draw? v l { l with phase := if ready then .take else .ended }
  | drawn {r : Reading} {alert : Bool} {simulator : σ} (phase : l.phase = .take)
      (draw : draw? l.simulator = some ((r, alert), simulator)) :
      Turn draw? v l { l with simulator, phase := .publishing r alert }
  | undrawn (phase : l.phase = .take) (draw : draw? l.simulator = none) : Turn draw? v l { l with phase := .failed }
  | read (phase : l.phase = .readInterval) : Turn draw? v l { l with phase := .arm v.interval.value }
  /-- It is cancelled while it waits for the interval. -/
  | cancelled (waits : l.phase.Waits) (cancelled : v.cancelled = true) : Turn draw? v l { l with phase := .ended }
  | changed (waits : l.phase.Waits) (notice : v.interval.notice? l.seen = some .changed) :
      Turn draw? v l { l with seen := v.interval.version, phase := .arm v.interval.value }
  | gone (waits : l.phase.Waits) (notice : v.interval.notice? l.seen = some .gone) :
      Turn draw? v l { l with phase := .ended }
  | armed {period : Span} (phase : l.phase = .arm period) (notice : v.interval.notice? l.seen = none) :
      Turn draw? v l { l with phase := if period.isZero then .check else .pausing (period.deadline v.now) }
  | elapsed {deadline : Nat} (phase : l.phase = .pausing deadline) (notice : v.interval.notice? l.seen = none)
      (due : deadline ≤ v.now) : Turn draw? v l { l with phase := .check }

theorem Loop.turn_of_step (h : l.step draw? v = some l') : l.Turn draw? v l' := by
  unfold step at h
  split at h
  all_goals rename_i hp
  · cases h
    cases hr : v.readiness.value.isReady
    · exact .unready hp hr
    · exact .ready hp hr
  · split at h
    · cases h
      exact .dropped hp ‹_›
    · split at h <;> cases h <;> rename_i hs
      · exact .awaiting hp hs
      · exact .awaited hp hs
      · exact .awaited hp hs
  · split at h <;> cases h <;> rename_i hd
    · exact .undrawn hp hd
    · exact .drawn hp hd
  · cases h
  · cases h
    exact .read hp
  · have hw : l.phase.Waits := hp ▸ .arm _
    split at h
    · cases h
      exact .cancelled hw ‹_›
    · split at h <;> cases h <;> rename_i hn
      · exact .changed hw hn
      · exact .gone hw hn
      · exact .armed hp hn
  · have hw : l.phase.Waits := hp ▸ .pausing _
    split at h
    · cases h
      exact .cancelled hw ‹_›
    · split at h
      · cases h
        exact .changed hw ‹_›
      · cases h
        exact .gone hw ‹_›
      · split at h <;> cases h
        exact .elapsed hp ‹_› ‹_›
  · cases h
  · cases h

theorem Loop.published_error (l : Loop σ) (e : ClientError) : l.published (.error e) =
    { l with phase := if e = .cancelled ∨ e = .disposed then .ended else .readInterval } := by
  cases e <;> simp [published]

/-! ## Scenes -/

/-- A publishing loop and its surroundings. -/
structure Scene (σ : Type) where
  loop : Loop σ
  view : View

namespace Scene

/-- What can happen to a publishing loop. -/
inductive Happening where
  | step
  /-- The publisher answers. -/
  | answer (result : Except ClientError Unit)
  | setReadiness (r : Readiness)
  | dropReadiness
  | changeInterval (s : Span)
  | dropInterval
  | cancel
  /-- Time passes, by a number of milliseconds. -/
  | pass (ms : Nat)

/-- What a happening leads to. -/
def after (draw? : σ → Option ((Reading × Bool) × σ)) (x : Scene σ) : Happening → Option (Scene σ)
  | .step => (x.loop.step draw? x.view).map fun loop => { x with loop }
  | .answer r => match x.loop.phase with
    | .publishing _ _ => some { x with loop := x.loop.published r }
    | _ => none
  | .setReadiness r => some { x with view := { x.view with readiness := x.view.readiness.set r } }
  | .dropReadiness => some { x with view := { x.view with readiness := x.view.readiness.close } }
  | .changeInterval s => some { x with view := { x.view with interval := x.view.interval.change s } }
  | .dropInterval => some { x with view := { x.view with interval := x.view.interval.close } }
  | .cancel => some { x with view := { x.view with cancelled := true } }
  | .pass ms => some { x with view := { x.view with now := x.view.now + ms } }

/-- A loop that was just started, in any surroundings. -/
def start (simulator : σ) (view : View) : Scene σ := ⟨{ simulator, seen := view.interval.version }, view⟩

/-- A publication that is answered with success. -/
def Happening.isSent : Happening → Bool
  | .answer (.ok ()) => true
  | _ => false

/-! What a step of a run is to the loop. -/

/-- A step of the loop brings it to a phase. -/
def Comes (draw? : σ → Option ((Reading × Bool) × σ)) (x : Scene σ × Happening) (ph : Phase) : Prop :=
  x.2 = .step ∧ ∃ x', x.1.after draw? x.2 = some x' ∧ x'.loop.phase = ph

/-- A reading is handed to the publisher. -/
def Begins (draw? : σ → Option ((Reading × Bool) × σ)) (x : Scene σ × Happening) : Prop :=
  ∃ r alert, Comes draw? x (.publishing r alert)

/-- The publisher answers. -/
def Answers (x : Scene σ × Happening) : Prop := ∃ r, x.2 = .answer r

/-- The loop sees that the device is ready, and goes on. -/
def Observes (draw? : σ → Option ((Reading × Bool) × σ)) (x : Scene σ × Happening) : Prop :=
  x.1.view.readiness.value.isReady = true ∧ Comes draw? x .take

/-- The wait for the interval is over. -/
def Completes (draw? : σ → Option ((Reading × Bool) × σ)) (x : Scene σ × Happening) : Prop := Comes draw? x .check

/-- The loop ends. -/
def Ends (draw? : σ → Option ((Reading × Bool) × σ)) (x : Scene σ × Happening) : Prop :=
  x.1.loop.phase ≠ .ended ∧ ∃ x', x.1.after draw? x.2 = some x' ∧ x'.loop.phase = .ended

/-- Why a loop ends: it is cancelled, the publisher answers that it was cancelled or that the client is closed, or nobody
tells any more whether the device is ready, or how long to wait. -/
inductive Stops : Scene σ × Happening → Prop
  | cancelled {x : Scene σ} : x.view.cancelled = true → Stops (x, .step)
  | refused {x : Scene σ} {e : ClientError} : e = .cancelled ∨ e = .disposed → Stops (x, .answer (.error e))
  | unready {x : Scene σ} {w : Readiness.Waiting} : x.loop.phase = .awaitReady w → x.view.readiness.closed = true →
      Stops (x, .step)
  | adrift {x : Scene σ} : x.loop.phase.Waits → x.view.interval.closed = true → Stops (x, .step)

/-- In its wait for the interval the loop sees that it is cancelled. -/
def SeesCancellation (x : Scene σ × Happening) : Prop :=
  x.2 = .step ∧ x.1.loop.phase.Waits ∧ x.1.view.cancelled = true

/-- An interval has passed between two times. Where no clock has the time at which it will have, thirty years have. -/
def Passed (interval : Span) (since now : Nat) : Prop :=
  since * 10 ^ 6 + interval.nanos ≤ now * 10 ^ 6 ∨
    Span.clockEnd ≤ since * 10 ^ 6 + interval.nanos ∧ since + Span.farFuture ≤ now

/-- A completed wait, the newest step first: the interval was the same all the time, and it has passed. -/
structure Wait (draw? : σ → Option ((Reading × Bool) × σ)) (w : List (Scene σ × Happening))
    (first last : Scene σ × Happening) : Prop where
  oldest : w.getLast? = some first
  newest : w.head? = some last
  completed : Completes draw? last
  steady : ∀ m ∈ w, m.1.view.interval = last.1.view.interval
  passed : Passed last.1.view.interval.value first.1.view.now last.1.view.now

variable {x x' s s' : Scene σ} {e : Happening} {h : List (Scene σ × Happening)} {simulator : σ} {view : View}
  {ph : Phase}

/-! ## What is known from the history -/

/-- The publisher has not answered since a wait was completed, or at all. -/
def Rested (draw? : σ → Option ((Reading × Bool) × σ)) (h : List (Scene σ × Happening)) : Prop :=
  (∀ m ∈ h, ¬ Answers m) ∨
    ∃ newer w older first last, h = newer ++ w ++ older ∧ Wait draw? w first last ∧ ∀ m ∈ newer ++ w, ¬ Answers m

/-- Readiness was observed, and no wait has been completed since. -/
def Observed (draw? : σ → Option ((Reading × Bool) × σ)) (h : List (Scene σ × Happening)) : Prop :=
  ∃ since y before, h = since ++ y :: before ∧ Observes draw? y ∧ ∀ z ∈ since, ¬ Completes draw? z

/-- The loop waits until a deadline for the interval in force, which has not changed since it began to. -/
def Pausing (deadline : Nat) (h : List (Scene σ × Happening)) (s : Scene σ) : Prop :=
  ∃ w older first, h = w ++ older ∧ w.getLast? = some first ∧
    s.view.interval.value.deadline first.1.view.now ≤ deadline ∧
    ∀ m ∈ w, m.1.view.interval = s.view.interval ∧ ¬ Answers m

/-- What is known of a phase. What is known of a wait counts as long as there is nothing new about the interval. -/
def PhaseSound (draw? : σ → Option ((Reading × Bool) × σ)) (h : List (Scene σ × Happening)) (s : Scene σ) :
    Phase → Prop
  | .check => Rested draw? h
  | .awaitReady w => Rested draw? h ∧ w ≠ .look true
  | .take => Rested draw? h ∧ Observed draw? h
  | .publishing _ _ | .readInterval => True
  | .arm period => s.view.interval.notice? s.loop.seen = none → s.view.interval.value = period
  | .pausing deadline => s.view.interval.notice? s.loop.seen = none → Pausing deadline h s
  | .ended => ∃ x ∈ h, Ends draw? x ∧ Stops x
  | .failed => ∃ x ∈ h, x.2 = .step ∧ x.1.loop.phase = .take ∧ draw? x.1.loop.simulator = none

/-- What is known of a scene from its history. -/
structure Sound (draw? : σ → Option ((Reading × Bool) × σ)) (h : List (Scene σ × Happening)) (s : Scene σ) : Prop where
  seen : s.loop.seen ≤ s.view.interval.version
  sent : s.loop.sent = h.countP fun x => x.2.isSent
  phase : PhaseSound draw? h s s.loop.phase

theorem sound_start : Sound draw? [] (start simulator view) where
  seen := Nat.le_refl _
  sent := rfl
  phase := .inl (List.forall_mem_nil _)

theorem Rested.cons (hr : Rested draw? h) (he : ¬ Answers (x, e)) : Rested draw? ((x, e) :: h) := by
  rcases hr with hno | ⟨newer, w, older, first, last, rfl, hw, hno⟩
  · exact .inl (List.forall_mem_cons.mpr ⟨he, hno⟩)
  · exact .inr ⟨(x, e) :: newer, w, older, first, last, rfl, hw, List.forall_mem_cons.mpr ⟨he, hno⟩⟩

theorem Observed.cons (ho : Observed draw? h) (he : ¬ Completes draw? (x, e)) : Observed draw? ((x, e) :: h) := by
  obtain ⟨since, y, before, rfl, hy, hno⟩ := ho
  exact ⟨(x, e) :: since, y, before, rfl, hy, List.forall_mem_cons.mpr ⟨he, hno⟩⟩

theorem observed_of_step (hready : x.view.readiness.value.isReady = true) (hc : Comes draw? (x, e) .take) :
    Observed draw? ((x, e) :: h) :=
  ⟨[], (x, e), h, rfl, ⟨hready, hc⟩, List.forall_mem_nil _⟩

/-! ## What the surroundings do -/

/-- Whatever else happens leaves the loop alone, and unless there is something new about the interval this is as it was. -/
theorem loop_after (he : x.after draw? e = some x') (hs : e ≠ .step) (ha : ¬ Answers (x, e))
    (hseen : x.loop.seen ≤ x.view.interval.version) :
    x'.loop = x.loop ∧ x.loop.seen ≤ x'.view.interval.version ∧
      (x'.view.interval.notice? x.loop.seen = none → x'.view.interval = x.view.interval) := by
  cases e with
  | step => exact absurd rfl hs
  | answer r => exact absurd ⟨r, rfl⟩ ha
  | setReadiness | dropReadiness | cancel | pass =>
    cases he
    exact ⟨rfl, hseen, fun _ => rfl⟩
  | changeInterval s =>
    cases he
    show _ ∧ _ ≤ (x.view.interval.change s).version ∧ ((x.view.interval.change s).notice? _ = none → _)
    unfold Interval.change
    split
    · exact ⟨rfl, hseen, fun _ => rfl⟩
    · refine ⟨rfl, Nat.le_succ_of_le hseen, fun hn => ?_⟩
      have hsame : x.view.interval.version + 1 = x.loop.seen := (Watched.notice?_eq_none.mp hn).1
      omega
  | dropInterval =>
    cases he
    refine ⟨rfl, hseen, fun hn => ?_⟩
    have hopen : true = false := (Watched.notice?_eq_none.mp hn).2
    cases hopen

theorem Sound.surroundings (h' : Sound draw? h x) (he : x.after draw? e = some x') (hs : e ≠ .step)
    (ha : ¬ Answers (x, e)) : Sound draw? ((x, e) :: h) x' := by
  obtain ⟨hseen, hsent, hphase⟩ := h'
  obtain ⟨hloop, hseen', hinterval⟩ := loop_after he hs ha hseen
  have hunsent : e.isSent = false := by
    cases e with
    | answer r => exact absurd ⟨r, rfl⟩ ha
    | _ => rfl
  refine ⟨hloop ▸ hseen', by rw [hloop, hsent, List.countP_cons_of_neg (by simp [hunsent])], ?_⟩
  rw [hloop]
  generalize hph : x.loop.phase = ph at hphase ⊢
  have hcomes : ∀ ph, ¬ Comes draw? (x, e) ph := fun _ hc => hs hc.1
  cases ph with
  | check => exact Rested.cons hphase ha
  | awaitReady w => exact ⟨hphase.1.cons ha, hphase.2⟩
  | take => exact ⟨hphase.1.cons ha, hphase.2.cons (hcomes _)⟩
  | publishing | readInterval => trivial
  | arm period =>
    intro hn
    rw [hloop] at hn
    have heq := hinterval hn
    rw [heq] at hn ⊢
    exact hphase hn
  | pausing deadline =>
    intro hn
    rw [hloop] at hn
    have heq := hinterval hn
    rw [heq] at hn
    obtain ⟨w, older, first, rfl, hfirst, hdue, hsteady⟩ := hphase hn
    refine ⟨(x, e) :: w, older, first, rfl, by simp [List.getLast?_cons, hfirst], by rwa [heq], ?_⟩
    rw [heq]
    exact List.forall_mem_cons.mpr ⟨⟨rfl, ha⟩, hsteady⟩
  | ended =>
    obtain ⟨y, hy, hends⟩ := hphase
    exact ⟨y, List.mem_cons_of_mem _ hy, hends⟩
  | failed =>
    obtain ⟨y, hy, hfails⟩ := hphase
    exact ⟨y, List.mem_cons_of_mem _ hy, hfails⟩

theorem Sound.answered {r : Except ClientError Unit} (h' : Sound draw? h x)
    (he : x.after draw? (.answer r) = some x') : Sound draw? ((x, .answer r) :: h) x' := by
  obtain ⟨hseen, hsent, -⟩ := h'
  have hafter := he
  simp only [after] at he
  split at he
  · rename_i r' alert hph
    cases he
    cases r with
    | ok u => exact ⟨hseen, by simp [Loop.published, hsent, Happening.isSent], trivial⟩
    | error e =>
      rw [Loop.published_error] at hafter ⊢
      refine ⟨hseen, hsent.trans (List.countP_cons_of_neg (by simp [Happening.isSent])).symm, ?_⟩
      dsimp only
      split
      · rename_i hwhy
        exact ⟨_, List.mem_cons_self, ⟨by simp [hph], _, hafter, if_pos hwhy⟩, .refused hwhy⟩
      · trivial
  · cases he

/-! ## What the loop does -/

/-- A wait for readiness goes on, or ends because the device is ready or nobody tells any more whether it is. -/
theorem readiness_of_step {w : Readiness.Waiting} {r : Watched Readiness} {p : Progress Readiness.Waiting Bool}
    (hw : w ≠ .look true) (hs : w.step r = some p) :
    (∃ w', p = .more w' ∧ w' ≠ .look true) ∨ p = .done true ∧ r.value.isReady = true ∨ p = .done false ∧ r.closed = true := by
  cases w with
  | subscribe =>
    cases hs
    exact .inl ⟨_, rfl, nofun⟩
  | look last =>
    have hlast : last = false := by
      cases last with
      | false => rfl
      | true => exact absurd rfl hw
    subst hlast
    simp only [Readiness.Waiting.step] at hs
    split at hs
    · cases hs
      exact .inr (.inl ⟨rfl, ‹_›⟩)
    · cases hs
      exact .inl ⟨_, rfl, nofun⟩
  | parked seen =>
    simp only [Readiness.Waiting.step] at hs
    split at hs
    · cases hs
      exact .inl ⟨_, rfl, nofun⟩
    · rename_i hn
      cases hs
      exact .inr (.inr ⟨rfl, (Watched.notice?_eq_gone.mp hn).2⟩)
    · cases hs

/-- An interval has passed when the wait for it is over. -/
theorem passed_of_deadline {interval : Span} {since now : Nat} (h : interval.deadline since ≤ now) :
    Passed interval since now := by
  have hticks : interval.nanos ≤ interval.ticks * 10 ^ 6 := by
    unfold Span.ticks
    omega
  unfold Span.deadline at h
  unfold Passed
  split at h <;> omega

/-- A wait is completed in a step before which it was waited for as long as necessary. -/
theorem Rested.completed {l' : Loop σ} {w older : List (Scene σ × Happening)} {first : Scene σ × Happening}
    (he : x.after draw? .step = some { x with loop := l' }) (hl : l'.phase = .check)
    (hfirst : ((x, .step) :: w).getLast? = some first)
    (hdue : x.view.interval.value.deadline first.1.view.now ≤ x.view.now)
    (hsteady : ∀ m ∈ w, m.1.view.interval = x.view.interval ∧ ¬ Answers m) :
    Rested draw? ((x, .step) :: (w ++ older)) := by
  have hquiet : ¬ Answers (x, .step) := fun ⟨_, hr⟩ => nomatch hr
  refine .inr ⟨[], (x, .step) :: w, older, first, (x, .step), rfl,
    ⟨hfirst, rfl, ⟨rfl, _, he, hl⟩, ?_, passed_of_deadline hdue⟩, ?_⟩
  · exact List.forall_mem_cons.mpr ⟨rfl, fun m hm => (hsteady m hm).1⟩
  · exact List.forall_mem_cons.mpr ⟨hquiet, fun m hm => (hsteady m hm).2⟩

theorem Sound.turned {l' : Loop σ} (h' : Sound draw? h x) (ht : x.loop.Turn draw? x.view l')
    (he : x.after draw? .step = some { x with loop := l' }) :
    Sound draw? ((x, .step) :: h) { x with loop := l' } := by
  obtain ⟨hseen, hsent, hphase⟩ := h'
  have hquiet : ¬ Answers (x, .step) := fun ⟨_, hr⟩ => nomatch hr
  have hcount : x.loop.sent = ((x, Happening.step) :: h).countP fun x => x.2.isSent :=
    hsent.trans (List.countP_cons_of_neg (by simp [Happening.isSent])).symm
  have hends : ∀ {l' : Loop σ}, x.after draw? .step = some { x with loop := l' } → x.loop.phase ≠ .ended →
      l'.phase = .ended → Stops (x, .step) → ∃ y ∈ (x, Happening.step) :: h, Ends draw? y ∧ Stops y :=
    fun he hne hl hstop => ⟨_, List.mem_cons_self, ⟨hne, _, he, hl⟩, hstop⟩
  have hwaits : x.loop.phase.Waits → x.loop.phase ≠ .ended := fun hw hend => by rw [hend] at hw; cases hw
  cases ht with
  | ready hph hready =>
    rw [hph] at hphase
    exact ⟨hseen, hcount, hphase.cons hquiet, observed_of_step hready ⟨rfl, _, he, rfl⟩⟩
  | unready hph =>
    rw [hph] at hphase
    exact ⟨hseen, hcount, hphase.cons hquiet, nofun⟩
  | dropped hph hc => exact ⟨hseen, hcount, hends he (by simp [hph]) rfl (.cancelled hc)⟩
  | awaiting hph hs =>
    rw [hph] at hphase
    obtain ⟨_, hw, hne⟩ | ⟨hd, -⟩ | ⟨hd, -⟩ := readiness_of_step hphase.2 hs
    · cases hw
      exact ⟨hseen, hcount, hphase.1.cons hquiet, hne⟩
    · cases hd
    · cases hd
  | awaited hph hs =>
    rw [hph] at hphase
    obtain ⟨_, hd, -⟩ | ⟨hd, hready⟩ | ⟨hd, hclosed⟩ := readiness_of_step hphase.2 hs
    · cases hd
    · cases hd
      exact ⟨hseen, hcount, hphase.1.cons hquiet, observed_of_step hready ⟨rfl, _, he, rfl⟩⟩
    · cases hd
      exact ⟨hseen, hcount, hends he (by simp [hph]) rfl (.unready hph hclosed)⟩
  | drawn => exact ⟨hseen, hcount, trivial⟩
  | undrawn hph hd => exact ⟨hseen, hcount, _, List.mem_cons_self, rfl, hph, hd⟩
  | read => exact ⟨hseen, hcount, fun _ => rfl⟩
  | cancelled hw hc => exact ⟨hseen, hcount, hends he (hwaits hw) rfl (.cancelled hc)⟩
  | changed => exact ⟨Nat.le_refl _, hcount, fun _ => rfl⟩
  | gone hw hn => exact ⟨hseen, hcount, hends he (hwaits hw) rfl (.adrift hw (Watched.notice?_eq_gone.mp hn).2)⟩
  | @armed period hph hn =>
    rw [hph] at hphase
    have hperiod := hphase hn
    refine ⟨hseen, hcount, ?_⟩
    dsimp only at he ⊢
    split
    · rename_i hzero
      rw [if_pos hzero] at he
      have hdue : x.view.interval.value.deadline x.view.now ≤ x.view.now :=
        Nat.le_of_eq (hperiod ▸ period.deadline_of_isZero hzero _)
      exact Rested.completed (w := []) he rfl rfl hdue (List.forall_mem_nil _)
    · exact fun _ => ⟨[(x, .step)], h, (x, .step), rfl, rfl, Nat.le_of_eq (by rw [hperiod]),
        List.forall_mem_singleton.mpr ⟨rfl, hquiet⟩⟩
  | elapsed hph hn hdue =>
    rw [hph] at hphase
    obtain ⟨w, older, first, rfl, hfirst, hwait, hsteady⟩ := hphase hn
    exact ⟨hseen, hcount, Rested.completed he rfl (by simp [List.getLast?_cons, hfirst])
      (Nat.le_trans hwait hdue) hsteady⟩

theorem sound_after (h' : Sound draw? h x) (he : x.after draw? e = some x') : Sound draw? ((x, e) :: h) x' := by
  by_cases hs : e = .step
  · subst hs
    obtain ⟨l', hl, rfl⟩ := Option.map_eq_some_iff.mp he
    exact h'.turned (Loop.turn_of_step hl) he
  · by_cases ha : ∃ r, e = .answer r
    · obtain ⟨r, rfl⟩ := ha
      exact h'.answered he
    · exact h'.surroundings he hs ha

theorem sound_of_history (hh : History (after draw?) (start simulator view) h s) : Sound draw? h s := by
  induction hh with
  | refl => exact sound_start
  | tail e _ he ih => exact sound_after ih he

/-! ## What holds of every run -/

/-- A loop that has ended stays so. -/
theorem ended_after (hx : x.loop.phase = .ended) (he : x.after draw? e = some x') : x'.loop.phase = .ended := by
  cases e with
  | step => simp [after, Loop.step, hx] at he
  | answer r => simp [after, hx] at he
  | _ =>
    cases he
    exact hx

theorem ended_of_history (hs : s.loop.phase = .ended) (hh : History (after draw?) s h s') : s'.loop.phase = .ended :=
  hh.keeps (P := fun s => s.loop.phase = .ended) hs fun he hx => ended_after hx he

theorem ended_of_seen {x : Scene σ × Happening} (hx : SeesCancellation x) (he : x.1.after draw? x.2 = some x') :
    x'.loop.phase = .ended := by
  obtain ⟨hstep, hwaits, hcancelled⟩ := hx
  rw [hstep] at he
  obtain ⟨l', hl, rfl⟩ := Option.map_eq_some_iff.mp he
  generalize hph : x.1.loop.phase = ph at hwaits
  cases hwaits <;> simp only [Loop.step, hph, hcancelled, if_true, Option.some.injEq] at hl <;> rw [← hl]

theorem phase_of_begins {x : Scene σ × Happening} (hx : Begins draw? x) : x.1.loop.phase = .take := by
  obtain ⟨r, alert, hstep, x', he, hph⟩ := hx
  rw [hstep] at he
  obtain ⟨l', hl, rfl⟩ := Option.map_eq_some_iff.mp he
  cases Loop.turn_of_step hl with
  | drawn ht => exact ht
  | awaited | armed =>
    dsimp only at hph
    split at hph <;> cases hph
  | _ => cases hph

/-- A part of a history in which the publisher does not answer, up to an older answer. -/
theorem append_of_answers {newer older mid before : List (Scene σ × Happening)} {y : Scene σ × Happening}
    (heq : newer ++ older = mid ++ y :: before) (hy : Answers y) (hno : ∀ m ∈ newer, ¬ Answers m) :
    ∃ rest, mid = newer ++ rest := by
  rcases List.append_eq_append_iff.mp heq with ⟨rest, hmid, -⟩ | ⟨rest, hnewer, hrest⟩
  · exact ⟨rest, hmid⟩
  · cases rest with
    | nil => exact ⟨[], by rw [hnewer, List.append_nil, List.append_nil]⟩
    | cons z rest =>
      cases hrest
      exact absurd hy (hno y (by simp [hnewer]))

/-- However readiness and the interval change, whatever the publisher answers and whenever the loop is cancelled: the
number that a loop ends with is the number of publications that were answered with success; before each publication the
device was seen to be ready, after the last wait that was completed; between an answer of the publisher and a later
publication a wait was completed, during which the interval did not change, and passed unless the clock has no time for
its end; a loop ends when it is cancelled, when the publisher answers that it was cancelled or that the client is closed,
or when nobody tells any more whether the device is ready or how long to wait, and it breaks down only where no reading
can be drawn; and once it has seen the cancellation in a wait, it has ended and publishes nothing more. -/
theorem paced (hh : History (after draw?) (start simulator view) h s) :
    (∀ n, s.loop.end? = some (.finished n) → n = h.countP fun x => x.2.isSent) ∧
    (∀ newer x older, h = newer ++ x :: older → Begins draw? x →
      (∃ since y before, older = since ++ y :: before ∧ Observes draw? y ∧ ∀ z ∈ since, ¬ Completes draw? z) ∧
      ∀ mid y before, older = mid ++ y :: before → Answers y →
        ∃ m₁ w m₂ first last, mid = m₁ ++ w ++ m₂ ∧ Wait draw? w first last) ∧
    (s.loop.phase = .ended → ∃ x ∈ h, Ends draw? x ∧ Stops x) ∧
    (s.loop.phase = .failed → ∃ x ∈ h, x.2 = .step ∧ x.1.loop.phase = .take ∧ draw? x.1.loop.simulator = none) ∧
    ∀ newer x older, h = newer ++ x :: older → SeesCancellation x →
      s.loop.phase = .ended ∧ ∀ y ∈ newer, ¬ Begins draw? y := by
  have hsound := sound_of_history hh
  refine ⟨fun n hn => ?_, fun newer x older hl hx => ?_, fun hend => ?_, fun hfail => ?_, fun newer x older hl hx => ?_⟩
  · have hsent : s.loop.sent = n := by
      unfold Loop.end? at hn
      split at hn <;> cases hn
      rfl
    rw [← hsent, hsound.sent]
  · subst hl
    obtain ⟨holder, -⟩ := hh.cut
    have hphase := (sound_of_history holder).phase
    rw [phase_of_begins hx] at hphase
    obtain ⟨hrested, hobserved⟩ := hphase
    refine ⟨hobserved, fun mid y before hmid hy => ?_⟩
    rcases hrested with hno | ⟨m₁, w, rest, first, last, hrest, hw, hno⟩
    · exact absurd hy (hno y (by simp [hmid]))
    · obtain ⟨m₂, hm₂⟩ := append_of_answers (hrest.symm.trans hmid) hy hno
      exact ⟨m₁, w, m₂, first, last, hm₂, hw⟩
  · have hphase := hsound.phase
    rw [hend] at hphase
    exact hphase
  · have hphase := hsound.phase
    rw [hfail] at hphase
    exact hphase
  · subst hl
    obtain ⟨-, x', he, hnewer⟩ := hh.cut
    have hended := ended_of_seen hx he
    refine ⟨ended_of_history hended hnewer, fun y hy hb => ?_⟩
    obtain ⟨_, _, _, hbefore, -⟩ := hnewer.of_mem hy
    have hphase := ended_of_history hended hbefore
    rw [phase_of_begins hb] at hphase
    cases hphase

/-- A source that always has the same reading, which raises no alert. -/
def unvarying (_ : Unit) : Option ((Reading × Bool) × Unit) := some ((default, false), ())

/-- The device is not ready yet, nor has anybody cancelled the loop. -/
def idle (interval : Span) : View :=
  { cancelled := false, readiness := { value := .unknown }, interval := { value := interval }, now := 0 }

/-- The loop waits until the device is ready, and for an interval after its first publication. In the middle of the next
wait the interval is changed to half a minute. The third publication is answered while the loop is cancelled. -/
def thrice : List Happening :=
  List.flatten [List.replicate 3 .step, [.setReadiness .ready], List.replicate 3 .step, [.answer (.ok ())],
    List.replicate 2 .step, [.pass 60000], List.replicate 3 .step, [.answer (.error .reconnecting)],
    List.replicate 2 .step, [.pass 30000, .changeInterval (.ofSeconds 30)], List.replicate 2 .step, [.pass 30000],
    List.replicate 3 .step, [.cancel, .answer (.ok ())], List.replicate 2 .step]

/-- A completed wait lies between the last two publications, and the loop ends because it is cancelled. -/
theorem paced_thrice : ∃ h s newer x mid y older,
    History (after unvarying) (start () (idle (.ofSeconds 60))) h s ∧ h = newer ++ x :: (mid ++ y :: older) ∧
    Begins unvarying x ∧ Answers y ∧ (∃ m₁ w m₂ first last, mid = m₁ ++ w ++ m₂ ∧ Wait unvarying w first last) ∧
    s.loop.end? = some (.finished 2) ∧ (2 = h.countP fun x => x.2.isSent) ∧ (∃ z ∈ h, Ends unvarying z ∧ Stops z) ∧
    ∃ z older, h = z :: older ∧ SeesCancellation z := by
  obtain ⟨h, s, hc, ⟨n₁, n₂, n₃, n₄, x, m₁, m₂, m₃, m₄, m₅, m₆, m₇, m₈, m₉, y, older, hl, hx, hy⟩, hended, hend,
      hlast⟩ : ∃ h s, replay (after unvarying) (start () (idle (.ofSeconds 60))) thrice = some (h, s) ∧
      (∃ n₁ n₂ n₃ n₄ x m₁ m₂ m₃ m₄ m₅ m₆ m₇ m₈ m₉ y older,
        h = [n₁, n₂, n₃, n₄] ++ x :: ([m₁, m₂, m₃, m₄, m₅, m₆, m₇, m₈, m₉] ++ y :: older) ∧
        Begins unvarying x ∧ Answers y) ∧
      s.loop.phase = .ended ∧ s.loop.end? = some (.finished 2) ∧ ∃ z older, h = z :: older ∧ SeesCancellation z :=
    ⟨_, _, rfl, ⟨_, _, _, _, _, _, _, _, _, _, _, _, _, _, _, _, rfl, ⟨_, _, rfl, _, rfl, rfl⟩, _, rfl⟩, rfl, rfl,
      _, _, rfl, rfl, .arm _, rfl⟩
  have hh := History.of_replay hc
  obtain ⟨hcount, hpace, hstop, -⟩ := paced hh
  exact ⟨h, s, _, x, _, y, older, hh, hl, hx, hy, (hpace _ x _ hl hx).2 _ y older rfl hy, hend, hcount 2 hend,
    hstop hended, hlast⟩

/-- Two publications, and a wait of thirty years between them. -/
def twice : List Happening :=
  List.flatten [[.setReadiness .ready], List.replicate 2 .step, [.answer (.ok ())], List.replicate 2 .step,
    [.pass Span.farFuture], List.replicate 3 .step]

/-- The interval is the longest length of time from beginning to end. The second publication begins long before it has
passed. -/
theorem early_of_longest : ∃ x mid y older s,
    History (after unvarying) (start () (idle (.ofNanos Span.maxNanos))) (x :: (mid ++ y :: older)) s ∧
    Begins unvarying x ∧ Answers y ∧
    (∀ m ∈ x :: (mid ++ [y]), m.1.view.interval.value = .ofNanos Span.maxNanos) ∧
    x.1.view.now * 10 ^ 6 < y.1.view.now * 10 ^ 6 + (Span.ofNanos Span.maxNanos).nanos := by
  obtain ⟨x, m₁, m₂, m₃, m₄, m₅, y, older, s, hc, hx, hy, hm, hlt⟩ : ∃ x m₁ m₂ m₃ m₄ m₅ y older s,
      replay (after unvarying) (start () (idle (.ofNanos Span.maxNanos))) twice =
        some (x :: ([m₁, m₂, m₃, m₄, m₅] ++ y :: older), s) ∧ Begins unvarying x ∧ Answers y ∧
      (∀ m ∈ [x, m₁, m₂, m₃, m₄, m₅, y], m.1.view.interval.value = .ofNanos Span.maxNanos) ∧
      x.1.view.now * 10 ^ 6 < y.1.view.now * 10 ^ 6 + (Span.ofNanos Span.maxNanos).nanos := by
    refine ⟨_, _, _, _, _, _, _, _, _, rfl, ⟨_, _, rfl, _, rfl, rfl⟩, ⟨_, rfl⟩, ?_, ?_⟩
    · simp only [List.forall_mem_cons]
      exact ⟨rfl, rfl, rfl, rfl, rfl, rfl, rfl, List.forall_mem_nil _⟩
    · decide
  exact ⟨x, _, y, older, s, History.of_replay hc, hx, hy, hm, hlt⟩

end Scene

end HubDevice.Publishing
