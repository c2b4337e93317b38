import HubDevice.Proofs.Concurrent.History
import HubDevice.Proofs.Concurrent.Watched
import HubDevice.Session.Closed
import Mathlib.Tactic.Common

/-!
# The end of a session is told once, and to everybody

A `Scene` is a notification with the signals that were taken of it, each of which may be waited on. Whatever happens to
them, in whatever order, the notification holds the cause that was given first (`Sound.value`), a wait that parks has seen
the notification before it was given (`Signal.Fits`), and so nobody is left waiting who has something to see
(`Waiting.outcome?_of_over`). The last theorem, `Scene.given_once`, says this of every run.
-/

namespace HubDevice.ClosedNotice

/-! ## Signals and waits -/

/-- What became of a signal. -/
inductive Signal where
  | held
  | waiting (w : Waiting)
  /-- Its wait has come to its end. -/
  | returned (cause : CloseCause)
  /-- Nobody has the signal, nor its wait, any more. -/
  | released
  deriving DecidableEq

/-- What becomes of a signal in a step of its wait. -/
def Signal.ofProgress : Progress Waiting CloseCause → Signal
  | .more w => .waiting w
  | .done cause => .returned cause

/-- What a signal has to do with the notification: a wait has parked before the notification was given, and ends with its
cause, or with the cause of a session that was let go of. -/
def Signal.Fits (n : ClosedNotice) : Signal → Prop
  | .waiting (.parked seen) => seen = 0
  | .returned cause => n.value = some cause ∨ n.value = none ∧ n.closed = true ∧ cause = letGo
  | _ => True

/-- The version of a notification counts how often it was given. -/
def Counted (n : ClosedNotice) : Prop := n.version = if n.value.isSome then 1 else 0

variable {n : ClosedNotice} {w : Waiting} {s : Signal}

theorem Signal.fits_ofProgress {p : Progress Waiting CloseCause} (hn : Counted n) (hs : w.step n = some p) :
    (Signal.ofProgress p).Fits n := by
  cases w with
  | look =>
    cases hvalue : n.value with
    | some cause =>
      simp only [Waiting.step, hvalue, Option.some.injEq] at hs
      subst hs
      exact .inl hvalue
    | none =>
      simp only [Waiting.step, hvalue, Option.some.injEq] at hs
      subst hs
      simp only [Counted, hvalue, Option.isSome_none, Bool.false_eq_true, if_false] at hn
      exact hn
  | parked seen =>
    simp only [Waiting.step] at hs
    split at hs
    · cases hs
      trivial
    · rename_i hgone
      cases hs
      cases hvalue : n.value with
      | some cause => exact .inl hvalue
      | none => exact .inr ⟨hvalue, (Watched.notice?_eq_gone.mp hgone).2, rfl⟩
    · cases hs

theorem Signal.Fits.notified (h : s.Fits n) (ho : n.closed = false) (cause : CloseCause) : s.Fits (n.notify cause).1 := by
  unfold notify
  cases hvalue : n.value with
  | some _ => exact h
  | none =>
    cases s with
    | waiting w => cases w <;> exact h
    | returned c =>
      rcases h with h | ⟨-, hclosed, -⟩
      · rw [hvalue] at h
        cases h
      · rw [ho] at hclosed
        cases hclosed
    | held | released => trivial

theorem Signal.Fits.dropped (h : s.Fits n) : s.Fits (Watched.close n) := by
  cases s with
  | waiting w => cases w <;> exact h
  | returned c =>
    rcases h with h | ⟨hvalue, -, hcause⟩
    · exact .inl h
    · exact .inr ⟨hvalue, rfl, hcause⟩
  | held | released => trivial

theorem value_notify (n : ClosedNotice) (cause : CloseCause) : (n.notify cause).1.value = n.value.or (some cause) := by
  unfold notify
  cases hvalue : n.value with
  | some _ => exact hvalue
  | none => rfl

theorem closed_notify (n : ClosedNotice) (cause : CloseCause) : (n.notify cause).1.closed = n.closed := by
  unfold notify
  split <;> rfl

theorem notify_eq_true {cause : CloseCause} : (n.notify cause).2 = true ↔ n.value = none := by
  unfold notify
  cases n.value with
  | some _ => simp
  | none => simp

theorem Counted.notify (h : Counted n) (cause : CloseCause) : Counted (n.notify cause).1 := by
  unfold ClosedNotice.notify
  cases hvalue : n.value with
  | some _ => exact h
  | none =>
    simp only [Counted, hvalue, Option.isSome_none, Bool.false_eq_true, if_false] at h
    simp [Counted, Watched.set, h]

/-- What a wait returns after the notification is over. -/
theorem Signal.fits_getD (ho : n.isOver = true) : (Signal.returned (n.value.getD letGo)).Fits n := by
  cases hvalue : n.value with
  | some cause => exact .inl hvalue
  | none => exact .inr ⟨hvalue, by simpa [isOver, hvalue] using ho, rfl⟩

/-- Once the notification is given, or the notifier has gone away, a wait ends in at most two steps. -/
theorem Waiting.outcome?_of_over (hn : Counted n) (hw : (Signal.waiting w).Fits n) (ho : n.isOver = true) :
    (w.step n).isSome = true ∧ (w.outcome? n 2).2 = some (n.value.getD letGo) := by
  cases hvalue : n.value with
  | some cause =>
    have hlook : Waiting.look.step n = some (.done cause) := by simp [Waiting.step, hvalue]
    cases w with
    | look => simp [outcome?, hlook]
    | parked seen =>
      -- The wait has parked at the version before the one at which the notification was given.
      have hseen : seen = 0 := hw
      have hversion : n.version = 1 := by simpa [Counted, hvalue] using hn
      have hnotice : n.notice? seen = some .changed := Watched.notice?_eq_changed.mpr (by omega)
      have hparked : (Waiting.parked seen).step n = some (.more .look) := by simp [Waiting.step, hnotice]
      simp [outcome?, hparked, hlook]
  | none =>
    have hclosed : n.closed = true := by simpa [isOver, hvalue] using ho
    have hversion : n.version = 0 := by simpa [Counted, hvalue] using hn
    have hgone : n.notice? 0 = some .gone := Watched.notice?_eq_gone.mpr ⟨hversion, hclosed⟩
    have hparked : (Waiting.parked 0).step n = some (.done letGo) := by simp [Waiting.step, hgone, hvalue]
    cases w with
    | look =>
      have hlook : Waiting.look.step n = some (.more (.parked 0)) := by simp [Waiting.step, hvalue, hversion]
      simp [outcome?, hlook, hparked]
    | parked seen =>
      have hseen : seen = 0 := hw
      subst hseen
      simp [outcome?, hparked]

/-! ## Scenes -/

/-- A notification and the signals that were taken of it. -/
structure Scene where
  notice : ClosedNotice := .pending
  signals : List Signal := []

namespace Scene

/-- What can happen to a notification and its signals. -/
inductive Happening where
  | notify (cause : CloseCause)
  /-- A signal is taken of the notifier. -/
  | take
  | clone (i : Nat)
  | wait (i : Nat)
  /-- One step of a wait. -/
  | step (i : Nat)
  /-- A signal, or its wait, is let go of. -/
  | release (i : Nat)
  /-- The notifier is let go of. -/
  | drop

/-- What a happening leads to. Nobody uses a notifier that was let go of, nor a signal that is waited on. -/
def after (x : Scene) : Happening → Option Scene
  | .notify cause => if x.notice.closed then none else some { x with notice := (x.notice.notify cause).1 }
  | .take => if x.notice.closed then none else some { x with signals := x.signals ++ [.held] }
  | .clone i => if x.signals[i]? = some .held then some { x with signals := x.signals ++ [.held] } else none
  | .wait i =>
    if x.signals[i]? = some .held then some { x with signals := x.signals.set i (.waiting .look) } else none
  | .step i =>
    match x.signals[i]? with
    | some (.waiting w) =>
      (w.step x.notice).map fun p => { x with signals := x.signals.set i (.ofProgress p) }
    | _ => none
  | .release i =>
    match x.signals[i]? with
    | some .held | some (.waiting _) => some { x with signals := x.signals.set i .released }
    | _ => none
  | .drop => if x.notice.closed then none else some { x with notice := x.notice.close }

/-- The cause that a happening gives. -/
def Happening.cause? : Happening → Option CloseCause
  | .notify cause => some cause
  | _ => none

/-- The notifier is notified. -/
def Notifies (y : Scene × Happening) : Prop := ∃ cause, y.2 = .notify cause

/-- The notifier is notified of a cause, and answers that it was not notified before. -/
def Fires (y : Scene × Happening) (cause : CloseCause) : Prop :=
  y.2 = .notify cause ∧ (y.1.notice.notify cause).2 = true

/-- The notifier is let go of. -/
def Drops (y : Scene × Happening) : Prop := y.2 = .drop

/-- What whoever waits is told after a history: the cause of the notification that fired, or that of a session that was
let go of when the notifier was never notified and is gone. -/
def Tells (h : List (Scene × Happening)) (cause : CloseCause) : Prop :=
  (∃ y ∈ h, Fires y cause) ∨ (∀ y ∈ h, ¬ Notifies y) ∧ (∃ y ∈ h, Drops y) ∧ cause = letGo

variable {x x' s : Scene} {e : Happening} {h : List (Scene × Happening)} {l : List Signal} {signal : Signal}

/-! ## What is known from the history -/

/-- The cause that was given first; the history has its newest happening in front. -/
def first? : List (Scene × Happening) → Option CloseCause
  | [] => none
  | y :: h => (first? h).or y.2.cause?

theorem first?_eq_none : first? h = none ↔ ∀ y ∈ h, ¬ Notifies y := by
  induction h with
  | nil => simp [first?]
  | cons y h ih =>
    have hy : y.2.cause? = none ↔ ¬ Notifies y := by
      unfold Notifies Happening.cause?
      cases y.2 <;> simp
    rw [first?, Option.or_eq_none_iff, ih, hy, List.forall_mem_cons, and_comm]

/-- What is known of a scene from its history. -/
structure Sound (h : List (Scene × Happening)) (x : Scene) : Prop where
  value : x.notice.value = first? h
  counted : Counted x.notice
  closed : x.notice.closed = true ↔ ∃ y ∈ h, Drops y
  signals : ∀ s ∈ x.signals, s.Fits x.notice

theorem sound_start : Sound [] {} := ⟨rfl, rfl, by simp [pending], by simp⟩

/-- A happening that leaves the notification alone. -/
theorem Sound.update (h' : Sound h x) (hcause : e.cause? = none) (hdrop : e ≠ .drop)
    (hl : ∀ s ∈ l, s.Fits x.notice) : Sound ((x, e) :: h) { x with signals := l } := by
  refine ⟨?_, h'.counted, ?_, hl⟩
  · rw [first?, hcause, Option.or_none]
    exact h'.value
  · simp only [h'.closed, List.mem_cons, exists_eq_or_imp]
    exact (or_iff_right fun he => hdrop he).symm

theorem Sound.fits_append (h' : Sound h x) (hs : signal.Fits x.notice) :
    ∀ s ∈ x.signals ++ [signal], s.Fits x.notice := by
  intro s hm
  rcases List.mem_append.mp hm with hm | hm
  · exact h'.signals s hm
  · rw [List.mem_singleton.mp hm]
    exact hs

theorem Sound.fits_set (h' : Sound h x) (i : Nat) (hs : signal.Fits x.notice) :
    ∀ s ∈ x.signals.set i signal, s.Fits x.notice := by
  intro s hm
  rcases List.mem_or_eq_of_mem_set hm with hm | rfl
  · exact h'.signals s hm
  · exact hs

theorem sound_after (h' : Sound h x) (he : x.after e = some x') : Sound ((x, e) :: h) x' := by
  cases e with
  | notify cause =>
    simp only [after] at he
    split at he
    · cases he
    · rename_i hopen
      cases he
      refine ⟨?_, h'.counted.notify cause, ?_, fun s hs => (h'.signals s hs).notified (by simpa using hopen) cause⟩
      · dsimp only
        rw [value_notify, h'.value]
        rfl
      · dsimp only
        simp only [closed_notify, h'.closed, List.mem_cons, exists_eq_or_imp]
        exact (or_iff_right nofun).symm
  | take =>
    simp only [after] at he
    split at he <;> cases he
    exact h'.update rfl nofun (h'.fits_append trivial)
  | clone i =>
    simp only [after] at he
    split at he <;> cases he
    exact h'.update rfl nofun (h'.fits_append trivial)
  | wait i =>
    simp only [after] at he
    split at he <;> cases he
    exact h'.update rfl nofun (h'.fits_set i trivial)
  | step i =>
    simp only [after] at he
    split at he
    · obtain ⟨p, hp, rfl⟩ := Option.map_eq_some_iff.mp he
      exact h'.update rfl nofun (h'.fits_set i (Signal.fits_ofProgress h'.counted hp))
    · cases he
  | release i =>
    simp only [after] at he
    split at he <;> cases he
    all_goals exact h'.update rfl nofun (h'.fits_set i trivial)
  | drop =>
    simp only [after] at he
    split at he <;> cases he
    refine ⟨?_, h'.counted, ?_, fun s hs => (h'.signals s hs).dropped⟩
    · have hfirst : first? ((x, .drop) :: h) = first? h := Option.or_none
      exact h'.value.trans hfirst.symm
    · exact iff_of_true rfl ⟨_, List.mem_cons_self, rfl⟩

theorem sound_of_history (hh : History after {} h s) : Sound h s := by
  induction hh with
  | refl => exact sound_start
  | tail e _ he ih => exact sound_after ih he

/-! ## What holds of every run -/

/-- A cause that the notification holds was given by the happening that fired it. -/
theorem exists_fires {cause : CloseCause} (hh : History after {} h s) (hv : first? h = some cause) :
    ∃ y ∈ h, Fires y cause := by
  induction hh with
  | refl => cases hv
  | @tail h x x' e hh he ih =>
    rw [first?] at hv
    cases hfirst : first? h with
    | some c =>
      rw [hfirst, Option.some_or, Option.some.injEq] at hv
      obtain ⟨y, hy, hf⟩ := ih (by rw [hfirst, hv])
      exact ⟨y, List.mem_cons_of_mem _ hy, hf⟩
    | none =>
      rw [hfirst, Option.none_or] at hv
      have hvalue : x.notice.value = none := (sound_of_history hh).value.trans hfirst
      refine ⟨_, List.mem_cons_self, ?_, notify_eq_true.mpr hvalue⟩
      cases e with
      | notify c =>
        cases hv
        rfl
      | _ => cases hv

theorem Sound.tells {cause : CloseCause} (h' : Sound h s) (hh : History after {} h s)
    (hf : (Signal.returned cause).Fits s.notice) : Tells h cause := by
  rcases hf with hvalue | ⟨hvalue, hclosed, rfl⟩
  · exact .inl (exists_fires hh (h'.value.symm.trans hvalue))
  · exact .inr ⟨first?_eq_none.mp (h'.value.symm.trans hvalue), h'.closed.mp hclosed, rfl⟩

theorem after_step {i : Nat} {w : Waiting} {p : Progress Waiting CloseCause} (hi : x.signals[i]? = some (.waiting w))
    (hp : w.step x.notice = some p) :
    x.after (.step i) = some { x with signals := x.signals.set i (.ofProgress p) } := by
  simp [after, hi, hp]

/-- In every run of a notification with its signals, however notifying, taking and cloning signals, waiting on them and
letting go of them and of the notifier are interleaved: the notifier answers that it was not notified before just the
first time that it is notified; the notification is given just when the notifier was notified, and over just when it was
notified or let go of; a wait that has come to its end returned the cause of the notification that fired, or that of a
session that was let go of if the notifier was never notified and was let go of; and once the notification is over, every
wait can go on, and ends in at most two steps of its own. -/
theorem given_once (hh : History after {} h s) :
    (∀ newer x cause older, h = newer ++ (x, .notify cause) :: older →
      ((x.notice.notify cause).2 = true ↔ ∀ y ∈ older, ¬ Notifies y)) ∧
    (s.notice.isGiven = true ↔ ∃ y ∈ h, Notifies y) ∧
    (s.notice.isOver = true ↔ (∃ y ∈ h, Notifies y) ∨ ∃ y ∈ h, Drops y) ∧
    (∀ cause, .returned cause ∈ s.signals → Tells h cause) ∧
    (s.notice.isOver = true → ∀ i w, s.signals[i]? = some (.waiting w) →
      (∃ s', s.after (.step i) = some s') ∧ ∃ cause, (w.outcome? s.notice 2).2 = some cause ∧ Tells h cause) := by
  have hsound := sound_of_history hh
  have hgiven : s.notice.isGiven = true ↔ ∃ y ∈ h, Notifies y := by
    rw [isGiven, hsound.value, Option.isSome_iff_ne_none, ne_eq, first?_eq_none]
    push Not
    rfl
  have hover : s.notice.isOver = true ↔ (∃ y ∈ h, Notifies y) ∨ ∃ y ∈ h, Drops y := by
    rw [isOver, Bool.or_eq_true, hsound.closed]
    exact or_congr_left hgiven
  refine ⟨?_, hgiven, hover, fun cause hr => hsound.tells hh (hsound.signals _ hr), ?_⟩
  · rintro newer x cause older rfl
    obtain ⟨hbefore, -⟩ := hh.cut
    rw [notify_eq_true, (sound_of_history hbefore).value, first?_eq_none]
  · intro ho i w hi
    obtain ⟨hstep, hend⟩ := Waiting.outcome?_of_over hsound.counted (hsound.signals _ (List.mem_of_getElem? hi)) ho
    obtain ⟨p, hp⟩ := Option.isSome_iff_exists.mp hstep
    exact ⟨⟨_, after_step hi hp⟩, _, hend, hsound.tells hh (Signal.fits_getD ho)⟩

/-- One wait has parked when the notifier is notified, for the second time in vain. Another signal is taken after that,
and waited on after the notifier was let go of. -/
def lateSignal : List Happening :=
  [.take, .wait 0, .step 0, .notify (.remote "reset"), .notify .closedLocally, .take, .drop, .wait 1, .step 1, .step 0]

theorem given_once_lateSignal : ∃ h s, History after {} h s ∧ s.notice.isOver = true ∧
    s.signals = [.waiting .look, .returned (.remote "reset")] ∧ (∃ s', s.after (.step 0) = some s') ∧
    ∃ y ∈ h, Fires y (.remote "reset") := by
  obtain ⟨h, s, hc, hover, hsignals⟩ : ∃ h s, replay after {} lateSignal = some (h, s) ∧ s.notice.isOver = true ∧
      s.signals = [.waiting .look, .returned (.remote "reset")] := ⟨_, _, rfl, rfl, rfl⟩
  have hh := History.of_replay hc
  obtain ⟨-, -, -, hreturned, hwaits⟩ := given_once hh
  refine ⟨h, s, hh, hover, hsignals, (hwaits hover 0 .look (by rw [hsignals]; rfl)).1, ?_⟩
  rcases hreturned (.remote "reset") (by simp [hsignals]) with hfires | ⟨-, -, hletGo⟩
  · exact hfires
  · exact absurd hletGo (by decide)

end Scene

end HubDevice.ClosedNotice
