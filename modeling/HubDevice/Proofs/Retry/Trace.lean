import HubDevice.Proofs.Concurrent.History
import HubDevice.Proofs.Retry.Run
import Mathlib.Data.List.Chain

/-!
# The trace of a run

`Action.noted` is an action that notes what a run makes it do, and noting changes nothing else (`Run.plain_step_noted`).
An `Errand` is a run of it beside a token that may fire and others that change the shared state. What is noted of an
errand are `Round`s, which are attempts that were granted a retry, and how far the attempt after them has come
(`Errand.Recorded`); every happening continues them (`Errand.recorded_after`).
-/

namespace HubDevice.Retry

variable {σ α β : Type} {x : Action σ α β} {P : Policy}

/-! ## Notes -/

/-- What is noted of a run: an attempt began, it ended, and a retry was granted, with a delay that is waited from a time
on. -/
inductive Note (β : Type) where
  | began (time : Nat)
  | ended (outcome : Except ClientError β)
  | granted (failure : ClientError) (attempt : Nat) (delay : Span) (time : Nat)

def Note.isBegan : Note β → Bool
  | .began _ => true
  | _ => false

/-- The note that an attempt begins, when it is fresh. -/
def Note.beginning (fresh : Bool) (time : Nat) : List (Note β) := if fresh then [.began time] else []

/-- The note that an attempt ends, when it does. -/
def Note.ending : Progress α (Except ClientError β) → List (Note β)
  | .more _ => []
  | .done o => [.ended o]

/-- The same action, with notes of what a run makes it do. It is marked whether an attempt is fresh. -/
def Action.noted (x : Action σ α β) : Action (σ × List (Note β)) (α × Bool) β where
  start := (x.start, true)
  step s a := (x.step s.1 a.1).map fun p =>
    ((p.1, s.2 ++ Note.beginning a.2 (x.now s.1) ++ Note.ending p.2), p.2.map fun a => (a, false))
  abandon s a := (x.abandon s.1 a.1, s.2)
  granted s e n d := (x.granted s.1 e n d, s.2 ++ [.granted e n d (x.now (x.granted s.1 e n d))])
  now s := x.now s.1

/-- A run without the marks. -/
def Run.plain (r : Run (α × Bool)) : Run α where
  policy := r.policy
  attempt := r.attempt
  phase := match r.phase with
    | .acting a => .acting a.1
    | .pausing t => .pausing t

theorem Run.plain_afterFailure_noted (s : σ × List (Note β)) (r : Run (α × Bool)) (e : ClientError) :
    ((afterFailure x.noted s r e).1.1, (afterFailure x.noted s r e).2.map Run.plain) =
      afterFailure x s.1 r.plain e := by
  obtain ⟨policy, n, phase⟩ := r
  by_cases hend : e = .cancelled ∨ policy.transient e = false
  · simp only [afterFailure, plain, hend, if_true]
    rfl
  · simp only [afterFailure, plain, hend, if_false]
    cases policy.decide n e with
    | stop => rfl
    | retry delay =>
      dsimp only
      by_cases hzero : delay.isZero = true
      · simp only [hzero, if_true]
        rfl
      · simp only [hzero]
        rfl

/-- Noting changes nothing. -/
theorem Run.plain_step_noted {c : Bool} {s : σ × List (Note β)} (r : Run (α × Bool)) :
    (r.step x.noted c s).map (fun p => (p.1.1, p.2.map Run.plain)) = r.plain.step x c s.1 := by
  have hfailure := plain_afterFailure_noted (x := x) (r := r)
  obtain ⟨policy, n, phase⟩ := r
  cases c with
  | true => cases phase <;> rfl
  | false =>
    cases phase with
    | pausing t =>
      show Option.map _ (if t ≤ x.now s.1 then _ else _) = if t ≤ x.now s.1 then _ else _
      split <;> rfl
    | acting a =>
      simp only [step, plain, Bool.false_eq_true, if_false]
      cases hstep : x.step s.1 a.1 with
      | none => simp [Action.noted, hstep]
      | some p =>
        have hnoted : x.noted.step s a = some
            ((p.1, s.2 ++ Note.beginning a.2 (x.now s.1) ++ Note.ending p.2), p.2.map fun a => (a, false)) := by
          simp [Action.noted, hstep]
        rw [hnoted]
        rcases p with ⟨s', a' | e | v⟩
        · rfl
        · exact congrArg some (hfailure _ e)
        · rfl

theorem step_noted_eq_some {s : σ × List (Note β)} {a : α} {fresh : Bool} {s' : σ × List (Note β)}
    {q : Progress (α × Bool) (Except ClientError β)} (h : x.noted.step s (a, fresh) = some (s', q)) :
    ∃ p, x.step s.1 a = some (s'.1, p) ∧ s'.2 = s.2 ++ Note.beginning fresh (x.now s.1) ++ Note.ending p ∧
      q = p.map fun a => (a, false) := by
  obtain ⟨p, hp, he⟩ := Option.map_eq_some_iff.mp h
  cases he
  exact ⟨p.2, hp, rfl, rfl⟩

/-! ## Rounds -/

/-- An attempt that was granted a retry. -/
structure Round where
  began : Nat
  failure : ClientError
  delay : Span
  granted : Nat

namespace Round

/-- When the next attempt may begin. -/
def due (r : Round) : Nat := r.delay.deadline r.granted

/-- The notes of a round with an attempt number. -/
def notes (r : Round) (n : Nat) : List (Note β) :=
  [.began r.began, .ended (.error r.failure), .granted r.failure n r.delay r.granted]

/-- The notes of rounds, the first of which has an attempt number. -/
def allNotes (first : Nat) (rounds : List Round) : List (Note β) :=
  (rounds.zipIdx first).flatMap fun p => p.1.notes (min p.2 maxAttempt)

/-- The policy grants the retry of a round with an attempt number. -/
structure Granted (P : Policy) (r : Round) (n : Nat) : Prop where
  uncancelled : r.failure ≠ .cancelled
  transient : P.transient r.failure = true
  decided : P.decide n r.failure = .retry r.delay

variable {first : Nat} {rounds : List Round} {r : Round}

theorem allNotes_concat : (allNotes first (rounds ++ [r]) : List (Note β)) =
    allNotes first rounds ++ r.notes (min (first + rounds.length) maxAttempt) := by
  simp [allNotes, List.zipIdx_append]

end Round

/-- How far the attempt after all rounds has come. -/
inductive Latest (β : Type) where
  | pending
  | begun (time : Nat)
  | ended (time : Nat) (outcome : Except ClientError β)

namespace Latest

def notes : Latest β → List (Note β)
  | .pending => []
  | .begun t => [.began t]
  | .ended t o => [.began t, .ended o]

def began? : Latest β → Option Nat
  | .pending => none
  | .begun t | .ended t _ => some t

def outcome? : Latest β → Option (Except ClientError β)
  | .pending | .begun _ => none
  | .ended _ o => some o

end Latest

/-- The outcome of the attempt with a number ends a run. -/
def Policy.Ends (P : Policy) (n : Nat) (o : Except ClientError β) : Prop :=
  ∀ e, o = .error e → e = .cancelled ∨ P.transient e = false ∨ P.decide n e = .stop

/-- A run, the token that ends it and the state that it shares with others. -/
structure Errand (σ α β : Type) where
  shared : σ
  notes : List (Note β) := []
  fired : Bool := false
  progress : Progress (Run (α × Bool)) (Except ClientError β)

namespace Errand

/-- What can happen to an errand. -/
inductive Happening (σ : Type) where
  | step
  | fire
  /-- Others change the shared state, or time passes. -/
  | others (s : σ)

/-- What a happening leads to. -/
def after (x : Action σ α β) (e : Errand σ α β) : Happening σ → Option (Errand σ α β)
  | .step => match e.progress with
    | .more r => (r.step x.noted e.fired (e.shared, e.notes)).map fun p =>
        { e with shared := p.1.1, notes := p.1.2, progress := p.2 }
    | .done _ => none
  | .fire => some { e with fired := true }
  | .others s => if x.now e.shared ≤ x.now s then some { e with shared := s } else none

/-- An errand of which nothing is done yet. -/
def ofPolicy (x : Action σ α β) (P : Policy) (first : Nat) (s : σ) : Errand σ α β :=
  { shared := s, progress := .more (.ofPolicy x.noted P first) }

/-- Where an errand stands with an attempt number, after a round, if there was one, and with the attempt after it. -/
inductive Stands (x : Action σ α β) (P : Policy) (n : Nat) (last? : Option Round) (now : Nat) (fired : Bool) :
    Progress (Run (α × Bool)) (Except ClientError β) → Latest β → Prop
  /-- The delay of the round is waited. -/
  | waits {last : Round} (round : last? = some last) :
      Stands x P n last? now fired (.more ⟨P, n, .pausing last.due⟩) .pending
  /-- The next attempt may begin. -/
  | ready (due : ∀ last ∈ last?, last.due ≤ now) :
      Stands x P n last? now fired (.more ⟨P, n, .acting (x.start, true)⟩) .pending
  | acts {a : α} {t : Nat} : Stands x P n last? now fired (.more ⟨P, n, .acting (a, false)⟩) (.begun t)
  /-- The outcome of the attempt is returned. -/
  | returned {o : Except ClientError β} {t : Nat} (ends : P.Ends n o) :
      Stands x P n last? now fired (.done o) (.ended t o)
  | cancelled {latest : Latest β} (token : fired = true) (unended : latest.outcome? = none) :
      Stands x P n last? now fired (.done (.error .cancelled)) latest

/-- What is noted of an errand are rounds, each granted by the policy, with the attempt after them; every attempt after
a round has begun when its delay was over. -/
structure Recorded (x : Action σ α β) (P : Policy) (first : Nat) (e : Errand σ α β) (rounds : List Round)
    (latest : Latest β) : Prop where
  notes : e.notes = Round.allNotes first rounds ++ latest.notes
  granted : ∀ p ∈ rounds.zipIdx first, p.1.Granted P (min p.2 maxAttempt)
  waited : rounds.IsChain fun r r' => r.due ≤ r'.began
  begins : ∀ last ∈ rounds.getLast?, ∀ t, latest.began? = some t → last.due ≤ t
  stands :
    Stands x P (min (first + rounds.length) maxAttempt) rounds.getLast? (x.now e.shared) e.fired e.progress latest

variable {first : Nat} {e e' : Errand σ α β} {rounds : List Round} {latest : Latest β} {s : σ} {fired : Bool}
  {notes : List (Note β)}

/-- When the action of a recorded errand takes a step, its attempt begins, or has begun. -/
theorem Recorded.begun {r : Run (α × Bool)} {a : α} {fresh : Bool}
    (h : Recorded x P first ⟨s, notes, fired, .more r⟩ rounds latest) (hphase : r.phase = .acting (a, fresh)) :
    r.policy = P ∧ r.attempt = min (first + rounds.length) maxAttempt ∧ latest.outcome? = none ∧
      ∃ t, notes ++ Note.beginning fresh (x.now s) = Round.allNotes first rounds ++ [.began t] ∧
        ∀ last ∈ rounds.getLast?, last.due ≤ t := by
  obtain ⟨hnotes, -, -, hbegins, hstands⟩ := h
  dsimp only at hnotes hstands
  cases hstands with
  | waits => cases hphase
  | ready hdue =>
    cases hphase
    exact ⟨rfl, rfl, rfl, x.now s, by simp [hnotes, Latest.notes, Note.beginning], hdue⟩
  | @acts _ t =>
    cases hphase
    exact ⟨rfl, rfl, rfl, t, by simp [hnotes, Latest.notes, Note.beginning], fun last hlast => hbegins last hlast t rfl⟩

/-- The outcome of an attempt is returned when it ends the run. -/
theorem Recorded.returned {r : Run (α × Bool)} {a : α × Bool} {s' : σ × List (Note β)} {o : Except ClientError β}
    (h : Recorded x P first ⟨s, notes, fired, .more r⟩ rounds latest) (hphase : r.phase = .acting a)
    (hstep : x.noted.step (s, notes) a = some (s', .done o)) (ho : r.policy.Ends r.attempt o) :
    ∃ t, Recorded x P first ⟨s'.1, s'.2, fired, .done o⟩ rounds (.ended t o) := by
  obtain ⟨hpolicy, hattempt, -, t, hnotes, hdue⟩ := h.begun hphase
  obtain ⟨q, -, hs', hq⟩ := step_noted_eq_some hstep
  rw [hpolicy, hattempt] at ho
  cases q with
  | more => cases hq
  | done =>
    cases hq
    refine ⟨t, ?_, h.granted, h.waited, ?_, .returned ho⟩
    · rw [hs', hnotes]
      simp [Note.ending, Latest.notes]
    · rintro last hlast _ ⟨⟩
      exact hdue last hlast

/-- A failure that is granted a retry makes a round of its attempt. -/
theorem Recorded.retried {r : Run (α × Bool)} {a : α × Bool} {s' : σ × List (Note β)} {failure : ClientError}
    {delay : Span} (h : Recorded x P first ⟨s, notes, fired, .more r⟩ rounds latest) (hphase : r.phase = .acting a)
    (hstep : x.noted.step (s, notes) a = some (s', .done (.error failure))) (he : failure ≠ .cancelled)
    (ht : r.policy.transient failure = true) (hd : r.policy.decide r.attempt failure = .retry delay) :
    let s'' := x.noted.granted s' failure r.attempt delay
    ∃ round, Recorded x P first ⟨s''.1, s''.2, fired, .more ⟨r.policy, nextAttempt r.attempt,
      Run.awaiting x.noted s'' delay⟩⟩ (rounds ++ [round]) .pending := by
  obtain ⟨hpolicy, hattempt, -, t, hnotes, hdue⟩ := h.begun hphase
  obtain ⟨q, -, hs', hq⟩ := step_noted_eq_some hstep
  rw [hpolicy] at ht
  rw [hpolicy, hattempt] at hd
  cases q with
  | more => cases hq
  | done =>
    cases hq
    let time := x.now (x.granted s'.1 failure r.attempt delay)
    refine ⟨⟨t, failure, delay, time⟩, ?_, ?_, ?_, ?_, ?_⟩
    · show s'.2 ++ _ = _
      rw [hs', hnotes, Round.allNotes_concat]
      simp [Note.ending, Latest.notes, Round.notes, hattempt, time]
    · intro p hp
      rw [List.zipIdx_append, List.mem_append] at hp
      rcases hp with hp | hp
      · exact h.granted p hp
      · cases List.mem_singleton.mp hp
        exact ⟨he, ht, hd⟩
    · refine List.isChain_append.mpr ⟨h.waited, .singleton _, fun last hlast next hnext => ?_⟩
      cases hnext
      exact hdue last hlast
    · exact fun _ _ _ ht => nomatch ht
    · have hnext : nextAttempt r.attempt = min (first + (rounds.length + 1)) maxAttempt := by
        rw [hattempt, nextAttempt]
        omega
      rw [hpolicy, hnext, List.length_append, List.length_singleton, List.getLast?_concat, Run.awaiting]
      split
      · rename_i hzero
        refine .ready fun last hlast => ?_
        cases hlast
        exact Nat.le_of_eq (delay.deadline_of_isZero hzero time)
      · exact .waits rfl

/-- A step continues what is recorded of an errand. -/
theorem Recorded.turn {r : Run (α × Bool)} {s' : σ × List (Note β)}
    {p : Progress (Run (α × Bool)) (Except ClientError β)}
    (h : Recorded x P first ⟨s, notes, fired, .more r⟩ rounds latest)
    (hturn : Run.Turn x.noted fired (s, notes) r s' p) :
    ∃ rounds' latest', Recorded x P first ⟨s'.1, s'.2, fired, p⟩ rounds' latest' := by
  cases hturn with
  | @cancelledActing a hfired hphase =>
    obtain ⟨-, -, hunended, -⟩ := h.begun hphase
    exact ⟨rounds, latest, { h with stands := .cancelled hfired hunended }⟩
  | @cancelledPausing t hfired hphase =>
    have hunended : latest.outcome? = none := by
      cases h.stands with
      | waits => rfl
      | ready | acts => cases hphase
    exact ⟨rounds, latest, { h with stands := .cancelled hfired hunended }⟩
  | @advanced a a' _ hphase hstep =>
    obtain ⟨hpolicy, hattempt, -, t, hnotes, hdue⟩ := h.begun hphase
    obtain ⟨q, -, hs', hq⟩ := step_noted_eq_some hstep
    cases q with
    | done => cases hq
    | more =>
      cases hq
      refine ⟨rounds, .begun t, ?_, h.granted, h.waited, ?_, ?_⟩
      · rw [hs', hnotes]
        simp [Note.ending, Latest.notes]
      · rintro last hlast _ ⟨⟩
        exact hdue last hlast
      · rw [hpolicy, hattempt]
        exact .acts
  | succeeded _ hphase hstep =>
    obtain ⟨t, ht⟩ := h.returned hphase hstep nofun
    exact ⟨_, _, ht⟩
  | failed hphase hstep hends =>
    obtain ⟨t, ht⟩ := h.returned hphase hstep fun e he => by cases he; exact hends
    exact ⟨_, _, ht⟩
  | retried hphase hstep he ht hd =>
    obtain ⟨round, hround⟩ := h.retried hphase hstep he ht hd
    exact ⟨_, _, hround⟩
  | @resumed t hphase hdue =>
    cases h.stands with
    | @waits last hlast =>
      cases hphase
      refine ⟨rounds, .pending, { h with stands := .ready fun last' hlast' => ?_ }⟩
      rw [hlast] at hlast'
      cases hlast'
      exact hdue
    | ready | acts => cases hphase

end Errand

end HubDevice.Retry
