import HubDevice.Proofs.Device.Count
import Mathlib.Tactic.Common

/-!
# Whoever waits for the sends is woken

The count of the sends in flight and the notice that it has come to zero change one after the other, and sends may begin
in between. A `Scene` is a count with the sends that hold its guards and the waits for it, which take their steps in any
order. A wait notes how many notices were given before it looks at the count, and only a notice changes that number. So
while a parked wait has nothing new to see, the count is above zero, or the send that took it to zero has yet to give
notice (`Scene.Sound.awaited`). The last theorem, `Scene.no_notice_missed`, says this of every run, in terms of what
happened in it.
-/

namespace HubDevice.Drain

/-! ## Sends and waits -/

/-- What became of a send that has entered the count, or of a wait. -/
inductive Party where
  | send (l : Leaving)
  /-- A send that has given back its guard, and notice if it was the last. -/
  | gone
  | wait (w : Waiting)
  /-- A wait that has come to its end. -/
  | idle
  /-- A wait that was let go of. -/
  | released
  deriving DecidableEq

/-- What a wait has noted: how many notices were given when it registered. -/
def Waiting.noted? : Waiting → Option Nat
  | .register => none
  | .look n | .parked n => some n

namespace Party

def ofLeaving : Progress Leaving Unit → Party
  | .more l => .send l
  | .done () => .gone

def ofWaiting : Progress Waiting Unit → Party
  | .more w => .wait w
  | .done () => .idle

/-- One step of a party. -/
def step (d : Drain) : Party → Option (Drain × Party)
  | .send l => (l.step d).map fun s => (s.1, ofLeaving s.2)
  | .wait w => (w.step d).map fun s => (s.1, ofWaiting s.2)
  | .gone | .idle | .released => none

/-- Whether a party holds a guard of the count. -/
def holdsGuard : Party → Bool
  | .send .leave => true
  | _ => false

variable {d d' : Drain} {p p' : Party}

/-- What one step of a party can do. -/
inductive Turn (d : Drain) : Party → Drain → Party → Prop where
  | left : d.inflight ≠ 1 → Turn d (.send .leave) { d with inflight := d.inflight - 1 } .gone
  | leftLast : d.inflight = 1 → Turn d (.send .leave) { d with inflight := d.inflight - 1 } (.send .notify)
  | noticed : Turn d (.send .notify) { d with notices := d.notices + 1 } .gone
  | registered : Turn d (.wait .register) d (.wait (.look d.notices))
  | found (n : Nat) : d.inflight = 0 → Turn d (.wait (.look n)) d .idle
  | parked (n : Nat) : d.inflight ≠ 0 → Turn d (.wait (.look n)) d (.wait (.parked n))
  | woken (n : Nat) : d.notices ≠ n → Turn d (.wait (.parked n)) d (.wait .register)

theorem turn_of_step (h : p.step d = some (d', p')) : p.Turn d d' p' := by
  cases p with
  | send l =>
    obtain ⟨⟨d₁, pr⟩, hl, he⟩ := Option.map_eq_some_iff.mp h
    cases he
    cases Leaving.turn_of_step hl with
    | left hone => exact .left hone
    | leftLast hone => exact .leftLast hone
    | noticed => exact .noticed
  | wait w =>
    obtain ⟨⟨d₁, pr⟩, hw, he⟩ := Option.map_eq_some_iff.mp h
    cases he
    obtain ⟨rfl, hturn⟩ := Waiting.turn_of_step hw
    cases hturn with
    | registered => exact .registered
    | found n hidle => exact .found n hidle
    | parked n hidle => exact .parked n hidle
    | woken n hn => exact .woken n hn
  | gone | idle | released => cases h

theorem Turn.step (h : p.Turn d d' p') : p.step d = some (d', p') := by
  cases h with
  | left hone => simp [Party.step, Leaving.step, ofLeaving, hone]
  | leftLast hone => simp [Party.step, Leaving.step, ofLeaving, hone]
  | noticed | registered => rfl
  | found n hidle => simp [Party.step, Waiting.step, ofWaiting, hidle]
  | parked n hidle => simp [Party.step, Waiting.step, ofWaiting, hidle]
  | woken n hn => simp [Party.step, Waiting.step, ofWaiting, hn]

/-- The count goes down with the guards. -/
theorem Turn.passage (h : p.Turn d d' p') : d.Passage p.holdsGuard d' p'.holdsGuard := by
  cases h with
  | left | leftLast => exact .left
  | noticed => exact .kept _ _
  | registered | found | parked | woken => exact .idle _ _

end Party

/-! ## Scenes -/

/-- A count of sends with its sends and the waits for it. -/
structure Scene where
  drain : Drain := {}
  parties : List Party := []

namespace Scene

/-- What can happen to a count of sends. -/
inductive Happening where
  /-- A send enters the count and gets a guard. -/
  | enter
  /-- Somebody begins to wait. -/
  | wait
  /-- One step of a party: a send gives its guard back, or notice; a wait goes on. -/
  | step (i : Nat)
  /-- A wait is let go of. -/
  | release (i : Nat)

/-- What a happening leads to. -/
def after (x : Scene) : Happening → Option Scene
  | .enter => some { drain := x.drain.enter, parties := x.parties ++ [.send .leave] }
  | .wait => some { x with parties := x.parties ++ [.wait .register] }
  | .step i => do
    let p ← x.parties[i]?
    let (drain, p) ← p.step x.drain
    return { drain, parties := x.parties.set i p }
  | .release i =>
    match x.parties[i]? with
    | some (.wait _) => some { x with parties := x.parties.set i .released }
    | _ => none

/-- How many guards there are. -/
def guards (x : Scene) : Nat := x.parties.countP (·.holdsGuard)

/-! What a step of a run is. -/

/-- A wait takes the notification on which it may park. -/
def Registers (i : Nat) (y : Scene × Happening) : Prop := y.2 = .step i ∧ y.1.parties[i]? = some (.wait .register)

/-- A wait reads a count of zero. -/
def ReadsZero (i : Nat) (y : Scene × Happening) : Prop :=
  y.2 = .step i ∧ (∃ n, y.1.parties[i]? = some (.wait (.look n))) ∧ y.1.drain.inflight = 0

/-- A send that gives back its guard takes the count to zero. -/
def Empties (j : Nat) (y : Scene × Happening) : Prop :=
  y.2 = .step j ∧ y.1.parties[j]? = some (.send .leave) ∧ y.1.drain.inflight = 1

/-- Notice is given. -/
def Notifies (y : Scene × Happening) : Prop := ∃ j, y.2 = .step j ∧ y.1.parties[j]? = some (.send .notify)

/-- Notice was given since a wait registered, the last time that it did; the history has its newest step in front. -/
def Notified (i : Nat) (h : List (Scene × Happening)) : Prop :=
  ∃ newer y older, h = newer ++ y :: older ∧ Registers i y ∧ (∀ z ∈ newer, ¬ Registers i z) ∧ ∃ z ∈ newer, Notifies z

variable {x x' s s' : Scene} {e : Happening} {h : List (Scene × Happening)} {i j n : Nat} {p : Party} {w : Waiting}

/-- What a happening does: it adds a party, takes one a step further, or ends a wait. -/
inductive Change (x : Scene) : Happening → Scene → Prop where
  | entered : Change x .enter { drain := x.drain.enter, parties := x.parties ++ [.send .leave] }
  | begun : Change x .wait { x with parties := x.parties ++ [.wait .register] }
  | stepped {i : Nat} {p p' : Party} {d : Drain} : x.parties[i]? = some p → p.Turn x.drain d p' →
      Change x (.step i) { drain := d, parties := x.parties.set i p' }
  | released {i : Nat} {w : Waiting} : x.parties[i]? = some (.wait w) →
      Change x (.release i) { x with parties := x.parties.set i .released }

theorem change_of_after (he : x.after e = some x') : x.Change e x' := by
  cases e with
  | enter =>
    cases he
    exact .entered
  | wait =>
    cases he
    exact .begun
  | step i =>
    obtain ⟨p, hp, he⟩ := Option.bind_eq_some_iff.mp he
    obtain ⟨⟨d, p'⟩, hs, he⟩ := Option.bind_eq_some_iff.mp he
    cases he
    exact .stepped hp (Party.turn_of_step hs)
  | release i =>
    simp only [after] at he
    split at he <;> cases he
    exact .released ‹_›

theorem after_step {p' : Party} {d : Drain} (hp : x.parties[i]? = some p) (ht : p.Turn x.drain d p') :
    x.after (.step i) = some { drain := d, parties := x.parties.set i p' } := by
  simp [after, hp, ht.step]

/-! ## What a happening changes -/

/-- Where a party stands after a happening it stood before, or it has just begun, or was let go of, or this was its own
step. -/
theorem party_after {p' : Party} (he : x.after e = some x') (hi : x'.parties[i]? = some p') :
    x.parties[i]? = some p' ∨ p' ∈ [Party.send .leave, .wait .register, .released] ∨
      ∃ p d, e = .step i ∧ x.parties[i]? = some p ∧ p.Turn x.drain d p' := by
  cases change_of_after he with
  | entered => exact (getElem?_concat_cases hi).imp_right fun hp => .inl (by simp [hp])
  | begun => exact (getElem?_concat_cases hi).imp_right fun hp => .inl (by simp [hp])
  | stepped hp ht =>
    refine (getElem?_set_cases hi).imp_right ?_
    rintro ⟨rfl, rfl⟩
    exact .inr ⟨_, _, rfl, hp, ht⟩
  | released => exact (getElem?_set_cases hi).imp_right fun hp => .inl (by simp [hp])

theorem notices_of_notifies (hy : Notifies (x, e)) (he : x.after e = some x') :
    x'.drain.notices = x.drain.notices + 1 := by
  obtain ⟨j, rfl, hj⟩ := hy
  rw [after_step hj .noticed] at he
  cases he
  rfl

theorem notices_of_not_notifies (hy : ¬ Notifies (x, e)) (he : x.after e = some x') :
    x'.drain.notices = x.drain.notices := by
  cases change_of_after he with
  | entered | begun | released => rfl
  | stepped hp ht =>
    cases ht with
    | noticed => exact absurd ⟨_, rfl, hp⟩ hy
    | _ => rfl

theorem notices_le_after (he : x.after e = some x') : x.drain.notices ≤ x'.drain.notices := by
  by_cases hy : Notifies (x, e)
  · exact notices_of_notifies hy he ▸ Nat.le_succ _
  · exact Nat.le_of_eq (notices_of_not_notifies hy he).symm

/-- A wait has noted what it has when it registers, or had noted it before. -/
theorem noted_cases (he : x.after e = some x') (hi : x'.parties[i]? = some (.wait w)) (hn : w.noted? = some n) :
    Registers i (x, e) ∧ x.drain.notices = n ∨
      ¬ Registers i (x, e) ∧ ∃ w', x.parties[i]? = some (.wait w') ∧ w'.noted? = some n := by
  have before : ∀ w', x.parties[i]? = some (.wait w') → w'.noted? = some n → ¬ Registers i (x, e) := by
    rintro w' hw' hn' ⟨-, hreg⟩
    rw [hw'] at hreg
    cases hreg
    cases hn'
  rcases party_after he hi with hi | hnew | ⟨p, d, rfl, hp, ht⟩
  · exact .inr ⟨before w hi hn, w, hi, hn⟩
  · simp only [List.mem_cons, List.not_mem_nil, or_false, reduceCtorEq, false_or, Party.wait.injEq] at hnew
    subst hnew
    cases hn
  · cases ht with
    | registered => exact .inl ⟨⟨rfl, hp⟩, Option.some.inj hn⟩
    | parked m => exact .inr ⟨before _ hp hn, _, hp, hn⟩
    | woken => cases hn

/-! ## What every step keeps -/

/-- What is known of every scene. -/
structure Sound (x : Scene) : Prop where
  counts : x.drain.Counts (·.holdsGuard) x.parties
  noted : ∀ w n, .wait w ∈ x.parties → w.noted? = some n → n ≤ x.drain.notices
  /-- While a parked wait has nothing new to see, sends are in flight, or the last one has yet to give notice. -/
  awaited : .wait (.parked x.drain.notices) ∈ x.parties → 0 < x.drain.inflight ∨ .send .notify ∈ x.parties

theorem sound_start : Sound {} := ⟨rfl, nofun, nofun⟩

/-- The count stays the number of guards. -/
theorem counts_after (hx : x.drain.Counts (·.holdsGuard) x.parties) (he : x.after e = some x') :
    x'.drain.Counts (·.holdsGuard) x'.parties := by
  cases change_of_after he with
  | entered => exact hx.concat .entered
  | begun => exact hx.concat (.idle _ _)
  | stepped hp ht => exact hx.set hp ht.passage
  | released hp => exact hx.set hp (.idle _ _)

theorem noted_after (hx : ∀ w n, .wait w ∈ x.parties → w.noted? = some n → n ≤ x.drain.notices)
    (he : x.after e = some x') : ∀ w n, .wait w ∈ x'.parties → w.noted? = some n → n ≤ x'.drain.notices := by
  intro w n hw hn
  obtain ⟨i, hi⟩ := List.getElem?_of_mem hw
  rcases noted_cases he hi hn with ⟨-, rfl⟩ | ⟨-, w', hw', hn'⟩
  · exact notices_le_after he
  · exact Nat.le_trans (hx w' n (List.mem_of_getElem? hw') hn') (notices_le_after he)

theorem Sound.awaited_after (hx : x.Sound) (he : x.after e = some x')
    (hw : .wait (.parked x'.drain.notices) ∈ x'.parties) : 0 < x'.drain.inflight ∨ .send .notify ∈ x'.parties := by
  cases change_of_after he with
  | entered => exact .inl (Nat.succ_pos _)
  | begun =>
    rcases List.mem_append.mp hw with hw | hw
    · exact (hx.awaited hw).imp_right (List.mem_append_left _)
    · cases List.mem_singleton.mp hw
  | @stepped i p p' d hp ht =>
    have hbefore : .wait (.parked d.notices) ≠ p' → .wait (.parked d.notices) ∈ x.parties :=
      (List.mem_or_eq_of_mem_set hw).resolve_right
    have hstays : .send .notify ≠ p → .send .notify ∈ x.parties → .send .notify ∈ x.parties.set i p' :=
      fun hne hm => mem_set_of_ne hm hp hne
    cases ht with
    | left hone =>
      rcases hx.awaited (hbefore nofun) with hpos | hm
      · exact .inl (by dsimp only; omega)
      · exact .inr (hstays nofun hm)
    | leftLast => exact .inr (List.mem_set (List.getElem?_eq_some_iff.mp hp).1 _)
    | noticed =>
      -- Nobody has noted a notice that is only given now.
      have hle : x.drain.notices + 1 ≤ x.drain.notices := hx.noted _ _ (hbefore nofun) rfl
      omega
    | registered | found | woken => exact (hx.awaited (hbefore nofun)).imp_right (hstays nofun)
    | parked n hbusy => exact .inl (Nat.pos_of_ne_zero hbusy)
  | released hp =>
    rcases List.mem_or_eq_of_mem_set hw with hw | hw
    · exact (hx.awaited hw).imp_right fun hm => mem_set_of_ne hm hp nofun
    · cases hw

theorem sound_after (hx : x.Sound) (he : x.after e = some x') : x'.Sound :=
  ⟨counts_after hx.counts he, noted_after hx.noted he, hx.awaited_after he⟩

theorem sound_of_history (hh : History after {} h s) : s.Sound := hh.keeps sound_start fun he hx => sound_after hx he

/-! ## What is known from the history -/

/-- What a wait has noted is how many notices there were when it registered, the last time that it did. -/
theorem registered_of_noted (hh : History after {} h s) (hi : s.parties[i]? = some (.wait w)) (hn : w.noted? = some n) :
    ∃ newer y older, h = newer ++ y :: older ∧ Registers i y ∧ (∀ z ∈ newer, ¬ Registers i z) ∧
      y.1.drain.notices = n := by
  induction hh generalizing w with
  | refl => cases hi
  | tail e _ he ih =>
    rcases noted_cases he hi hn with ⟨hreg, hnotices⟩ | ⟨hreg, w', hw', hn'⟩
    · exact ⟨[], _, _, rfl, hreg, nofun, hnotices⟩
    · obtain ⟨newer, y, older, rfl, hy, hno, hnotices⟩ := ih hw' hn'
      exact ⟨_ :: newer, y, older, rfl, hy, List.forall_mem_cons.mpr ⟨hreg, hno⟩, hnotices⟩

/-- A wait that has not registered since has noted what it had noted before. -/
theorem noted_before (hh : History after s h s') (hno : ∀ y ∈ h, ¬ Registers i y)
    (hi : s'.parties[i]? = some (.wait w)) (hn : w.noted? = some n) :
    ∃ w', s.parties[i]? = some (.wait w') ∧ w'.noted? = some n := by
  induction hh generalizing w with
  | refl => exact ⟨w, hi, hn⟩
  | tail e _ he ih =>
    obtain ⟨hnot, hnone⟩ := List.forall_mem_cons.mp hno
    rcases noted_cases he hi hn with ⟨hreg, -⟩ | ⟨-, w', hw', hn'⟩
    · exact absurd hreg hnot
    · exact ih hnone hw' hn'

theorem notices_of_quiet (hh : History after s h s') (hquiet : ∀ y ∈ h, ¬ Notifies y) :
    s'.drain.notices = s.drain.notices := by
  induction hh with
  | refl => rfl
  | tail e _ he ih =>
    obtain ⟨hy, hquiet⟩ := List.forall_mem_cons.mp hquiet
    rw [notices_of_not_notifies hy he, ih hquiet]

theorem Registers.not_notifies {y : Scene × Happening} (hy : Registers i y) : ¬ Notifies y := by
  rintro ⟨j, hj, hparty⟩
  obtain ⟨hi, hreg⟩ := hy
  cases hi.symm.trans hj
  rw [hreg] at hparty
  cases hparty

/-- A wait has something new to see just when notice was given since it registered. -/
theorem notices_ne_iff (hh : History after {} h s) (hi : s.parties[i]? = some (.wait w)) (hn : w.noted? = some n) :
    s.drain.notices ≠ n ↔ Notified i h := by
  constructor
  · intro hne
    obtain ⟨newer, y, older, rfl, hy, hno, hnotices⟩ := registered_of_noted hh hi hn
    refine ⟨newer, y, older, rfl, hy, hno, ?_⟩
    by_contra hnone
    push Not at hnone
    obtain ⟨-, s₁, hs₁, hnewer⟩ := hh.cut
    have hsince : History after y.1 (newer ++ [y]) s := (History.refl.tail y.2 hs₁).trans hnewer
    refine hne ((notices_of_quiet hsince fun z hz => ?_).trans hnotices)
    rcases List.mem_append.mp hz with hz | hz
    · exact hnone z hz
    · exact List.mem_singleton.mp hz ▸ hy.not_notifies
  · rintro ⟨newer, y, older, rfl, hy, hno, z, hz, hnotifies⟩
    obtain ⟨newest, middle, rfl⟩ := List.append_of_mem hz
    rw [List.append_assoc] at hh
    obtain ⟨hbefore, s₁, hs₁, hafter⟩ := hh.cut
    have hnewest : newest ++ [z] ⊆ newest ++ z :: middle :=
      List.append_cons newest z middle ▸ List.subset_append_left _ _
    -- What the wait has noted it had noted before the notice was given.
    have hstep : History after z.1 (newest ++ [z]) s := (History.refl.tail z.2 hs₁).trans hafter
    obtain ⟨w', hw', hn'⟩ := noted_before hstep (fun y hy => hno y (hnewest hy)) hi hn
    have hnoted := (sound_of_history hbefore).noted w' n (List.mem_of_getElem? hw') hn'
    have hgiven := notices_of_notifies hnotifies hs₁
    have hgrown := hafter.keeps (P := fun x => s₁.drain.notices ≤ x.drain.notices) (Nat.le_refl _)
      fun he hle => Nat.le_trans hle (notices_le_after he)
    omega

/-- A send that has yet to give notice has taken the count to zero. -/
theorem exists_empties (hh : History after {} h s) (hj : s.parties[j]? = some (.send .notify)) :
    ∃ y ∈ h, Empties j y := by
  induction hh with
  | refl => cases hj
  | tail e _ he ih =>
    rcases party_after he hj with hj | hnew | ⟨p, d, rfl, hp, ht⟩
    · obtain ⟨y, hy, hempties⟩ := ih hj
      exact ⟨y, List.mem_cons_of_mem _ hy, hempties⟩
    · simp at hnew
    · cases ht with
      | leftLast hone => exact ⟨_, List.mem_cons_self, rfl, hp, hone⟩

/-- A wait that has come to its end stays there. -/
theorem idle_after (he : x.after e = some x') (hi : x.parties[i]? = some .idle) : x'.parties[i]? = some .idle := by
  have hlt := (List.getElem?_eq_some_iff.mp hi).1
  have replaced : ∀ j p q, x.parties[j]? = some p → p ≠ .idle → (x.parties.set j q)[i]? = some .idle := by
    intro j p q hp hne
    rw [List.getElem?_set_ne, hi]
    rintro rfl
    exact hne (Option.some.inj (hp.symm.trans hi))
  cases change_of_after he with
  | entered | begun => exact (List.getElem?_append_left hlt).trans hi
  | stepped hp ht => exact replaced _ _ _ hp (by rintro rfl; cases ht)
  | released hp => exact replaced _ _ _ hp nofun

/-- A wait comes to its end just by reading a count of zero. -/
theorem idle_iff (hh : History after {} h s) : s.parties[i]? = some .idle ↔ ∃ y ∈ h, ReadsZero i y := by
  constructor
  · intro hi
    induction hh with
    | refl => cases hi
    | tail e _ he ih =>
      rcases party_after he hi with hi | hnew | ⟨p, d, rfl, hp, ht⟩
      · obtain ⟨y, hy, hreads⟩ := ih hi
        exact ⟨y, List.mem_cons_of_mem _ hy, hreads⟩
      · simp at hnew
      · cases ht with
        | found n hidle => exact ⟨_, List.mem_cons_self, rfl, ⟨n, hp⟩, hidle⟩
  · rintro ⟨⟨x, e⟩, hy, rfl, ⟨n, hp⟩, hidle⟩
    obtain ⟨-, newer, s₁, -, hs₁, hnewer⟩ := hh.of_mem hy
    rw [after_step hp (.found n hidle)] at hs₁
    cases hs₁
    exact hnewer.keeps (List.getElem?_set_self (List.getElem?_eq_some_iff.mp hp).1) fun he hi => idle_after he hi

/-! ## Waits that go on alone -/

/-- A wait comes to its end in a number of steps of its own. -/
def EndsIn (i : Nat) : Nat → Scene → Prop
  | 0, x => x.parties[i]? = some .idle
  | k + 1, x => ∃ x', x.after (.step i) = some x' ∧ EndsIn i k x'

theorem endsIn_of_look (hi : x.parties[i]? = some (.wait (.look n))) (hidle : x.drain.inflight = 0) : EndsIn i 1 x :=
  ⟨_, after_step hi (.found n hidle), List.getElem?_set_self (List.getElem?_eq_some_iff.mp hi).1⟩

theorem endsIn_of_register (hi : x.parties[i]? = some (.wait .register)) (hidle : x.drain.inflight = 0) :
    EndsIn i 2 x :=
  ⟨_, after_step hi .registered, endsIn_of_look (List.getElem?_set_self (List.getElem?_eq_some_iff.mp hi).1) hidle⟩

theorem endsIn_of_parked (hi : x.parties[i]? = some (.wait (.parked n))) (hidle : x.drain.inflight = 0)
    (hn : x.drain.notices ≠ n) : EndsIn i 3 x :=
  ⟨_, after_step hi (.woken n hn),
    endsIn_of_register (List.getElem?_set_self (List.getElem?_eq_some_iff.mp hi).1) hidle⟩

/-- When nothing is in flight and nobody has yet to give notice, every wait ends on its own. -/
theorem Sound.exists_endsIn (hx : x.Sound) (hidle : x.drain.inflight = 0) (hquiet : .send .notify ∉ x.parties)
    (hi : x.parties[i]? = some (.wait w)) : ∃ k ≤ 3, EndsIn i k x := by
  cases w with
  | register => exact ⟨2, by omega, endsIn_of_register hi hidle⟩
  | look n => exact ⟨1, by omega, endsIn_of_look hi hidle⟩
  | parked n =>
    refine ⟨3, by omega, endsIn_of_parked hi hidle ?_⟩
    rintro rfl
    rcases hx.awaited (List.mem_of_getElem? hi) with hpos | hm
    · omega
    · exact hquiet hm

/-- In every run of a count of sends, however entering, giving guards back, giving notice, waiting and letting go of
waits are interleaved: the count is the number of guards; a parked wait can go on just when notice was given since it
registered; while nothing is in flight, that is so for every parked wait, or a send that took the count to zero has yet
to give notice; a wait has come to its end just when it has read a count of zero; and when nothing is in flight and
nobody has yet to give notice, every wait comes to its end in at most three steps of its own. -/
theorem no_notice_missed (hh : History after {} h s) :
    s.drain.inflight = s.guards ∧
    (∀ i n, s.parties[i]? = some (.wait (.parked n)) → ((∃ s', s.after (.step i) = some s') ↔ Notified i h)) ∧
    (s.drain.inflight = 0 → ∀ i n, s.parties[i]? = some (.wait (.parked n)) →
      Notified i h ∨ ∃ j, s.parties[j]? = some (.send .notify) ∧ ∃ y ∈ h, Empties j y) ∧
    (∀ i, s.parties[i]? = some .idle ↔ ∃ y ∈ h, ReadsZero i y) ∧
    (s.drain.inflight = 0 → .send .notify ∉ s.parties →
      ∀ i w, s.parties[i]? = some (.wait w) → ∃ k ≤ 3, EndsIn i k s) := by
  have hsound := sound_of_history hh
  refine ⟨hsound.counts, fun i n hi => ?_, fun hidle i n hi => ?_, fun i => idle_iff hh,
    fun hidle hquiet i w hi => hsound.exists_endsIn hidle hquiet hi⟩
  · rw [← notices_ne_iff hh hi rfl]
    constructor
    · rintro ⟨s', hs'⟩
      cases change_of_after hs' with
      | stepped hp ht =>
        cases hp.symm.trans hi
        cases ht with
        | woken _ hn => exact hn
    · exact fun hn => ⟨_, after_step hi (.woken n hn)⟩
  · rw [← notices_ne_iff hh hi rfl, or_iff_not_imp_left, not_not]
    rintro rfl
    rcases hsound.awaited (List.mem_of_getElem? hi) with hpos | hm
    · omega
    · obtain ⟨j, hj⟩ := List.getElem?_of_mem hm
      exact ⟨j, hj, exists_empties hh hj⟩

/-- Two parties wait for one send; it leaves, another enters before notice is given, and only one of the two has gone on
and parked again when that one leaves as well. A third party finds the count at zero before notice of that. -/
def crossedSends : List Happening :=
  [.enter, .wait, .wait, .step 1, .step 1, .step 2, .step 2, .step 0, .enter, .step 0, .step 1, .step 1, .step 1,
    .step 3, .wait, .step 4, .step 4]

theorem no_notice_missed_crossedSends : ∃ h s, History after {} h s ∧ s.drain.inflight = 0 ∧
    s.parties = [.gone, .wait (.parked 1), .wait (.parked 0), .send .notify, .idle] ∧
    Notified 2 h ∧ (∃ j, s.parties[j]? = some (.send .notify) ∧ ∃ y ∈ h, Empties j y) ∧ ∃ y ∈ h, ReadsZero 4 y := by
  obtain ⟨h, s, hc, hidle, hnotices, hparties⟩ : ∃ h s, replay after {} crossedSends = some (h, s) ∧
      s.drain.inflight = 0 ∧ s.drain.notices = 1 ∧
      s.parties = [.gone, .wait (.parked 1), .wait (.parked 0), .send .notify, .idle] := ⟨_, _, rfl, rfl, rfl, rfl⟩
  have hh := History.of_replay hc
  obtain ⟨-, hgoes, hwaits, hidles, -⟩ := no_notice_missed hh
  have hstuck : ¬ Notified 1 h := by
    rw [← hgoes 1 1 (by simp [hparties])]
    simp [after, hparties, Party.step, Waiting.step, hnotices]
  have hgiven : Notified 2 h := by
    rw [← hgoes 2 0 (by simp [hparties])]
    simp [after, hparties, Party.step, Waiting.step, hnotices]
  exact ⟨h, s, hh, hidle, hparties, hgiven, (hwaits hidle 1 1 (by simp [hparties])).resolve_left hstuck,
    (hidles 4).mp (by simp [hparties])⟩

end Scene

end HubDevice.Drain
