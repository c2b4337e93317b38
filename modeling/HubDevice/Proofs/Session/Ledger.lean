import HubDevice.Proofs.Session.Wire

/-!
# The record of control calls

Control calls are those that are not part of the routine use of a session: they create, connect, close
and subscribe. `Wire.control` is their record. While the unsettled control calls are known (`Wire.Owned`),
whatever else is done to the wire adds nothing to the record but answers of these calls
(`Wire.Touch.control`), and the record of each of them stands (`Wire.Recorded`).
-/

namespace HubDevice

instance : DecidablePred Request.Routine := fun r => match r with
  | .data _ _ | .refresh _ => isTrue trivial
  | .create | .connect _ _ | .close _ | .subscribe _ _ | .unsubscribe _ _ => isFalse id

/-- The session that an event brought into being. -/
def Event.created? : Event → Option SessionId
  | .answered _ .create (.ok (.session s)) => some s
  | _ => none

/-- Whether an event is about a control call. -/
def Event.isControl : Event → Bool
  | .called _ r | .answered _ r _ => !decide r.Routine
  | .reported _ => false

theorem Event.isControl_of_created {e : Event} {s : SessionId} (h : e.created? = some s) :
    e.isControl = true := by
  unfold Event.created? at h
  split at h
  · rfl
  · cases h

namespace Wire

/-- What happened to control calls; the newest event comes first. -/
def control (w : Wire) : List Event := w.trace.filter Event.isControl

/-- Every control call that is not settled is one of `ids`. -/
def Owned (w : Wire) (ids : List CallId) : Prop := ∀ c ∈ w.calls, ¬ c.request.Routine → c.id ∈ ids

/-- What is on record of a call that was made and not yet settled: that it was made, and its answer, once
there is one. -/
inductive Recorded (w : Wire) (id : CallId) (r : Request) : List Event → Prop where
  | pending : id < w.issued → (∀ c ∈ w.calls, c.id = id → c.request = r ∧ c.answer = none) →
      Recorded w id r [.called id r]
  | answered (o : Outcome) : id < w.issued →
      (∀ c ∈ w.calls, c.id = id → c.request = r ∧ c.answer = some o) →
      Recorded w id r [.answered id r o, .called id r]

variable {A : Scope} {w w' : Wire} {id : CallId} {r : Request} {ids : List CallId} {evs : List Event}

theorem Recorded.issued (h : w.Recorded id r evs) : id < w.issued := by
  cases h with
  | pending hi | answered _ hi => exact hi

theorem Recorded.request (h : w.Recorded id r evs) {c : PendingCall} (hc : c ∈ w.calls)
    (he : c.id = id) : c.request = r := by
  cases h with
  | pending _ hp => exact (hp c hc he).1
  | answered _ _ hp => exact (hp c hc he).1

/-- A call that was answered has its answer on record. -/
theorem Recorded.of_answer (h : w.Recorded id r evs) {c : PendingCall} {o : Outcome} (hc : c ∈ w.calls)
    (he : c.id = id) (ha : c.answer = some o) : evs = [.answered id r o, .called id r] := by
  cases h with
  | pending _ hp =>
    rw [(hp c hc he).2] at ha
    cases ha
  | answered o' _ hp =>
    rw [(hp c hc he).2] at ha
    rw [Option.some.inj ha]

/-- The record of a call stands while no call of its number changes. -/
theorem Recorded.mono (h : w.Recorded id r evs) (hi : w.issued ≤ w'.issued)
    (hc : ∀ c ∈ w'.calls, c.id = id → c ∈ w.calls) : w'.Recorded id r evs := by
  cases h with
  | pending hlt hp => exact .pending (Nat.lt_of_lt_of_le hlt hi) fun c hm he => hp c (hc c hm he) he
  | answered o hlt hp => exact .answered o (Nat.lt_of_lt_of_le hlt hi) fun c hm he => hp c (hc c hm he) he

theorem Owned.mono (h : w.Owned ids) (hc : ∀ c ∈ w'.calls, c ∈ w.calls) : w'.Owned ids :=
  fun c hm => h c (hc c hm)

/-! ## Making and settling a call -/

theorem control_call (w : Wire) (hr : ¬ r.Routine) :
    (w.call r).1.control = .called w.issued r :: w.control := by
  simp [control, trace_call, Event.isControl, hr]

theorem Recorded.call (h : w.Recorded id r evs) (r' : Request) : (w.call r').1.Recorded id r evs := by
  refine h.mono (by rw [issued_call]; exact Nat.le_succ _) fun c hc he => ?_
  rcases mem_calls_call hc with hc | rfl
  · exact hc
  · exact absurd he.symm (Nat.ne_of_lt h.issued)

theorem recorded_call (hn : w.Numbered) (r : Request) :
    (w.call r).1.Recorded w.issued r [.called w.issued r] := by
  refine .pending (by rw [issued_call]; exact Nat.lt_succ_self _) fun c hc he => ?_
  rcases mem_calls_call hc with hc | rfl
  · exact absurd he (Nat.ne_of_lt (hn c hc))
  · exact ⟨rfl, rfl⟩

theorem Owned.call (h : w.Owned ids) (r : Request) : (w.call r).1.Owned (w.issued :: ids) := by
  intro c hc hr
  rcases mem_calls_call hc with hc | rfl
  · exact List.mem_cons_of_mem _ (h c hc hr)
  · exact List.mem_cons_self

theorem Recorded.abandon (h : w.Recorded id r evs) (id' : CallId) : (w.abandon id').Recorded id r evs :=
  h.mono (Nat.le_refl _) fun _ hc _ => (mem_calls_abandon.mp hc).1

theorem Owned.abandon (h : w.Owned (id :: ids)) : (w.abandon id).Owned ids := by
  intro c hc hr
  obtain ⟨hc, hne⟩ := mem_calls_abandon.mp hc
  rcases List.mem_cons.mp (h c hc hr) with he | hm
  · exact absurd he hne
  · exact hm

/-! ## What others do -/

theorem answer_cases (w : Wire) (id : CallId) (o : Outcome) :
    w.answer id o = w ∨ ∃ d ∈ w.calls, d.id = id ∧ d.answer = none ∧
      (w.answer id o).trace = .answered id d.request (w.bring d.request o) :: w.trace ∧
      (w.answer id o).calls =
        w.calls.map fun c => if c.id = id then { c with answer := some (w.bring d.request o) } else c := by
  unfold answer
  split
  · exact .inl rfl
  · rename_i d hf
    have hp := List.find?_some hf
    simp only [Option.isNone_iff_eq_none, decide_eq_true_eq] at hp
    exact .inr ⟨d, List.mem_of_find?_eq_some hf, hp.1, hp.2, rfl, rfl⟩

/-- The record after a change: it stands, or one of the owned calls was answered. -/
inductive Kept (w w' : Wire) (ids : List CallId) : Prop where
  | stands : w'.control = w.control →
      (∀ id r evs, ¬ r.Routine → w.Recorded id r evs → w'.Recorded id r evs) → Kept w w' ids
  | answered (id₀ : CallId) (r₀ : Request) (o : Outcome) : id₀ ∈ ids →
      w'.control = .answered id₀ r₀ o :: w.control →
      (∀ id r evs, w.Recorded id r evs → (id = id₀ → r = r₀) ∧
        w'.Recorded id r (if id = id₀ then .answered id r o :: evs else evs)) → Kept w w' ids

theorem owned_answer (h : w.Owned ids) (id : CallId) (o : Outcome) : (w.answer id o).Owned ids := by
  rcases answer_cases w id o with he | ⟨d, -, -, -, -, hc⟩
  · rwa [he]
  · intro c hm hr
    rw [hc] at hm
    obtain ⟨c', hm', rfl⟩ := List.mem_map.mp hm
    split at hr <;> split
    all_goals exact h c' hm' hr

theorem mem_calls_of_ne {o : Outcome} {d : PendingCall} {id' : CallId} {c : PendingCall}
    (hc : (w.answer id o).calls =
      w.calls.map fun c => if c.id = id then { c with answer := some (w.bring d.request o) } else c)
    (hm : c ∈ (w.answer id o).calls) (he : c.id = id') (hne : id' ≠ id) : c ∈ w.calls := by
  rw [hc] at hm
  obtain ⟨c', hm', rfl⟩ := List.mem_map.mp hm
  split at he
  · rename_i hi
    exact absurd (he.symm.trans hi) hne
  · split
    · rename_i hn hi
      exact absurd hi hn
    · exact hm'

theorem kept_answer (h : w.Owned ids) (id : CallId) (o : Outcome) : Kept w (w.answer id o) ids := by
  rcases answer_cases w id o with he | ⟨d, hd, hid, hnone, ht, hc⟩
  · rw [he]
    exact .stands rfl fun _ _ _ _ hr => hr
  · have other : ∀ {id' r evs}, id' ≠ id → w.Recorded id' r evs → (w.answer id o).Recorded id' r evs :=
      fun hne hr => hr.mono (Nat.le_of_eq (issued_answer w id o).symm)
        fun c hm he => mem_calls_of_ne hc hm he hne
    by_cases hrt : d.request.Routine
    · refine .stands (by simp [control, ht, Event.isControl, hrt]) fun id' r evs hr hrec => ?_
      by_cases hi : id' = id
      · subst hi
        exact absurd (hrec.request hd hid ▸ hrt) hr
      · exact other hi hrec
    · refine .answered id d.request (w.bring d.request o) (hid ▸ h d hd hrt)
        (by simp [control, ht, Event.isControl, hrt]) fun id' r evs hrec => ?_
      by_cases hi : id' = id
      · subst hi
        refine ⟨fun _ => (hrec.request hd hid).symm, ?_⟩
        rw [if_pos rfl]
        cases hrec with
        | answered o' _ hp =>
          rw [(hp d hd hid).2] at hnone
          cases hnone
        | pending hlt hp =>
          refine .answered _ (by rw [issued_answer]; exact hlt) fun c hm he => ?_
          rw [hc] at hm
          obtain ⟨c', hm', rfl⟩ := List.mem_map.mp hm
          split at he
          · rename_i hi
            simp [hi, (hp c' hm' hi).1]
          · rename_i hi
            exact absurd he hi
      · rw [if_neg hi]
        exact ⟨fun he => absurd he hi, other hi hrec⟩

/-- Whoever makes only routine calls adds nothing to the record but answers of the owned calls. -/
theorem Touch.control (h : Touch A w w') (hA : ∀ r, A.calls r → r.Routine) (ho : w.Owned ids) :
    w'.Owned ids ∧ Kept w w' ids := by
  cases h with
  | @called r hr =>
    have hrt := hA r hr
    refine ⟨fun c hc hn => ?_, .stands (by simp [control, trace_call, Event.isControl, hrt])
      fun _ _ _ _ hrec => hrec.call r⟩
    rcases mem_calls_call hc with hc | rfl
    · exact ho c hc hn
    · exact absurd hrt hn
  | abandoned id =>
    exact ⟨ho.mono fun _ hc => (mem_calls_abandon.mp hc).1,
      .stands rfl fun _ _ _ _ hrec => hrec.abandon id⟩
  | answered id o => exact ⟨owned_answer ho id o, kept_answer ho id o⟩
  | ended s cause =>
    exact ⟨ho.mono fun _ hc => hc,
      .stands rfl fun _ _ _ _ hrec => hrec.mono (Nat.le_refl _) fun _ hc _ => hc⟩
  | reported hs =>
    exact ⟨ho.mono fun _ hc => hc,
      .stands rfl fun _ _ _ _ hrec => hrec.mono (Nat.le_refl _) fun _ hc _ => hc⟩

/-- The record of the only owned call grows with the record of all. -/
theorem Recorded.kept (hr : w.Recorded id r evs) (hk : Kept w w' [id]) (hn : ¬ r.Routine) :
    ∃ new, w'.control = new ++ w.control ∧ w'.Recorded id r (new ++ evs) := by
  cases hk with
  | stands hc hw => exact ⟨[], hc, hw id r evs hn hr⟩
  | answered id₀ r₀ o hm hc hw =>
    have he : id = id₀ := (List.mem_singleton.mp hm).symm
    obtain ⟨hreq, hrec⟩ := hw id r evs hr
    rw [if_pos he] at hrec
    refine ⟨[.answered id r o], ?_, hrec⟩
    rw [hc, he, hreq he]
    rfl

/-- The newest part of the record is what is known of the only unsettled control call. -/
def Ongoing (w : Wire) (id : CallId) (r : Request) (base : List Event) : Prop :=
  w.Owned [id] ∧ ∃ evs, w.Recorded id r evs ∧ w.control = evs ++ base

theorem ongoing_call (hn : w.Numbered) (ho : w.Owned []) (hr : ¬ r.Routine) :
    (w.call r).1.Ongoing w.issued r w.control :=
  ⟨ho.call r, _, recorded_call hn r, control_call w hr⟩

theorem Ongoing.touches {base : List Event} (h : Touches A w w') (hA : ∀ r, A.calls r → r.Routine)
    (ho : w.Ongoing id r base) (hn : ¬ r.Routine) : w'.Ongoing id r base := by
  induction h with
  | refl => exact ho
  | tail _ ht ih =>
    obtain ⟨how, evs, hr, hc⟩ := ih
    obtain ⟨ho', hk⟩ := ht.control hA how
    obtain ⟨new, hc', hr'⟩ := hr.kept hk hn
    exact ⟨ho', _, hr', by rw [hc', hc, List.append_assoc]⟩

/-- Once it is answered, the record is complete. -/
theorem Ongoing.control_of_answer {base : List Event} (h : w.Ongoing id r base) {c : PendingCall}
    {o : Outcome} (hc : c ∈ w.calls) (he : c.id = id) (ha : c.answer = some o) :
    w.control = .answered id r o :: .called id r :: base := by
  obtain ⟨-, evs, hr, hctl⟩ := h
  rw [hctl, hr.of_answer hc he ha]
  rfl

/-- With no control call unsettled, the record stands. -/
theorem Touches.control_eq (h : Touches A w w') (hA : ∀ r, A.calls r → r.Routine) (ho : w.Owned []) :
    w'.Owned [] ∧ w'.control = w.control := by
  induction h with
  | refl => exact ⟨ho, rfl⟩
  | tail _ ht ih =>
    obtain ⟨ho', hk⟩ := ht.control hA ih.1
    cases hk with
    | stands hc _ => exact ⟨ho', hc.trans ih.2⟩
    | answered id₀ _ _ hm => cases hm

theorem Touches.owned (h : Touches A w w') (hA : ∀ r, A.calls r → r.Routine) (ho : w.Owned ids) :
    w'.Owned ids := by
  induction h with
  | refl => exact ho
  | tail _ ht ih => exact (ht.control hA ih).1

/-! ## Created sessions -/

/-- Sessions were created in the order of their numbers, all of them. -/
def Chronicled (w : Wire) : Prop :=
  w.trace.filterMap Event.created? = (List.range w.sessions.length).reverse

theorem Chronicled.of_eq (h : w.Chronicled) (ht : w'.trace = w.trace)
    (hs : w'.sessions.length = w.sessions.length) : w'.Chronicled := by
  unfold Chronicled at h ⊢
  rw [ht, hs, h]

theorem created?_bring (w : Wire) (id : CallId) (r : Request) (o : Outcome) :
    (Event.answered id r (w.bring r o)).created?.toList ++ (List.range w.sessions.length).reverse =
      (List.range (w.sessionsAfter r o).length).reverse := by
  unfold bring sessionsAfter
  split
  · simp [Event.created?, List.range_succ]
  · rename_i hne
    have hno : (Event.answered id r o).created? = none := by
      unfold Event.created?
      split
      · rename_i he
        cases he
        exact absurd rfl (hne _ rfl)
      · rfl
    rw [hno]
    cases r <;> cases o <;> rfl

theorem Touch.chronicled (h : Touch A w w') (hw : w.Chronicled) : w'.Chronicled := by
  cases h with
  | @called r _ =>
    unfold Chronicled
    rw [trace_call, List.filterMap_cons]
    have hs : (w.call r).1.sessions.length = w.sessions.length := by
      unfold call
      split <;> simp [endSession]
    rw [hs]
    exact hw
  | abandoned => exact hw
  | ended => exact hw.of_eq rfl (by simp [endSession])
  | reported => exact hw
  | answered id o =>
    unfold answer
    split
    · exact hw
    · rename_i c _
      have hcons : ∀ e : Event, (e :: w.trace).filterMap Event.created? =
          e.created?.toList ++ w.trace.filterMap Event.created? := by
        intro e
        cases he : e.created? <;> simp [he]
      unfold Chronicled at hw ⊢
      dsimp only
      rw [hcons, hw]
      exact created?_bring w id c.request o

theorem Touches.chronicled (h : Touches A w w') (hw : w.Chronicled) : w'.Chronicled := by
  induction h with
  | refl => exact hw
  | tail _ ht ih => exact ht.chronicled ih

/-- The record of control calls shows every session that was created. -/
theorem Chronicled.control (hw : w.Chronicled) :
    w.control.filterMap Event.created? = (List.range w.sessions.length).reverse := by
  rw [← hw, Wire.control, List.filterMap_filter]
  congr 1
  funext e
  split
  · rfl
  · rename_i hn
    cases hcr : e.created? with
    | none => rfl
    | some s => exact absurd (Event.isControl_of_created hcr) hn

theorem Chronicled.length_eq (hw : w.Chronicled) (hw' : w'.Chronicled) (hc : w'.control = w.control) :
    w'.sessions.length = w.sessions.length := by
  have h := congrArg List.length hw.control
  have h' := congrArg List.length hw'.control
  rw [hc] at h'
  simpa using h'.symm.trans h

/-- A session that the record shows to be created is newer than those created before. -/
theorem Chronicled.lt_of_created (hw : w.Chronicled) {newer older : List Event} {id id' : CallId}
    {s t : SessionId} (hc : w.control = newer ++ .answered id .create (.ok (.session s)) :: older)
    (ht : .answered id' .create (.ok (.session t)) ∈ older) : t < s := by
  have hpair : (w.control.filterMap Event.created?).Pairwise (· > ·) := by
    rw [hw.control, List.pairwise_reverse]
    exact List.pairwise_lt_range
  rw [hc, List.filterMap_append, List.pairwise_append] at hpair
  have hs := hpair.2.1
  rw [List.filterMap_cons_some (f := Event.created?) rfl, List.pairwise_cons] at hs
  exact hs.1 t (List.mem_filterMap.mpr ⟨_, ht, rfl⟩)

end Wire

end HubDevice
