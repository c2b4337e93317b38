import HubDevice.Proofs.Session.Ledger

/-!
# The answers to a call

Of every call the record shows each answer that was given to it (`Wire.answersTo`). A call that somebody still
waits for has at most the answer that waits with it (`Wire.Awaited`), and once that answer is taken there is
never another one (`Wire.Answered`), whatever else is done to the wire.
-/

namespace HubDevice

/-- The answer to the call of a number that an event is. -/
def Event.answerTo? (id : CallId) : Event → Option Outcome
  | .answered id' _ o => if id' = id then some o else none
  | _ => none

namespace Wire

/-- The answers that were given to a call. -/
def answersTo (w : Wire) (id : CallId) : List Outcome := w.trace.filterMap (Event.answerTo? id)

/-- Whatever was answered was called before. -/
def Dated (w : Wire) : Prop := ∀ id, w.issued ≤ id → w.answersTo id = []

/-- A call that is still waited for: its answer is there as soon as it is on record. -/
structure Awaited (w : Wire) (id : CallId) : Prop where
  issued : id < w.issued
  answers : ∀ c ∈ w.calls, c.id = id → w.answersTo id = c.answer.toList

/-- A call whose only answer was taken. -/
structure Answered (w : Wire) (id : CallId) (o : Outcome) : Prop where
  issued : id < w.issued
  settled : ∀ c ∈ w.calls, c.id ≠ id
  answers : w.answersTo id = [o]

variable {A : Scope} {w w' : Wire} {id : CallId} {o : Outcome} {r : Request}

theorem answersTo_of_trace (h : w'.trace = w.trace) : w'.answersTo id = w.answersTo id := by
  unfold answersTo
  rw [h]

theorem answersTo_call (w : Wire) (r : Request) : (w.call r).1.answersTo id = w.answersTo id := by
  unfold answersTo
  rw [trace_call, List.filterMap_cons_none rfl]

theorem answersTo_answer {r : Request} {id' : CallId} (h : w'.trace = .answered id' r o :: w.trace) :
    w'.answersTo id = if id' = id then o :: w.answersTo id else w.answersTo id := by
  unfold answersTo
  rw [h]
  by_cases hid : id' = id <;> simp [Event.answerTo?, hid]

/-! ## What is done to the wire -/

/-- What a change of the wire means for one call: its record stands, and nobody new waits for it; or it was
waiting without an answer, and has just been answered. -/
inductive Fate (w w' : Wire) (id : CallId) : Prop where
  | stands : w'.answersTo id = w.answersTo id → (id < w.issued → ∀ c ∈ w'.calls, c.id = id → c ∈ w.calls) →
      Fate w w' id
  | answered {d : PendingCall} (o : Outcome) : d ∈ w.calls → d.id = id → d.answer = none →
      w'.answersTo id = o :: w.answersTo id → (∀ c ∈ w'.calls, c.id = id → c.answer = some o) → Fate w w' id

theorem Touch.fate (h : Touch A w w') (id : CallId) : Fate w w' id := by
  cases h with
  | @called r =>
    refine .stands (answersTo_call w r) fun hlt c hc hid => ?_
    rcases mem_calls_call hc with hc | rfl
    · exact hc
    · exact absurd hid.symm (Nat.ne_of_lt hlt)
  | abandoned => exact .stands (answersTo_of_trace rfl) fun _ c hc _ => (mem_calls_abandon.mp hc).1
  | ended => exact .stands (answersTo_of_trace rfl) fun _ c hc _ => hc
  | reported => exact .stands (List.filterMap_cons_none rfl) fun _ c hc _ => hc
  | answered id' o =>
    rcases answer_cases w id' o with he | ⟨d, hd, hid', hnone, ht, hcalls⟩
    · rw [he]
      exact .stands rfl fun _ c hc _ => hc
    · have hadd : (w.answer id' o).answersTo id =
          if id' = id then w.bring d.request o :: w.answersTo id else w.answersTo id := answersTo_answer ht
      by_cases hi : id' = id
      · subst hi
        rw [if_pos rfl] at hadd
        refine .answered _ hd hid' hnone hadd fun c hc hid => ?_
        rw [hcalls] at hc
        obtain ⟨c', -, rfl⟩ := List.mem_map.mp hc
        split at hid
        · rw [if_pos ‹_›]
        · exact absurd hid ‹_›
      · rw [if_neg hi] at hadd
        exact .stands hadd fun _ c hc hid => mem_calls_of_ne hcalls hc hid (Ne.symm hi)

theorem Touch.dated (h : Touch A w w') (hw : w.Dated) (hn : w.Numbered) : w'.Dated := by
  intro id hid
  have hle : w.issued ≤ id := Nat.le_trans h.issued_le hid
  cases h.fate id with
  | stands he => exact he.trans (hw id hle)
  | answered o hd hi =>
    have hlt := hn _ hd
    rw [hi] at hlt
    exact absurd hlt (Nat.not_lt.mpr hle)

theorem Touches.dated (h : Touches A w w') (hw : w.Dated) (hn : w.Numbered) : w'.Dated := by
  induction h with
  | refl => exact hw
  | tail hr ht ih => exact ht.dated ih (Touches.numbered hr hn)

theorem Touch.awaited (h : Touch A w w') (hw : w.Awaited id) : w'.Awaited id := by
  refine ⟨Nat.lt_of_lt_of_le hw.issued h.issued_le, fun c hc hid => ?_⟩
  cases h.fate id with
  | stands he hcalls => exact he.trans (hw.answers c (hcalls hw.issued c hc hid) hid)
  | answered o hd hi hnone he ho =>
    -- The answered call had none before, so that this is the only answer.
    rw [he, hw.answers _ hd hi, hnone, ho c hc hid]
    rfl

theorem Touches.awaited (h : Touches A w w') (hw : w.Awaited id) : w'.Awaited id := by
  induction h with
  | refl => exact hw
  | tail _ ht ih => exact ht.awaited ih

theorem Touch.answered_of (h : Touch A w w') (hw : w.Answered id o) : w'.Answered id o := by
  cases h.fate id with
  | stands he hcalls =>
    exact ⟨Nat.lt_of_lt_of_le hw.issued h.issued_le,
      fun c hc hid => hw.settled c (hcalls hw.issued c hc hid) hid, he.trans hw.answers⟩
  | answered o' hd hi => exact absurd hi (hw.settled _ hd)

theorem Touches.answered_of (h : Touches A w w') (hw : w.Answered id o) : w'.Answered id o := by
  induction h with
  | refl => exact hw
  | tail _ ht ih => exact ht.answered_of ih

theorem awaited_call (hn : w.Numbered) (hd : w.Dated) (r : Request) : (w.call r).1.Awaited w.issued := by
  refine ⟨by rw [issued_call]; exact Nat.lt_succ_self _, fun c hc hid => ?_⟩
  rw [answersTo_call, hd _ (Nat.le_refl _)]
  rcases mem_calls_call hc with hc | rfl
  · exact absurd hid (Nat.ne_of_lt (hn c hc))
  · rfl

/-- Whoever takes the answer to its call takes the only one. -/
theorem Awaited.taken (h : w.Awaited id) {c : PendingCall} (hc : c ∈ w.calls) (hid : c.id = id)
    (ha : c.answer = some o) : (w.abandon id).Answered id o := by
  refine ⟨h.issued, fun c' hc' => (mem_calls_abandon.mp hc').2, ?_⟩
  show w.answersTo id = [o]
  rw [h.answers c hc hid, ha]
  rfl

/-! ## What a call asks for -/

/-- A call that was made, which is to bring about a request as long as anybody waits for it. -/
structure Asks (w : Wire) (id : CallId) (r : Request) : Prop where
  issued : id < w.issued
  request : ∀ c ∈ w.calls, c.id = id → c.request = r

theorem Touch.asks (h : Touch A w w') (hw : w.Asks id r) : w'.Asks id r := by
  refine ⟨Nat.lt_of_lt_of_le hw.issued h.issued_le, fun c hc hid => ?_⟩
  cases h with
  | called =>
    rcases mem_calls_call hc with hc | rfl
    · exact hw.request c hc hid
    · exact absurd hid.symm (Nat.ne_of_lt hw.issued)
  | abandoned => exact hw.request c (mem_calls_abandon.mp hc).1 hid
  | ended | reported => exact hw.request c hc hid
  | answered id' o =>
    rcases mem_calls_answer hc with hc | ⟨d, hd, _, _, _, _, _, rfl, _⟩
    · exact hw.request c hc hid
    · exact hw.request d hd hid

theorem Touches.asks (h : Touches A w w') (hw : w.Asks id r) : w'.Asks id r := by
  induction h with
  | refl => exact hw
  | tail _ ht ih => exact ht.asks ih

theorem asks_call (hn : w.Numbered) (r : Request) : (w.call r).1.Asks w.issued r := by
  refine ⟨by rw [issued_call]; exact Nat.lt_succ_self _, fun c hc hid => ?_⟩
  rcases mem_calls_call hc with hc | rfl
  · exact absurd hid (Nat.ne_of_lt (hn c hc))
  · rfl

end Wire

end HubDevice
