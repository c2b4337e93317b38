import HubDevice.Session.Wire
import Mathlib.Logic.Relation

/-!
# How the wire changes

Whatever is done to the wire is a sequence of small changes (`Wire.Touches`), within a `Scope` that says
which calls may be made and which statuses may be reported on the way. Sessions never disappear and the
first cause of an end stands (`Touches.grows`), the history is only added to (`Touches.trace`), calls stay
numbered below the number of the next call (`Touches.numbered`), and a request to create a session, whoever
else uses the wire meanwhile, can only bring a session that is newer than all sessions before
(`Touches.creates`).
-/

namespace HubDevice

namespace Request

/-- Calls that are part of the use of an open session. -/
def Routine : Request → Prop
  | .data _ _ | .refresh _ => True
  | _ => False

/-- Calls that open or close a channel of a session. -/
def OnChannel : Request → Prop
  | .subscribe _ _ | .unsubscribe _ _ => True
  | _ => False

/-- Calls that replace a session. -/
def Replacing : Request → Prop
  | .create | .connect _ _ | .close _ => True
  | _ => False

/-- Calls that bring a session up. -/
def Raising : Request → Prop
  | .create | .connect _ _ => True
  | _ => False

end Request

/-- The status that an event reports. -/
def Event.status? : Event → Option Status
  | .reported st => some st
  | _ => none

namespace Wire

/-- The statuses that were reported; the newest comes first. -/
def reports (w : Wire) : List Status := w.trace.filterMap Event.status?

/-- What may be done: which calls may be made, which statuses may be reported, and whether notes may be
left for others, which are not on the wire. -/
structure Scope where
  calls : Request → Prop := fun _ => False
  statuses : Status → Prop := fun _ => False
  notes : Prop := False

namespace Scope

instance : LE Scope where
  le A B := (∀ r, A.calls r → B.calls r) ∧ ∀ st, A.statuses st → B.statuses st

/-- Nothing may be done. -/
def nothing : Scope := {}

def routine : Scope := { calls := Request.Routine }

def onChannel : Scope := { calls := Request.OnChannel }

def replacing : Scope := { calls := Request.Replacing }

def closing : Scope := { calls := fun r => ∃ s, r = .close s }

theorem nothing_le (A : Scope) : nothing ≤ A := ⟨fun _ => False.elim, fun _ => False.elim⟩

theorem le_refl (A : Scope) : A ≤ A := ⟨fun _ => id, fun _ => id⟩

/-- The events that can happen within a scope. -/
def Admits (A : Scope) : Event → Prop
  | .called _ r => A.calls r
  | .answered _ _ _ => True
  | .reported st => A.statuses st

end Scope

/-- A small change of a wire within a scope. -/
inductive Touch (A : Scope) (w : Wire) : Wire → Prop where
  | called {r : Request} : A.calls r → Touch A w (w.call r).1
  | abandoned (id : CallId) : Touch A w (w.abandon id)
  | answered (id : CallId) (o : Outcome) : Touch A w (w.answer id o)
  | ended (s : SessionId) (cause : CloseCause) : Touch A w (w.endSession s cause)
  | reported {st : Status} : A.statuses st → Touch A w (w.record (.reported st))

/-- Any number of small changes. -/
def Touches (A : Scope) : Wire → Wire → Prop := Relation.ReflTransGen (Touch A)

variable {A B : Scope} {w w' w'' : Wire}

theorem Touches.refl (w : Wire) : Touches A w w := Relation.ReflTransGen.refl

theorem Touches.trans (h : Touches A w w') (h' : Touches A w' w'') : Touches A w w'' :=
  Relation.ReflTransGen.trans h h'

theorem Touch.touches (h : Touch A w w') : Touches A w w' := Relation.ReflTransGen.single h

theorem Touch.mono (h : Touch A w w') (hAB : A ≤ B) : Touch B w w' := by
  cases h with
  | called hr => exact .called (hAB.1 _ hr)
  | abandoned id => exact .abandoned id
  | answered id o => exact .answered id o
  | ended s cause => exact .ended s cause
  | reported hs => exact .reported (hAB.2 _ hs)

theorem Touches.mono (h : Touches A w w') (hAB : A ≤ B) : Touches B w w' :=
  Relation.ReflTransGen.mono (fun _ _ (ht : Touch A _ _) => ht.mono hAB) _ _ h

/-! ## History -/

theorem trace_call (w : Wire) (r : Request) : (w.call r).1.trace = .called w.issued r :: w.trace := by
  unfold call
  split <;> rfl

theorem Touch.trace (h : Touch A w w') : ∃ new, w'.trace = new ++ w.trace ∧ ∀ e ∈ new, A.Admits e := by
  cases h with
  | @called r hr => exact ⟨[.called w.issued r], trace_call w r, by simpa [Scope.Admits] using hr⟩
  | abandoned | ended => exact ⟨[], rfl, by simp⟩
  | answered id o =>
    unfold answer
    split
    · exact ⟨[], rfl, by simp⟩
    · exact ⟨[_], rfl, by simp [Scope.Admits]⟩
  | @reported st hs => exact ⟨[.reported st], rfl, by simpa [Scope.Admits] using hs⟩

/-- What happened stays on record; what is added lies within the scope. -/
theorem Touches.trace (h : Touches A w w') :
    ∃ new, w'.trace = new ++ w.trace ∧ ∀ e ∈ new, A.Admits e := by
  induction h with
  | refl => exact ⟨[], rfl, by simp⟩
  | tail _ ht ih =>
    obtain ⟨new, he, hn⟩ := ih
    obtain ⟨new', he', hn'⟩ := ht.trace
    refine ⟨new' ++ new, by rw [he', he, List.append_assoc], ?_⟩
    intro e hm
    rcases List.mem_append.mp hm with hm | hm
    · exact hn' e hm
    · exact hn e hm

/-- What is reported lies within the scope. -/
theorem Touches.reports (h : Touches A w w') :
    ∃ new, w'.reports = new ++ w.reports ∧ ∀ st ∈ new, A.statuses st := by
  obtain ⟨new, hn, hall⟩ := h.trace
  refine ⟨new.filterMap Event.status?, by rw [Wire.reports, hn, List.filterMap_append]; rfl, fun st hst => ?_⟩
  obtain ⟨e, he, hs⟩ := List.mem_filterMap.mp hst
  cases e <;> cases hs
  exact hall _ he

/-- Within a scope without statuses nothing is reported. -/
theorem Touches.reports_eq (h : Touches A w w') (hA : ∀ st, ¬ A.statuses st) : w'.reports = w.reports := by
  obtain ⟨new, hn, hall⟩ := h.reports
  cases new with
  | nil => exact hn
  | cons st rest => exact absurd (hall st List.mem_cons_self) (hA st)

/-! ## Sessions -/

/-- Sessions are only added, and the first cause of an end stands. -/
structure Grows (w w' : Wire) : Prop where
  sessions : w.sessions.length ≤ w'.sessions.length
  cause : ∀ {s c}, w.cause? s = some c → w'.cause? s = some c

theorem Grows.refl (w : Wire) : Grows w w := ⟨Nat.le_refl _, id⟩

theorem Grows.trans (h : Grows w w') (h' : Grows w' w'') : Grows w w'' :=
  ⟨Nat.le_trans h.sessions h'.sessions, fun hc => h'.cause (h.cause hc)⟩

theorem grows_of_eq (h : w'.sessions = w.sessions) : Grows w w' :=
  ⟨Nat.le_of_eq (by rw [h]), fun hc => by unfold cause? at hc ⊢; rwa [h]⟩

theorem grows_endSession (w : Wire) (s : SessionId) (cause : CloseCause) :
    Grows w (w.endSession s cause) := by
  refine ⟨by simp [endSession], ?_⟩
  intro t c hc
  unfold cause? at hc ⊢
  simp only [endSession, List.getElem?_modify]
  cases ht : w.sessions[t]? with
  | none => simp [ht] at hc
  | some d =>
    rw [ht] at hc
    have hd : d = some c := hc
    subst hd
    by_cases hst : s = t <;> simp [hst]

theorem grows_call (w : Wire) (r : Request) : Grows w (w.call r).1 := by
  unfold call
  split
  · rename_i s
    exact (grows_endSession w s .closedLocally).trans (grows_of_eq rfl)
  · exact grows_of_eq rfl

theorem grows_answer (w : Wire) (id : CallId) (o : Outcome) : Grows w (w.answer id o) := by
  unfold answer
  split
  · exact Grows.refl w
  · rename_i c _
    unfold sessionsAfter
    split
    · refine ⟨by simp, ?_⟩
      intro t d hd
      unfold cause? at hd ⊢
      cases ht : w.sessions[t]? with
      | none => simp [ht] at hd
      | some e =>
        have hlt : t < w.sessions.length := (List.getElem?_eq_some_iff.mp ht).1
        rw [List.getElem?_append_left hlt]
        exact hd
    · exact grows_of_eq rfl

theorem Touch.grows (h : Touch A w w') : Grows w w' := by
  cases h with
  | called => exact grows_call w _
  | abandoned | reported => exact grows_of_eq rfl
  | answered id o => exact grows_answer w id o
  | ended s cause => exact grows_endSession w s cause

theorem Touches.grows (h : Touches A w w') : Grows w w' := by
  induction h with
  | refl => exact Grows.refl w
  | tail _ ht ih => exact ih.trans ht.grows

/-! ## Calls -/

/-- Every call that was made has a number below the next one. -/
def Numbered (w : Wire) : Prop := ∀ c ∈ w.calls, c.id < w.issued

theorem mem_calls_call {r : Request} {c : PendingCall} (h : c ∈ (w.call r).1.calls) :
    c ∈ w.calls ∨ c = { id := w.issued, request := r } := by
  unfold call at h
  split at h <;> simpa [endSession] using h

theorem issued_call (w : Wire) (r : Request) : (w.call r).1.issued = w.issued + 1 := by
  unfold call
  split <;> rfl

theorem id_call (w : Wire) (r : Request) : (w.call r).2 = w.issued := by
  unfold call
  split <;> rfl

theorem mem_calls_abandon {id : CallId} {c : PendingCall} :
    c ∈ (w.abandon id).calls ↔ c ∈ w.calls ∧ c.id ≠ id := by
  simp [abandon]

/-- A call after an answer was given: it is as before, or it has just been answered. -/
theorem mem_calls_answer {id : CallId} {o : Outcome} {c : PendingCall}
    (h : c ∈ (w.answer id o).calls) :
    c ∈ w.calls ∨ ∃ d ∈ w.calls, ∃ d' ∈ w.calls, d.id = id ∧ d'.id = id ∧ d'.answer = none ∧
      c = { d with answer := some (w.bring d'.request o) } ∧
      (w.answer id o).sessions = w.sessionsAfter d'.request o := by
  unfold answer at h ⊢
  split at h
  · exact .inl h
  · rename_i d' hf
    have hd' := List.mem_of_find?_eq_some hf
    have hp := List.find?_some hf
    simp only [Option.isNone_iff_eq_none, decide_eq_true_eq] at hp
    obtain ⟨d, hd, rfl⟩ := List.mem_map.mp h
    split
    · rename_i hid
      exact .inr ⟨d, hd, d', hd', hid, hp.1, hp.2, rfl, rfl⟩
    · exact .inl hd

theorem issued_answer (w : Wire) (id : CallId) (o : Outcome) : (w.answer id o).issued = w.issued := by
  unfold answer
  split <;> rfl

theorem Touch.issued_le (h : Touch A w w') : w.issued ≤ w'.issued := by
  cases h with
  | called =>
    rw [issued_call]
    exact Nat.le_succ _
  | answered id o => exact Nat.le_of_eq (issued_answer w id o).symm
  | abandoned | ended | reported => exact Nat.le_refl _

theorem Touch.numbered (h : Touch A w w') (hw : w.Numbered) : w'.Numbered := by
  intro c hc
  cases h with
  | called =>
    rw [issued_call]
    rcases mem_calls_call hc with hc | rfl
    · exact Nat.lt_succ_of_lt (hw c hc)
    · exact Nat.lt_succ_self _
  | abandoned id => exact hw c (mem_calls_abandon.mp hc).1
  | answered id o =>
    rw [issued_answer]
    rcases mem_calls_answer hc with hc | ⟨d, hd, _, _, _, _, _, rfl, _⟩
    · exact hw c hc
    · exact hw d hd
  | ended | reported => exact hw c hc

theorem Touches.numbered (h : Touches A w w') (hw : w.Numbered) : w'.Numbered := by
  induction h with
  | refl => exact hw
  | tail _ ht ih => exact ht.numbered ih

/-- A request for a new session with this number is on its way, or was answered by a session that exists
and is newer than all of `old`. -/
structure Creates (w : Wire) (old : List SessionId) (id : CallId) : Prop where
  issued : id < w.issued
  calls : ∀ c ∈ w.calls, c.id = id → c.request = .create ∧
    ∀ s, c.answer = some (.ok (.session s)) → (∀ t ∈ old, t < s) ∧ s < w.sessions.length

variable {old : List SessionId} {id : CallId}

theorem creates_call (hw : w.Numbered) : (w.call .create).1.Creates old (w.call .create).2 := by
  refine ⟨by rw [id_call, issued_call]; exact Nat.lt_succ_self _, ?_⟩
  intro c hc he
  rw [id_call] at he
  rcases mem_calls_call hc with hc | rfl
  · exact absurd he (Nat.ne_of_lt (hw c hc))
  · exact ⟨rfl, fun s hs => by cases hs⟩

theorem Touch.creates (h : Touch A w w') (hold : ∀ t ∈ old, t < w.sessions.length)
    (hc : w.Creates old id) : w'.Creates old id := by
  have hle := h.grows.sessions
  refine ⟨Nat.lt_of_lt_of_le hc.issued h.issued_le, ?_⟩
  have kept : ∀ c ∈ w.calls, c.id = id → c.request = .create ∧
      ∀ s, c.answer = some (.ok (.session s)) → (∀ t ∈ old, t < s) ∧ s < w'.sessions.length := by
    intro c hm he
    obtain ⟨hr, hs⟩ := hc.calls c hm he
    exact ⟨hr, fun s ha => ⟨(hs s ha).1, Nat.lt_of_lt_of_le (hs s ha).2 hle⟩⟩
  intro c hm he
  cases h with
  | called =>
    rcases mem_calls_call hm with hm | rfl
    · exact kept c hm he
    · exact absurd he.symm (Nat.ne_of_lt hc.issued)
  | abandoned => exact kept c (mem_calls_abandon.mp hm).1 he
  | ended | reported => exact kept c hm he
  | answered id' o =>
    rcases mem_calls_answer hm with hm | ⟨d, hd, d', hd', hi, hi', -, rfl, hss⟩
    · exact kept c hm he
    · have hid : id' = id := hi.symm.trans he
      have hr' : d'.request = .create := (hc.calls d' hd' (hi'.trans hid)).1
      refine ⟨(hc.calls d hd he).1, ?_⟩
      intro s hs
      rw [hr'] at hs hss
      cases o with
      | error e => simp [bring] at hs
      | ok reply =>
        have hsl : w.sessions.length = s := by simpa [bring] using hs
        rw [hss]
        subst hsl
        exact ⟨hold, by simp [sessionsAfter]⟩

theorem Touches.creates (h : Touches A w w') (hold : ∀ t ∈ old, t < w.sessions.length)
    (hc : w.Creates old id) : w'.Creates old id := by
  induction h with
  | refl => exact hc
  | tail hr ht ih =>
    exact ht.creates (fun t hm => Nat.lt_of_lt_of_le (hold t hm) (Touches.grows hr).sessions) ih

/-! ## Taking answers -/

theorem take?_eq_some {o : Outcome} (h : w.take? id = some (w', o)) :
    w' = w.abandon id ∧ ∃ c ∈ w.calls, c.id = id ∧ c.answer = some o := by
  unfold take? at h
  simp only [Option.bind_eq_bind, Option.bind_eq_some_iff] at h
  obtain ⟨c, hf, o', ho, he⟩ := h
  cases he
  have hp := List.find?_some hf
  exact ⟨rfl, c, List.mem_of_find?_eq_some hf, by simpa using hp, ho⟩

theorem calls_call (w : Wire) (r : Request) :
    (w.call r).1.calls = w.calls ++ [{ id := w.issued, request := r }] := by
  unfold call
  split <;> rfl

/-- The answer to the newest call can be taken at once. -/
theorem take?_answer_call (hn : w.Numbered) (r : Request) (o : Outcome) :
    ∃ w', ((w.call r).1.answer w.issued o).take? w.issued = some (w', (w.call r).1.bring r o) := by
  have old : ∀ c ∈ w.calls, ¬ c.id = w.issued := fun c hc => Nat.ne_of_lt (hn c hc)
  have hf : (w.call r).1.calls.find? (fun c => c.id = w.issued ∧ c.answer.isNone) =
      some { id := w.issued, request := r } := by
    rw [calls_call, List.find?_append, List.find?_eq_none.mpr fun c hc => by simp [old c hc]]
    simp
  have hc : ((w.call r).1.answer w.issued o).calls =
      w.calls ++ [{ id := w.issued, request := r, answer := some ((w.call r).1.bring r o) }] := by
    unfold answer
    rw [hf]
    dsimp only
    rw [calls_call, List.map_append, List.map_congr_left fun c hc => if_neg (old c hc)]
    simp
  have hf' : ((w.call r).1.answer w.issued o).calls.find? (fun c => c.id = w.issued) =
      some { id := w.issued, request := r, answer := some ((w.call r).1.bring r o) } := by
    rw [hc, List.find?_append, List.find?_eq_none.mpr fun c hc => by simp [old c hc]]
    simp
  exact ⟨((w.call r).1.answer w.issued o).abandon w.issued, by simp [take?, hf']⟩

end Wire

end HubDevice
