import HubDevice.Handler
import HubDevice.Proofs.Concurrent.Progress
import HubDevice.Proofs.Session.Wire

/-!
# What the session slot does to the wire

Exchanges of data and changes of channels leave everything but the wire as it is (`Handler.Uses`). An
opening empties the slot, and fills it again only with a session that is newer than all sessions known
before it began: `Opening.Fresh` is the invariant of an opening on its way, and `Opening.fresh_step`
carries it over a step.
-/

namespace HubDevice

open Wire

namespace Handler

variable {A : Scope} {h h' h'' : Handler}

/-- Nothing but the wire has changed, and what was done to it lies within `A`. -/
def Uses (A : Scope) (h h' : Handler) : Prop :=
  ∃ wire, h' = { h with wire } ∧ h.wire.Touches A wire

theorem Uses.refl (h : Handler) : Uses A h h := ⟨h.wire, rfl, Touches.refl _⟩

theorem Uses.trans (h₁ : Uses A h h') (h₂ : Uses A h' h'') : Uses A h h'' := by
  obtain ⟨_, rfl, ht⟩ := h₁
  obtain ⟨_, rfl, ht'⟩ := h₂
  exact ⟨_, rfl, ht.trans ht'⟩

theorem Uses.slot (hu : Uses A h h') : h'.slot = h.slot := by
  obtain ⟨_, rfl, -⟩ := hu
  rfl

theorem Uses.now (hu : Uses A h h') : h'.now = h.now := by
  obtain ⟨_, rfl, -⟩ := hu
  rfl

theorem Uses.touches (hu : Uses A h h') : h.wire.Touches A h'.wire := by
  obtain ⟨_, rfl, ht⟩ := hu
  exact ht

theorem uses_call (h : Handler) {r : Request} (hr : A.calls r) : Uses A h (h.call r).1 :=
  ⟨_, rfl, (Touch.called hr).touches⟩

theorem touches_call (h : Handler) {r : Request} (hr : A.calls r) : h.wire.Touches A (h.call r).1.wire :=
  (Touch.called hr).touches

theorem call_id (h : Handler) (r : Request) : (h.call r).2 = h.wire.issued := id_call h.wire r

theorem uses_abandon (h : Handler) (id : CallId) : Uses A h (h.abandon id) :=
  ⟨_, rfl, (Touch.abandoned id).touches⟩

theorem take?_eq_some {id : CallId} {o : Outcome} (ht : h.take? id = some (h', o)) :
    h' = h.abandon id ∧ ∃ c ∈ h.wire.calls, c.id = id ∧ c.answer = some o := by
  obtain ⟨⟨w, o'⟩, hw, he⟩ := Option.map_eq_some_iff.mp ht
  obtain ⟨rfl, hc⟩ := Wire.take?_eq_some hw
  cases he
  exact ⟨rfl, hc⟩

theorem wire_take? {id : CallId} {o : Outcome} (ht : h.take? id = some (h', o)) :
    h.wire.take? id = some (h'.wire, o) := by
  obtain ⟨⟨w, o⟩, hw, he⟩ := Option.map_eq_some_iff.mp ht
  cases he
  exact hw

theorem uses_take? {id : CallId} {o : Outcome} (ht : h.take? id = some (h', o)) : Uses A h h' := by
  obtain ⟨rfl, -⟩ := take?_eq_some ht
  exact uses_abandon h id

theorem stopRefresher_wire (h : Handler) : h.stopRefresher.wire = h.wire := by
  unfold stopRefresher
  split <;> rfl

theorem stopRefresher_slot (h : Handler) : h.stopRefresher.slot = h.slot := by
  unfold stopRefresher
  split <;> rfl

theorem stopRefresher_now (h : Handler) : h.stopRefresher.now = h.now := by
  unfold stopRefresher
  split <;> rfl

theorem startRefresher_wire (h : Handler) (s : SessionId) : (h.startRefresher s).wire = h.wire := by
  unfold startRefresher
  split
  · rfl
  · exact stopRefresher_wire h

theorem startRefresher_slot (h : Handler) (s : SessionId) : (h.startRefresher s).slot = h.slot := by
  unfold startRefresher
  split
  · rfl
  · exact stopRefresher_slot h

theorem startRefresher_now (h : Handler) (s : SessionId) : (h.startRefresher s).now = h.now := by
  unfold startRefresher
  split
  · rfl
  · exact stopRefresher_now h

theorem advanceRefresher_uses {r r' : Refresher} (ha : h.advanceRefresher r = some (h', r')) :
    Uses .routine h h' := by
  unfold advanceRefresher at ha
  split at ha
  · split at ha <;> cases ha <;> exact Uses.refl h
  · split at ha
    · cases ha
      exact Uses.refl h
    · split at ha <;> cases ha
      exact uses_call h (r := .refresh _) trivial
  · split at ha <;> cases ha
    rename_i ht
    obtain ⟨rfl, -⟩ := Wire.take?_eq_some ht
    exact uses_abandon h _
  · cases ha

theorem stepRefresher_slot {i : Nat} (hs : h.stepRefresher i = some h') :
    h'.slot = h.slot ∧ h'.now = h.now ∧ h.wire.Touches .routine h'.wire := by
  unfold stepRefresher at hs
  simp only [Option.bind_eq_bind, Option.bind_eq_some_iff] at hs
  obtain ⟨r, -, ⟨h₁, r'⟩, ha, he⟩ := hs
  cases he
  have hu := advanceRefresher_uses ha
  exact ⟨hu.slot, hu.now, hu.touches⟩

end Handler

open Handler

variable {h h' : Handler}

/-! ## Exchanges and channels -/

namespace Forward

theorem sendNext_uses {s : SessionId} {ms : List Message}
    {pr : Progress Forward (Except ClientError Reply)} (hs : sendNext h s ms = some (h', pr)) :
    Uses .routine h h' := by
  cases ms with
  | nil =>
    cases hs
    exact Uses.refl h
  | cons m rest =>
    cases hs
    exact uses_call h (r := .data _ _) trivial

/-- The call that a forwarded exchange waits for. -/
def call? : Forward → Option CallId
  | .start _ => none
  | .waiting id | .sending _ id _ => some id

/-- What one step of a forwarded exchange can do: it finds no session, begins, or takes the answer to its call, which
may be followed by the next one. -/
inductive Turn (h : Handler) : Forward → Handler → Progress Forward (Except ClientError Reply) → Prop where
  | vacant {x : Exchange} {e : TransportError} : h.slot = none → Turn h (.start x) h (.done (.error (.transport e)))
  | asked {c : DataCall} {s : SessionId} : h.slot = some s →
      Turn h (.start (.one c)) (h.call (.data s c)).1 (.more (.waiting h.wire.issued))
  | began {ms : List Message} {s : SessionId} {h' : Handler} {pr : Progress Forward (Except ClientError Reply)} :
      h.slot = some s → sendNext h s ms = some (h', pr) → Turn h (.start (.sendMany ms)) h' pr
  | returned {id : CallId} {h' : Handler} {r : Reply} : h.take? id = some (h', .ok r) →
      Turn h (.waiting id) h' (.done (.ok r))
  | accepted {s : SessionId} {id : CallId} {rest : List Message} {h₁ h' : Handler} {r : Reply}
      {pr : Progress Forward (Except ClientError Reply)} : h.take? id = some (h₁, .ok r) →
      sendNext h₁ s rest = some (h', pr) → Turn h (.sending s id rest) h' pr
  | refused {f : Forward} {id : CallId} {h' : Handler} {e : TransportError} : f.call? = some id →
      h.take? id = some (h', .error e) → Turn h f h' (.done (.error (.transport e)))

theorem turn_of_step {f : Forward} {pr : Progress Forward (Except ClientError Reply)}
    (hs : f.step h = some (h', pr)) : f.Turn h h' pr := by
  cases f with
  | start x =>
    cases hslot : h.slot with
    | none =>
      simp only [step, Handler.current, hslot] at hs
      cases hs
      exact .vacant hslot
    | some s =>
      simp only [step, Handler.current, hslot] at hs
      cases x with
      | one c =>
        cases hs
        rw [Handler.call_id]
        exact .asked hslot
      | sendMany ms => exact .began hslot hs
  | waiting id =>
    simp only [step] at hs
    split at hs <;> cases hs <;> rename_i ht
    · exact .returned ht
    · exact .refused rfl ht
  | sending s id rest =>
    simp only [step] at hs
    split at hs
    · cases hs
    · rename_i ht
      exact .accepted ht hs
    · rename_i ht
      cases hs
      exact .refused rfl ht

theorem uses_step {f : Forward} {pr : Progress Forward (Except ClientError Reply)}
    (hs : f.step h = some (h', pr)) : Uses .routine h h' := by
  cases turn_of_step hs with
  | vacant => exact Uses.refl h
  | asked => exact uses_call h (r := .data _ _) trivial
  | began _ hn => exact sendNext_uses hn
  | returned ht | refused _ ht => exact uses_take? ht
  | accepted ht hn => exact (uses_take? ht).trans (sendNext_uses hn)

theorem error_eq {f : Forward} {e : ClientError} (hs : f.step h = some (h', .done (.error e))) :
    ∃ t, e = .transport t := by
  have next : ∀ {h : Handler} {s ms}, sendNext h s ms ≠ some (h', .done (.error e)) := by
    intro h s ms hn
    cases ms <;> cases hn
  cases turn_of_step hs with
  | vacant | refused => exact ⟨_, rfl⟩
  | began _ hn | accepted _ hn => exact absurd hn next

theorem uses_abandon (f : Forward) (h : Handler) {A : Scope} : Uses A h (f.abandon h) := by
  cases f with
  | start x => exact Uses.refl h
  | waiting call => exact Handler.uses_abandon h call
  | sending s call rest => exact Handler.uses_abandon h call

end Forward

namespace Subscribing

theorem onChannel_request (on : Bool) (s : SessionId) (c : Channel) :
    (request on s c).OnChannel := by
  cases on <;> trivial

/-- What one step of opening or closing a channel can do: it asks for it, finds no session, or takes the
answer. -/
inductive Turn (h : Handler) :
    Subscribing → Handler → Progress Subscribing (Except ClientError Unit) → Prop where
  | asked {on : Bool} {c : Channel} {s : SessionId} : h.slot = some s →
      Turn h (.start on c) (h.call (request on s c)).1 (.more (.waiting h.wire.issued))
  | vacant {on : Bool} {c : Channel} {e : TransportError} : h.slot = none →
      Turn h (.start on c) h (.done (.error (.transport e)))
  | confirmed {id : CallId} {d : PendingCall} {r : Reply} : d ∈ h.wire.calls → d.id = id →
      d.answer = some (.ok r) → Turn h (.waiting id) (h.abandon id) (.done (.ok ()))
  | refused {id : CallId} {d : PendingCall} {e : TransportError} : d ∈ h.wire.calls → d.id = id →
      d.answer = some (.error e) → Turn h (.waiting id) (h.abandon id) (.done (.error (.transport e)))

theorem turn_of_step {g : Subscribing} {pr : Progress Subscribing (Except ClientError Unit)}
    (hs : g.step h = some (h', pr)) : g.Turn h h' pr := by
  cases g with
  | start on c =>
    cases hslot : h.slot with
    | none =>
      simp only [step, Handler.current, hslot] at hs
      cases hs
      exact .vacant hslot
    | some s =>
      simp only [step, Handler.current, hslot] at hs
      cases hs
      rw [call_id]
      exact .asked hslot
  | waiting id =>
    simp only [step] at hs
    split at hs <;> cases hs <;> rename_i ht <;> obtain ⟨rfl, d, hd, hid, ha⟩ := take?_eq_some ht
    · exact .confirmed hd hid ha
    · exact .refused hd hid ha

theorem uses_step {g : Subscribing} {pr : Progress Subscribing (Except ClientError Unit)}
    (hs : g.step h = some (h', pr)) : Uses .onChannel h h' := by
  cases turn_of_step hs with
  | asked => exact uses_call h (onChannel_request _ _ _)
  | vacant => exact Uses.refl h
  | confirmed | refused => exact Handler.uses_abandon h _

theorem error_eq {g : Subscribing} {e : ClientError} (hs : g.step h = some (h', .done (.error e))) :
    ∃ t, e = .transport t := by
  cases turn_of_step hs with
  | vacant | refused => exact ⟨_, rfl⟩

theorem uses_abandon (g : Subscribing) (h : Handler) {A : Scope} : Uses A h (g.abandon h) := by
  cases g with
  | start on c => exact Uses.refl h
  | waiting call => exact Handler.uses_abandon h call

end Subscribing

/-! ## Openings -/

/-- The session in the slot exists and is newer than all of `old`. -/
def Handler.SlotNewer (old : List SessionId) (h : Handler) : Prop :=
  ∃ s, h.slot = some s ∧ (∀ t ∈ old, t < s) ∧ s < h.wire.sessions.length

namespace Opening

theorem create_eq (h : Handler) :
    create h = some ((h.call .create).1, .more (.creating (h.call .create).2)) := rfl

/-- An opening makes only calls that replace a session. -/
theorem touches_step {c : Bool} {o : Opening} {pr : Progress Opening (Except ClientError Unit)}
    (hs : o.step c h = some (h', pr)) : h.wire.Touches .replacing h'.wire := by
  have called : ∀ (h : Handler) (r : Request), r.Replacing →
      h.wire.Touches .replacing (h.call r).1.wire := fun h _ hr => touches_call h hr
  cases o with
  | start =>
    simp only [step, create_eq] at hs
    rw [← stopRefresher_wire h]
    split at hs <;> cases hs
    · exact called _ .create trivial
    · exact called { h.stopRefresher with slot := none } (.close _) trivial
  | discarding id =>
    simp only [step, create_eq] at hs
    split at hs <;> cases hs
    rename_i ht
    exact (uses_take? ht).touches.trans (called _ .create trivial)
  | creating id =>
    simp only [step, create_eq] at hs
    split at hs <;> cases hs <;> rename_i ht
    · exact (uses_take? ht).touches.trans (called _ (.connect _ c) trivial)
    · exact (uses_take? ht).touches.trans (called _ .create trivial)
    · exact (uses_take? ht).touches
  | connecting s id =>
    simp only [step] at hs
    split at hs <;> cases hs <;> rename_i ht
    · rw [startRefresher_wire]
      exact (uses_take? ht).touches
    · exact (uses_take? ht).touches

/-- An opening takes no time by itself. -/
theorem now_step {c : Bool} {o : Opening} {pr : Progress Opening (Except ClientError Unit)}
    (hs : o.step c h = some (h', pr)) : h'.now = h.now := by
  cases o with
  | start =>
    simp only [step, create_eq] at hs
    split at hs <;> cases hs <;> exact stopRefresher_now h
  | discarding id =>
    simp only [step, create_eq] at hs
    split at hs <;> cases hs
    rename_i ht
    exact (uses_take? (A := .nothing) ht).now
  | creating id =>
    simp only [step, create_eq] at hs
    split at hs <;> cases hs <;> rename_i ht <;> exact (uses_take? (A := .nothing) ht).now
  | connecting s id =>
    simp only [step] at hs
    split at hs <;> cases hs <;> rename_i ht
    · rw [startRefresher_now]
      exact (uses_take? (A := .nothing) ht).now
    · exact (uses_take? (A := .nothing) ht).now

/-- An opening that goes on has begun. -/
theorem ne_start_of_step {c : Bool} {o o' : Opening} (hs : o.step c h = some (h', .more o')) : o' ≠ .start := by
  cases o with
  | start | discarding | creating =>
    simp only [step, create_eq] at hs
    split at hs <;> cases hs <;> simp
  | connecting s id =>
    simp only [step] at hs
    split at hs <;> cases hs

/-- An opening fails with a failure of the transport. -/
theorem error_eq {c : Bool} {o : Opening} {e : ClientError}
    (hs : o.step c h = some (h', .done (.error e))) : ∃ t, e = .transport t := by
  cases o with
  | start | discarding =>
    simp only [step, create_eq] at hs
    split at hs <;> cases hs
  | creating | connecting =>
    simp only [step, create_eq] at hs
    split at hs <;> cases hs
    exact ⟨_, rfl⟩

theorem uses_abandon (o : Opening) (h : Handler) {A : Scope} : Uses A h (o.abandon h) := by
  cases o with
  | start => exact Uses.refl h
  | discarding call => exact Handler.uses_abandon h call
  | creating call => exact Handler.uses_abandon h call
  | connecting s call => exact Handler.uses_abandon h call

/-- What an opening knows about the session that it brings: it is newer than all of `old`. -/
def Fresh (old : List SessionId) (h : Handler) : Opening → Prop
  | .start | .discarding _ => True
  | .creating id => h.wire.Creates old id
  | .connecting s _ => (∀ t ∈ old, t < s) ∧ s < h.wire.sessions.length

variable {old : List SessionId}

/-- What others do to the wire does not hurt. -/
theorem Fresh.touched {A : Scope} {o : Opening} (ho : o.Fresh old h)
    (hold : ∀ t ∈ old, t < h.wire.sessions.length) (ht : h.wire.Touches A h'.wire) :
    o.Fresh old h' := by
  cases o with
  | start | discarding call => trivial
  | creating id => exact Touches.creates ht hold ho
  | connecting s call => exact ⟨ho.1, Nat.lt_of_lt_of_le ho.2 ht.grows.sessions⟩

theorem fresh_step {c : Bool} {o : Opening} {pr : Progress Opening (Except ClientError Unit)}
    (hn : h.wire.Numbered) (ho : o.Fresh old h) (hs : o.step c h = some (h', pr)) :
    pr.Leaves (Fresh old h') (h'.SlotNewer old) True := by
  have taken : ∀ {id h₁ o}, h.take? id = some (h₁, o) → h₁.wire.Numbered := fun ht =>
    (uses_take? (A := .nothing) ht).touches.numbered hn
  cases o with
  | start =>
    simp only [step, create_eq] at hs
    have hn' : h.stopRefresher.wire.Numbered := (stopRefresher_wire h).symm ▸ hn
    split at hs <;> cases hs
    · exact creates_call hn'
    · trivial
  | discarding id =>
    simp only [step, create_eq] at hs
    split at hs <;> cases hs
    rename_i ht
    exact creates_call (taken ht)
  | creating id =>
    simp only [step, create_eq] at hs
    split at hs <;> cases hs <;> rename_i ht
    · obtain ⟨rfl, d, hd, hid, ha⟩ := take?_eq_some ht
      obtain ⟨hlt, hs⟩ := (ho.calls d hd hid).2 _ ha
      exact ⟨hlt, Nat.lt_of_lt_of_le hs (touches_call (A := .replacing) (h.abandon id) (r := .connect _ c) trivial).grows.sessions⟩
    · exact creates_call (taken ht)
    · trivial
  | connecting s call =>
    simp only [step] at hs
    split at hs <;> cases hs <;> rename_i ht
    · obtain ⟨rfl, -⟩ := take?_eq_some ht
      refine ⟨s, by rw [startRefresher_slot], ho.1, ?_⟩
      rw [startRefresher_wire]
      exact ho.2
    · trivial

end Opening

/-! ## Closings -/

/-- A closing empties the slot and asks nothing but to close what was in it. -/
theorem Closing.slot_step {c : Closing} {pr : Progress Closing (Except ClientError Unit)}
    (hs : c.step h = some (h', pr)) :
    h.wire.Touches .closing h'.wire ∧
      (c = .start ∨ h.slot = none → h'.slot = none) := by
  cases c with
  | start =>
    simp only [step] at hs
    split at hs <;> cases hs
    · rename_i hn
      refine ⟨stopRefresher_wire h ▸ Touches.refl _, fun _ => hn⟩
    · refine ⟨?_, fun _ => rfl⟩
      rw [← stopRefresher_wire h]
      exact touches_call { h.stopRefresher with slot := none } ⟨_, rfl⟩
  | closing call =>
    obtain ⟨⟨h₁, o⟩, ht, he⟩ := Option.map_eq_some_iff.mp hs
    cases he
    have hu : Uses .closing h h₁ := uses_take? ht
    refine ⟨hu.touches, ?_⟩
    rintro (hc | hn)
    · cases hc
    · rw [hu.slot, hn]

end HubDevice
