import HubDevice.Handler

/-!
# Session slots that differ in their history

The history of the wire is written and never read. Two slots that differ in nothing else (`Handler.Twin`) take
the same steps, with the same results, and differ in nothing else afterwards.
-/

namespace HubDevice

/-- The same wire with another history. -/
def Wire.retold (w : Wire) (trace : List Event) : Wire := { w with trace }

namespace Wire

variable {trace : List Event}

theorem retold_call (w : Wire) (r : Request) :
    (w.retold trace).call r = ((w.call r).1.retold (.called w.issued r :: trace), (w.call r).2) := by
  cases r <;> rfl

theorem retold_take? (w : Wire) (id : CallId) :
    (w.retold trace).take? id = (w.take? id).map fun p => (p.1.retold trace, p.2) := by
  have hcalls : (w.retold trace).calls = w.calls := rfl
  unfold take?
  rw [hcalls]
  cases w.calls.find? fun c => c.id = id with
  | none => rfl
  | some c =>
    simp only [Option.bind_eq_bind, Option.bind_some]
    cases c.answer <;> rfl

theorem retold_answer (w : Wire) (id : CallId) (o : Outcome) :
    ∃ trace', (w.retold trace).answer id o = (w.answer id o).retold trace' := by
  have hcalls : (w.retold trace).calls = w.calls := rfl
  unfold answer
  rw [hcalls]
  cases w.calls.find? fun c => c.id = id ∧ c.answer.isNone with
  | none => exact ⟨_, rfl⟩
  | some c => exact ⟨_, rfl⟩

end Wire

/-- The results of a step over two states: neither takes it, or both do, with one result and to related
states. -/
def Abreast {σ X : Type} (R : σ → σ → Prop) : Option (σ × X) → Option (σ × X) → Prop :=
  Option.Rel fun a b => R a.1 b.1 ∧ a.2 = b.2

namespace Abreast

variable {σ X Y : Type} {R : σ → σ → Prop} {a b a' b' : Option (σ × X)}

theorem both {s s' : σ} (h : R s s') (x : X) : Abreast R (some (s, x)) (some (s', x)) := .some ⟨h, rfl⟩

theorem cases (h : Abreast R a b) :
    a = none ∧ b = none ∨ ∃ s s' x, a = some (s, x) ∧ b = some (s', x) ∧ R s s' := by
  cases h with
  | none => exact .inl ⟨rfl, rfl⟩
  | @some p q h =>
    obtain ⟨s, x⟩ := p
    obtain ⟨s', x'⟩ := q
    obtain ⟨hr, rfl⟩ := h
    exact .inr ⟨s, s', x, rfl, rfl, hr⟩

theorem of_ite {c : Prop} [Decidable c] (h₁ : Abreast R a b) (h₂ : Abreast R a' b') :
    Abreast R (if c then a else a') (if c then b else b') := by
  split
  · exact h₁
  · exact h₂

theorem map {σ' : Type} {R' : σ' → σ' → Prop} {f g : σ × X → σ' × Y} (h : Abreast R a b)
    (hf : ∀ s s' x, R s s' → R' (f (s, x)).1 (g (s', x)).1 ∧ (f (s, x)).2 = (g (s', x)).2) :
    Abreast R' (a.map f) (b.map g) := by
  obtain ⟨rfl, rfl⟩ | ⟨s, s', x, rfl, rfl, hr⟩ := h.cases
  · exact .none
  · exact .some (hf s s' x hr)

end Abreast

namespace Handler

/-- Nothing but the history differs. -/
def Twin (h h' : Handler) : Prop := ∃ trace, h' = { h with wire := h.wire.retold trace }

variable {h h' : Handler}

theorem twin_call (ht : h.Twin h') (r : Request) :
    (h.call r).1.Twin (h'.call r).1 ∧ (h.call r).2 = (h'.call r).2 := by
  obtain ⟨trace, rfl⟩ := ht
  simp only [call, Wire.retold_call]
  exact ⟨⟨_, rfl⟩, trivial⟩

theorem abreast_take? (ht : h.Twin h') (id : CallId) : Abreast Twin (h.take? id) (h'.take? id) := by
  obtain ⟨trace, rfl⟩ := ht
  simp only [take?, Wire.retold_take?]
  cases h.wire.take? id with
  | none => exact .none
  | some p => exact .some ⟨⟨_, rfl⟩, rfl⟩

theorem twin_abandon (ht : h.Twin h') (id : CallId) : (h.abandon id).Twin (h'.abandon id) := by
  obtain ⟨trace, rfl⟩ := ht
  exact ⟨trace, rfl⟩

theorem twin_stopRefresher (ht : h.Twin h') : h.stopRefresher.Twin h'.stopRefresher := by
  obtain ⟨trace, rfl⟩ := ht
  obtain ⟨wire, now, slot, interval, refreshers, refresher⟩ := h
  cases refresher <;> exact ⟨_, rfl⟩

theorem twin_startRefresher (ht : h.Twin h') (s : SessionId) :
    (h.startRefresher s).Twin (h'.startRefresher s) := by
  obtain ⟨trace', hs⟩ := twin_stopRefresher ht
  have hi : h'.interval = h.interval := by
    obtain ⟨trace, rfl⟩ := ht
    rfl
  unfold startRefresher
  rw [hi]
  cases h.interval with
  | none => exact ht
  | some d =>
    simp only [hs]
    exact ⟨_, rfl⟩

theorem Twin.slot (ht : h.Twin h') : h'.slot = h.slot := by
  obtain ⟨trace, rfl⟩ := ht
  rfl

theorem Twin.now (ht : h.Twin h') : h'.now = h.now := by
  obtain ⟨trace, rfl⟩ := ht
  rfl

theorem Twin.set_slot (ht : h.Twin h') (slot : Option SessionId) :
    Twin { h with slot } { h' with slot } := by
  obtain ⟨trace, rfl⟩ := ht
  exact ⟨trace, rfl⟩

theorem Twin.set_now (ht : h.Twin h') (now : Nat) : Twin { h with now } { h' with now } := by
  obtain ⟨trace, rfl⟩ := ht
  exact ⟨trace, rfl⟩

theorem twin_answer (ht : h.Twin h') (id : CallId) (o : Outcome) :
    Twin { h with wire := h.wire.answer id o } { h' with wire := h'.wire.answer id o } := by
  obtain ⟨trace, rfl⟩ := ht
  obtain ⟨trace', ha⟩ : ∃ trace', (h.wire.retold trace).answer id o = (h.wire.answer id o).retold trace' :=
    Wire.retold_answer h.wire id o
  exact ⟨trace', by simp only [ha]⟩

theorem twin_endSession (ht : h.Twin h') (s : SessionId) (cause : CloseCause) :
    Twin { h with wire := h.wire.endSession s cause } { h' with wire := h'.wire.endSession s cause } := by
  obtain ⟨trace, rfl⟩ := ht
  exact ⟨_, rfl⟩

/-- Both make the same call and wait for its answer. -/
theorem abreast_asked {α β : Type} (ht : h.Twin h') (r : Request) (f : CallId → α) :
    Abreast Twin (some ((h.call r).1, (.more (f (h.call r).2) : Progress α β)))
      (some ((h'.call r).1, .more (f (h'.call r).2))) := by
  obtain ⟨hcall, hid⟩ := twin_call ht r
  rw [hid]
  exact .both hcall _

/-! ## Opening and closing -/

theorem abreast_create (ht : h.Twin h') : Abreast Twin (Opening.create h) (Opening.create h') :=
  abreast_asked ht .create Opening.creating

theorem abreast_opening (ht : h.Twin h') (c : Bool) (o : Opening) :
    Abreast Twin (o.step c h) (o.step c h') := by
  cases o with
  | start =>
    have hstop := twin_stopRefresher ht
    simp only [Opening.step, hstop.slot]
    cases h.stopRefresher.slot with
    | none => exact abreast_create hstop
    | some s => exact abreast_asked (hstop.set_slot none) (.close s) Opening.discarding
  | discarding id =>
    obtain ⟨ha, hb⟩ | ⟨_, _, _, ha, hb, hr⟩ := (abreast_take? ht id).cases <;>
      simp only [Opening.step, ha, hb]
    · exact .none
    · exact abreast_create hr
  | creating id =>
    obtain ⟨ha, hb⟩ | ⟨_, _, o, ha, hb, hr⟩ := (abreast_take? ht id).cases <;>
      simp only [Opening.step, ha, hb]
    · exact .none
    rcases o with e | reply
    · exact .both hr _
    cases reply with
    | session s => exact abreast_asked hr (.connect s c) (Opening.connecting s)
    | _ => exact abreast_create hr
  | connecting s id =>
    obtain ⟨ha, hb⟩ | ⟨_, _, o, ha, hb, hr⟩ := (abreast_take? ht id).cases <;>
      simp only [Opening.step, ha, hb]
    · exact .none
    cases o with
    | error e => exact .both hr _
    | ok reply => exact .both (twin_startRefresher (hr.set_slot (some s)) s) _

theorem twin_abandon_opening (ht : h.Twin h') (o : Opening) : (o.abandon h).Twin (o.abandon h') := by
  cases o with
  | start => exact ht
  | _ => exact twin_abandon ht _

theorem abreast_closing (ht : h.Twin h') (c : Closing) : Abreast Twin (c.step h) (c.step h') := by
  cases c with
  | start =>
    have hstop := twin_stopRefresher ht
    simp only [Closing.step, hstop.slot]
    cases h.stopRefresher.slot with
    | none => exact .both hstop _
    | some s => exact abreast_asked (hstop.set_slot none) (.close s) Closing.closing
  | closing id => exact (abreast_take? ht id).map fun _ _ _ hr => ⟨hr, rfl⟩

/-! ## Forwarding -/

theorem Twin.current (ht : h.Twin h') : h'.current = h.current := by
  unfold Handler.current
  rw [ht.slot]

theorem abreast_subscribing (ht : h.Twin h') (g : Subscribing) : Abreast Twin (g.step h) (g.step h') := by
  cases g with
  | start on c =>
    simp only [Subscribing.step, ht.current]
    cases h.current with
    | error e => exact .both ht _
    | ok s => exact abreast_asked ht (Subscribing.request on s c) Subscribing.waiting
  | waiting id =>
    obtain ⟨ha, hb⟩ | ⟨_, _, o, ha, hb, hr⟩ := (abreast_take? ht id).cases <;>
      simp only [Subscribing.step, ha, hb]
    · exact .none
    · cases o <;> exact .both hr _

theorem twin_abandon_subscribing (ht : h.Twin h') (g : Subscribing) : (g.abandon h).Twin (g.abandon h') := by
  cases g with
  | start => exact ht
  | waiting id => exact twin_abandon ht id

theorem abreast_sendNext (ht : h.Twin h') (s : SessionId) (ms : List Message) :
    Abreast Twin (Forward.sendNext h s ms) (Forward.sendNext h' s ms) := by
  cases ms with
  | nil => exact .both ht _
  | cons m rest => exact abreast_asked ht (.data s (.send m)) fun id => Forward.sending s id rest

theorem abreast_forward (ht : h.Twin h') (f : Forward) : Abreast Twin (f.step h) (f.step h') := by
  cases f with
  | start x =>
    simp only [Forward.step, ht.current]
    cases h.current with
    | error e => exact .both ht _
    | ok s =>
      cases x with
      | one c => exact abreast_asked ht (.data s c) Forward.waiting
      | sendMany ms => exact abreast_sendNext ht s ms
  | waiting id =>
    obtain ⟨ha, hb⟩ | ⟨_, _, o, ha, hb, hr⟩ := (abreast_take? ht id).cases <;>
      simp only [Forward.step, ha, hb]
    · exact .none
    · cases o <;> exact .both hr _
  | sending s id rest =>
    obtain ⟨ha, hb⟩ | ⟨_, _, o, ha, hb, hr⟩ := (abreast_take? ht id).cases <;>
      simp only [Forward.step, ha, hb]
    · exact .none
    cases o with
    | error e => exact .both hr _
    | ok reply => exact abreast_sendNext hr s rest

theorem twin_abandon_forward (ht : h.Twin h') (f : Forward) : (f.abandon h).Twin (f.abandon h') := by
  cases f with
  | start => exact ht
  | _ => exact twin_abandon ht _

/-! ## Refreshing -/

theorem abreast_advanceRefresher (ht : h.Twin h') (r : Refresher) :
    Abreast Twin (h.advanceRefresher r) (h'.advanceRefresher r) := by
  obtain ⟨trace, rfl⟩ := ht
  have self : h.Twin { h with wire := h.wire.retold trace } := ⟨trace, rfl⟩
  have hended : (h.wire.retold trace).ended r.session = h.wire.ended r.session := rfl
  cases hph : r.phase with
  | ready =>
    simp only [advanceRefresher, hph, hended]
    exact .of_ite (.both self _) (.both self _)
  | waiting deadline =>
    simp only [advanceRefresher, hph, hended]
    obtain ⟨hcall, hid⟩ := twin_call self (.refresh r.session)
    refine .of_ite (.both self _) (.of_ite (.some ⟨hcall, ?_⟩) .none)
    exact congrArg (fun id => ({ r with phase := .refreshing id } : Refresher)) hid
  | refreshing id =>
    simp only [advanceRefresher, hph, Wire.retold_take?]
    cases h.wire.take? id with
    | none => exact .none
    | some q => exact .both ⟨trace, rfl⟩ _
  | ended =>
    simp only [advanceRefresher, hph]
    exact .none

theorem twin_stepRefresher (ht : h.Twin h') (i : Nat) :
    Option.Rel Twin (h.stepRefresher i) (h'.stepRefresher i) := by
  have hr : h'.refreshers = h.refreshers := by
    obtain ⟨trace, rfl⟩ := ht
    rfl
  unfold stepRefresher
  rw [hr]
  cases h.refreshers[i]? with
  | none => exact .none
  | some r =>
    simp only [Option.bind_eq_bind, Option.bind_some]
    obtain ⟨ha, hb⟩ | ⟨h₁, h₂, r', ha, hb, trace, rfl⟩ := (abreast_advanceRefresher ht r).cases <;>
      rw [ha, hb]
    · exact .none
    · exact .some ⟨trace, rfl⟩

end Handler

end HubDevice
