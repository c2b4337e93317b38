import HubDevice.Proofs.Kernel.Watching
import HubDevice.Proofs.Session.Ledger

/-!
# Replaying the subscriptions

What the record of control calls shows of an attempt to bring the connection up. `Recovery.Traced` follows
an attempt through its calls, whatever else happens meanwhile, up to `Rebuilt`: the newest part of the record
creates a session, connects it, and subscribes each channel of the enabled features on it once, every call
answered with success.
-/

namespace HubDevice.Kernel

open FairLock Retry Wire

/-- The record of subscriptions on a session, one for each channel, all of them successful. -/
inductive Served (s : SessionId) : List Channel → List Event → Prop where
  | nil : Served s [] []
  | cons {c : Channel} {cs : List Channel} {es : List Event} (id : CallId) (r : Reply) : Served s cs es →
      Served s (c :: cs) (.answered id (.subscribe s c) (.ok r) :: .called id (.subscribe s c) :: es)

/-- The record of a session that was created and connected, the newest event first. -/
def brought (s : SessionId) (cancelled : Bool) (created connected : CallId) (r : Reply) : List Event :=
  [.answered connected (.connect s cancelled) (.ok r), .called connected (.connect s cancelled),
    .answered created .create (.ok (.session s)), .called created .create]

/-- The record of an attempt that brings a session and subscribes every channel of the features on it. -/
def Rebuilt (fs : Features) (s : SessionId) (attempt : List Event) : Prop :=
  ∃ subs es cancelled created connected r,
    attempt = subs ++ brought s cancelled created connected r ∧ subs.Perm es ∧ Served s fs.channels es

theorem Served.not_failed {s : SessionId} {cs : List Channel} {es : List Event} (h : Served s cs es)
    (id : CallId) (r : HubDevice.Request) (x : TransportError) : .answered id r (.error x) ∉ es := by
  induction h with
  | nil => simp
  | cons => simpa

/-- No call of such an attempt has failed; a failure before it is older than all of it. -/
theorem Rebuilt.prefix_of_failure {fs : Features} {s : SessionId} {attempt rest newer older : List Event}
    {id : CallId} {r : HubDevice.Request} {x : TransportError} (h : Rebuilt fs s attempt)
    (he : attempt ++ rest = newer ++ .answered id r (.error x) :: older) : attempt <+: newer := by
  obtain ⟨subs, es, c, ic, ix, reply, rfl, hp, hs⟩ := h
  have hnot : .answered id r (.error x) ∉ subs ++ brought s c ic ix reply := by
    intro hm
    rcases List.mem_append.mp hm with hm | hm
    · exact hs.not_failed id r x (hp.mem_iff.mp hm)
    · simp [brought] at hm
  rcases List.append_eq_append_iff.mp he with ⟨mid, hn, -⟩ | ⟨mid, hn, hr⟩
  · exact ⟨mid, hn.symm⟩
  · cases mid with
    | nil => exact ⟨[], by simpa using hn⟩
    | cons e mid =>
      have hm := (List.cons.inj hr).1
      exact absurd (by rw [hn, hm]; simp) hnot

/-- The session of such an attempt is newer than any that was created before. -/
theorem Rebuilt.lt_of_created {fs : Features} {w : Wire} {s t : SessionId} {attempt rest : List Event}
    {id : CallId} (h : Rebuilt fs s attempt) (hw : w.Chronicled) (hc : w.control = attempt ++ rest)
    (ht : .answered id .create (.ok (.session t)) ∈ rest) : t < s := by
  obtain ⟨subs, es, c, ic, ix, reply, rfl, -, -⟩ := h
  have hsplit : w.control = (subs ++ [.answered ix (.connect s c) (.ok reply), .called ix (.connect s c)]) ++
      .answered ic .create (.ok (.session s)) :: .called ic .create :: rest := by
    rw [hc]
    simp [brought]
  exact hw.lt_of_created hsplit (List.mem_cons_of_mem _ ht)

namespace Recovery

variable {A : Scope} {w w' : Wire} {h h' : Handler} {s : SessionId} {cs : List Channel}
  {ps : List (Option Subscribing)} {es : List Event}

/-- The calls that pending subscriptions wait for. -/
def waitingIds : List (Option Subscribing) → List CallId
  | [] => []
  | some (.waiting id) :: rest => id :: waitingIds rest
  | _ :: rest => waitingIds rest

/-- What is on record of the subscriptions of an attempt, for each channel the state of its own. -/
inductive Serving (w : Wire) (s : SessionId) :
    List Channel → List (Option Subscribing) → List Event → Prop where
  | nil : Serving w s [] [] []
  | due {c : Channel} {cs : List Channel} {ps : List (Option Subscribing)} {es : List Event} :
      Serving w s cs ps es → Serving w s (c :: cs) (some (.start true c) :: ps) es
  | asked {c : Channel} {cs : List Channel} {ps : List (Option Subscribing)} {es : List Event}
      {id : CallId} {evs : List Event} : w.Recorded id (.subscribe s c) evs → Serving w s cs ps es →
      Serving w s (c :: cs) (some (.waiting id) :: ps) (evs ++ es)
  | served {c : Channel} {cs : List Channel} {ps : List (Option Subscribing)} {es : List Event}
      (id : CallId) (r : Reply) : Serving w s cs ps es →
      Serving w s (c :: cs) (none :: ps)
        (.answered id (.subscribe s c) (.ok r) :: .called id (.subscribe s c) :: es)

theorem serving_replay (w : Wire) (s : SessionId) (cs : List Channel) :
    Serving w s cs (cs.map fun c => some (.start true c)) [] := by
  induction cs with
  | nil => exact .nil
  | cons c cs ih => exact .due ih

theorem waitingIds_replay (cs : List Channel) :
    waitingIds (cs.map fun c => some (.start true c)) = [] := by
  induction cs with
  | nil => rfl
  | cons c cs ih => exact ih

/-- When nothing is pending, every channel is served. -/
theorem Serving.all_served (hs : Serving w s cs ps es) (hp : ps.all Option.isNone = true) :
    Served s cs es := by
  induction hs with
  | nil => exact .nil
  | due | asked => simp at hp
  | served id r _ ih => exact .cons id r (ih (by simpa using hp))

theorem Serving.mono (hs : Serving w s cs ps es)
    (hw : ∀ id r evs, ¬ r.Routine → id ∈ waitingIds ps → w.Recorded id r evs → w'.Recorded id r evs) :
    Serving w' s cs ps es := by
  induction hs with
  | nil => exact .nil
  | due _ ih => exact .due (ih hw)
  | asked hr _ ih =>
    exact .asked (hw _ _ _ (fun hf => hf) List.mem_cons_self hr)
      (ih fun id r evs hn hm => hw id r evs hn (List.mem_cons_of_mem _ hm))
  | served id r _ ih => exact .served id r (ih hw)

theorem Serving.issued (hs : Serving w s cs ps es) : ∀ id ∈ waitingIds ps, id < w.issued := by
  induction hs with
  | nil => simp [waitingIds]
  | due _ ih | served _ _ _ ih => exact ih
  | asked hr _ ih =>
    intro id hm
    rcases List.mem_cons.mp hm with rfl | hm
    · exact hr.issued
    · exact ih id hm

/-- One of the calls was answered. -/
theorem Serving.answered (hs : Serving w s cs ps es) {id₀ : CallId} {r₀ : HubDevice.Request} {o : Outcome}
    (hw : ∀ id r evs, w.Recorded id r evs → (id = id₀ → r = r₀) ∧
      w'.Recorded id r (if id = id₀ then .answered id r o :: evs else evs))
    (hnd : (waitingIds ps).Nodup) (hm : id₀ ∈ waitingIds ps) :
    ∃ es', Serving w' s cs ps es' ∧ es'.Perm (.answered id₀ r₀ o :: es) := by
  induction hs with
  | nil => cases hm
  | due _ ih =>
    obtain ⟨es', hs', hp⟩ := ih hnd hm
    exact ⟨es', .due hs', hp⟩
  | @asked c cs ps es id evs hr hs ih =>
    obtain ⟨hnot, hnd'⟩ := List.nodup_cons.mp hnd
    obtain ⟨hreq, hrec⟩ := hw _ _ _ hr
    by_cases hi : id = id₀
    · rw [if_pos hi] at hrec
      have hrest : Serving w' s cs ps es := hs.mono fun id' r evs _ hm' hr' => by
        have hne : id' ≠ id₀ := fun he => hnot (hi ▸ he ▸ hm')
        have := (hw id' r evs hr').2
        rwa [if_neg hne] at this
      refine ⟨_, .asked hrec hrest, ?_⟩
      rw [hreq hi, hi]
      exact List.Perm.refl _
    · rw [if_neg hi] at hrec
      have hm' : id₀ ∈ waitingIds ps := by
        rcases List.mem_cons.mp hm with he | hm
        · exact absurd he.symm hi
        · exact hm
      obtain ⟨es', hs', hp⟩ := ih hnd' hm'
      refine ⟨_, .asked hrec hs', ?_⟩
      exact (hp.append_left evs).trans List.perm_middle
  | served id r _ ih =>
    obtain ⟨es', hs', hp⟩ := ih hnd hm
    refine ⟨_, .served id r hs', ?_⟩
    exact ((hp.cons _).cons _).trans (((List.Perm.swap _ _ _).cons _).trans (List.Perm.swap _ _ _))

/-- What others do is on the record as well. -/
theorem Serving.kept (hs : Serving w s cs ps es) (hnd : (waitingIds ps).Nodup)
    (hk : Kept w w' (waitingIds ps)) :
    ∃ new es', w'.control = new ++ w.control ∧ Serving w' s cs ps es' ∧ es'.Perm (new ++ es) := by
  cases hk with
  | stands hc hw =>
    exact ⟨[], es, hc, hs.mono fun id r evs hn _ => hw id r evs hn, List.Perm.refl _⟩
  | answered id₀ r₀ o hm hc hw =>
    obtain ⟨es', hs', hp⟩ := hs.answered hw hnd hm
    exact ⟨[_], es', hc, hs', hp⟩

/-! ## Steps of pending subscriptions -/

/-- The first pending subscription that need not wait asks for its channel, finds no session, succeeds or
fails. -/
inductive Stepped (h : Handler) : List (Option Subscribing) → Recovery.Replayed → Prop where
  | later {g : Option Subscribing} {ps : List (Option Subscribing)} {r : Recovery.Replayed} :
      Stepped h ps r → Stepped h (g :: ps) { r with pending := g :: r.pending }
  | asks {on : Bool} {c : Channel} {s : SessionId} {ps : List (Option Subscribing)} : h.slot = some s →
      Stepped h (some (.start on c) :: ps)
        { handler := (h.call (Subscribing.request on s c)).1
          pending := some (.waiting h.wire.issued) :: ps }
  | vacant {on : Bool} {c : Channel} {e : ClientError} {ps : List (Option Subscribing)} : h.slot = none →
      Stepped h (some (.start on c) :: ps) { handler := h, pending := none :: ps, failure := some e }
  | succeeds {id : CallId} {reply : Reply} {d : PendingCall} {ps : List (Option Subscribing)} :
      d ∈ h.wire.calls → d.id = id → d.answer = some (.ok reply) →
      Stepped h (some (.waiting id) :: ps) { handler := h.abandon id, pending := none :: ps }
  | fails {id : CallId} {e : ClientError} {ps : List (Option Subscribing)} :
      Stepped h (some (.waiting id) :: ps)
        { handler := h.abandon id, pending := none :: ps, failure := some e }

theorem stepped_of_stepFirst {r : Recovery.Replayed} (hs : stepFirst h ps = some r) : Stepped h ps r := by
  induction ps generalizing r with
  | nil => cases hs
  | cons g rest ih =>
    cases g with
    | none =>
      obtain ⟨r', hr', rfl⟩ := Option.map_eq_some_iff.mp hs
      exact .later (ih hr')
    | some g =>
      simp only [stepFirst] at hs
      split at hs
      · rename_i hg
        cases hs
        cases Subscribing.turn_of_step hg with
        | asked hslot => exact .asks hslot
      · rename_i hg
        cases hs
        cases Subscribing.turn_of_step hg with
        | confirmed hd hid ha => exact .succeeds hd hid ha
      · rename_i hg
        cases hs
        cases Subscribing.turn_of_step hg with
        | vacant hslot => exact .vacant hslot
        | refused => exact .fails
      · obtain ⟨r', hr', rfl⟩ := Option.map_eq_some_iff.mp hs
        exact .later (ih hr')

namespace Stepped

variable {r : Recovery.Replayed}

theorem waitingIds_eq (g : Subscribing) :
    waitingIds (some g :: ps) = waitingIds [some g] ++ waitingIds ps := by
  cases g <;> rfl

/-- The unsettled calls after a step are those of the subscriptions that are still pending. -/
theorem owned (hs : Stepped h ps r) (L : List CallId) (ho : h.wire.Owned (L ++ waitingIds ps)) :
    r.handler.wire.Owned (L ++ waitingIds r.pending) := by
  induction hs generalizing L with
  | @later g ps r _ ih =>
    cases g with
    | none => exact ih L ho
    | some g =>
      rw [waitingIds_eq, ← List.append_assoc] at ho ⊢
      exact ih _ ho
  | @asks on c s ps _ =>
    intro d hd hr
    have hm := ho.call (Subscribing.request on s c) d hd hr
    simpa [waitingIds, or_left_comm] using hm
  | vacant => exact ho
  | succeeds | fails =>
    intro d hd hr
    obtain ⟨hd, hne⟩ := mem_calls_abandon.mp hd
    have hm := ho d hd hr
    simp only [waitingIds, List.mem_append, List.mem_cons] at hm ⊢
    rcases hm with hm | hm | hm
    · exact .inl hm
    · exact absurd hm hne
    · exact .inr hm

/-- The calls that are waited for after a step were waited for before, or one has just been made. -/
theorem mem_waitingIds (hs : Stepped h ps r) {id : CallId} (hm : id ∈ waitingIds r.pending) :
    id ∈ waitingIds ps ∨ id = h.wire.issued := by
  induction hs with
  | @later g ps r _ ih =>
    cases g with
    | none => exact ih hm
    | some g =>
      dsimp only at hm
      rw [waitingIds_eq] at hm ⊢
      rcases List.mem_append.mp hm with hm | hm
      · exact .inl (List.mem_append_left _ hm)
      · rcases ih hm with hm | hm
        · exact .inl (List.mem_append_right _ hm)
        · exact .inr hm
  | asks =>
    rcases List.mem_cons.mp hm with hm | hm
    · exact .inr hm
    · exact .inl hm
  | vacant => exact .inl hm
  | succeeds | fails => exact .inl (List.mem_cons_of_mem _ hm)

theorem nodup (hs : Stepped h ps r) (hi : ∀ id ∈ waitingIds ps, id < h.wire.issued)
    (hnd : (waitingIds ps).Nodup) : (waitingIds r.pending).Nodup := by
  induction hs with
  | @later g ps r hs ih =>
    cases g with
    | none => exact ih hi hnd
    | some g =>
      cases g with
      | start on c => exact ih hi hnd
      | waiting id =>
        obtain ⟨hnot, hnd⟩ := List.nodup_cons.mp hnd
        refine List.nodup_cons.mpr ⟨fun hm => ?_, ih (fun id' hm => hi id' (List.mem_cons_of_mem _ hm)) hnd⟩
        rcases hs.mem_waitingIds hm with hm | hm
        · exact hnot hm
        · exact absurd hm (Nat.ne_of_lt (hi id List.mem_cons_self))
  | asks => exact List.nodup_cons.mpr ⟨fun hm => absurd (hi _ hm) (Nat.lt_irrefl _), hnd⟩
  | vacant => exact hnd
  | succeeds | fails => exact (List.nodup_cons.mp hnd).2

theorem slot_eq (hs : Stepped h ps r) : r.handler.slot = h.slot := by
  induction hs with
  | later _ ih => exact ih
  | _ => rfl

theorem recorded (hs : Stepped h ps r) {id : CallId} {q : HubDevice.Request} {evs : List Event}
    (hr : h.wire.Recorded id q evs) : r.handler.wire.Recorded id q evs := by
  induction hs with
  | later _ ih => exact ih
  | asks => exact hr.call _
  | vacant => exact hr
  | succeeds | fails => exact hr.abandon _

/-- A step that does not fail is on the record. -/
theorem serving (hs : Stepped h ps r) (hn : h.wire.Numbered) (hslot : h.slot = some s)
    (hserv : Serving h.wire s cs ps es) (hok : r.failure = none) :
    ∃ new es', r.handler.wire.control = new ++ h.wire.control ∧
      Serving r.handler.wire s cs r.pending es' ∧ es'.Perm (new ++ es) := by
  induction hs generalizing cs es with
  | @later g ps r hs ih =>
    cases hserv with
    | due hserv =>
      obtain ⟨new, es', hc, hs', hp⟩ := ih hserv hok
      exact ⟨new, es', hc, .due hs', hp⟩
    | @asked c cs _ es id evs hr hserv =>
      obtain ⟨new, es', hc, hs', hp⟩ := ih hserv hok
      refine ⟨new, _, hc, .asked (hs.recorded hr) hs', ?_⟩
      calc (evs ++ es').Perm (evs ++ (new ++ es)) := hp.append_left evs
        _ |>.Perm (new ++ (evs ++ es)) := by
          rw [← List.append_assoc, ← List.append_assoc]
          exact (List.perm_append_comm).append_right es
    | served id r' hserv =>
      obtain ⟨new, es', hc, hs', hp⟩ := ih hserv hok
      refine ⟨new, _, hc, .served id r' hs', ?_⟩
      exact (((hp.cons _).trans List.perm_middle.symm).cons _).trans List.perm_middle.symm
  | @asks on c s' ps hs' =>
    cases hserv with
    | due hserv =>
      rw [hslot] at hs'
      cases hs'
      exact ⟨[_], _, control_call h.wire (r := .subscribe s c) (fun hf => hf),
        .asked (recorded_call hn (.subscribe s c))
          (hserv.mono fun id r evs _ _ hr => hr.call (.subscribe s c)), List.Perm.refl _⟩
  | vacant => cases hok
  | @succeeds id reply d ps hd hid ha =>
    cases hserv with
    | asked hr hserv =>
      have he := hr.of_answer hd hid ha
      subst he
      exact ⟨[], _, rfl, .served id reply (hserv.mono fun id r evs _ _ hr => hr.abandon _),
        List.Perm.refl _⟩
  | fails => cases hok

end Stepped

/-- Whatever was pending is given up. -/
theorem owned_abandonAll (h : Handler) (ps : List (Option Subscribing))
    (ho : h.wire.Owned (waitingIds ps)) : (abandonAll h ps).wire.Owned [] := by
  unfold abandonAll
  induction ps generalizing h with
  | nil => exact ho
  | cons g rest ih =>
    cases g with
    | none => exact ih h ho
    | some g =>
      cases g with
      | start on c => exact ih h ho
      | waiting id => exact ih (h.abandon id) ho.abandon

/-! ## Openings -/

/-- The newest part of the record brings a session, which is in the slot. -/
def Brought (h : Handler) (s : SessionId) : Prop :=
  h.slot = some s ∧ ∃ cancelled created connected r rest,
    h.wire.control = brought s cancelled created connected r ++ rest

/-- What is on record of an opening on its way. -/
def Bringing (h : Handler) : Opening → Prop
  | .start => h.wire.Owned []
  | .discarding id => h.wire.Owned [id]
  | .creating id => h.wire.Owned [id] ∧ ∃ evs rest,
      h.wire.Recorded id .create evs ∧ h.wire.control = evs ++ rest
  | .connecting s id => h.wire.Owned [id] ∧ ∃ evs rest created cancelled,
      h.wire.Recorded id (.connect s cancelled) evs ∧
      h.wire.control =
        evs ++ (.answered created .create (.ok (.session s)) :: .called created .create :: rest)

theorem Bringing.touch {o : Opening} (hb : Bringing h o) (ht : Touch A h.wire h'.wire)
    (hA : ∀ r, A.calls r → r.Routine) : Bringing h' o := by
  cases o with
  | start | discarding => exact (ht.control hA hb).1
  | creating id =>
    obtain ⟨ho, evs, rest, hr, hc⟩ := hb
    obtain ⟨ho', hk⟩ := ht.control hA ho
    obtain ⟨new, hc', hr'⟩ := hr.kept hk fun hf => hf
    exact ⟨ho', _, rest, hr', by rw [hc', hc, List.append_assoc]⟩
  | connecting s id =>
    obtain ⟨ho, evs, rest, created, cancelled, hr, hc⟩ := hb
    obtain ⟨ho', hk⟩ := ht.control hA ho
    obtain ⟨new, hc', hr'⟩ := hr.kept hk fun hf => hf
    exact ⟨ho', _, rest, created, cancelled, hr', by rw [hc', hc, List.append_assoc]⟩

theorem bringing_create (hn : h.wire.Numbered) (ho : h.wire.Owned []) :
    Bringing (h.call .create).1 (.creating (h.call .create).2) := by
  rw [Handler.call_id]
  exact ⟨ho.call .create, _, h.wire.control, recorded_call hn .create,
    control_call h.wire (r := .create) fun hf => hf⟩

theorem Bringing.step {o : Opening} {c : Bool} {pr : Progress Opening (Except ClientError Unit)}
    (hn : h.wire.Numbered) (hb : Bringing h o) (hs : o.step c h = some (h', pr)) :
    pr.Leaves (Bringing h') (h'.wire.Owned [] ∧ ∃ s, Brought h' s) (h'.wire.Owned []) := by
  have taken : ∀ {id : CallId}, (h.abandon id).wire.Numbered := fun {id} =>
    (Handler.uses_abandon (A := .nothing) h id).touches.numbered hn
  cases o with
  | start =>
    have hw := Handler.stopRefresher_wire h
    have hn' : h.stopRefresher.wire.Numbered := hw.symm ▸ hn
    have hb' : h.stopRefresher.wire.Owned [] := hw.symm ▸ hb
    simp only [Opening.step, Opening.create_eq] at hs
    split at hs <;> cases hs
    · exact bringing_create hn' hb'
    · rename_i s _
      rw [Handler.call_id]
      exact hb'.call (.close s)
  | discarding id =>
    simp only [Opening.step, Opening.create_eq] at hs
    split at hs <;> cases hs
    rename_i ht
    obtain ⟨rfl, -⟩ := Handler.take?_eq_some ht
    exact bringing_create taken (Owned.abandon hb)
  | creating id =>
    obtain ⟨ho, evs, rest, hr, hc⟩ := hb
    simp only [Opening.step, Opening.create_eq] at hs
    split at hs <;> cases hs <;> rename_i ht <;> obtain ⟨rfl, d, hd, hid, ha⟩ := Handler.take?_eq_some ht
    · rename_i s
      rw [Handler.call_id]
      refine ⟨(Owned.abandon ho).call (.connect s c), _, rest, id, c, recorded_call taken (.connect s c), ?_⟩
      have hctl : ((h.abandon id).call (.connect s c)).1.wire.control =
          .called (h.abandon id).wire.issued (.connect s c) :: h.wire.control :=
        control_call (h.abandon id).wire (r := .connect s c) fun hf => hf
      rw [hctl, hc, hr.of_answer hd hid ha]
      rfl
    · exact bringing_create taken (Owned.abandon ho)
    · exact Owned.abandon ho
  | connecting s id =>
    obtain ⟨ho, evs, rest, created, cancelled, hr, hc⟩ := hb
    simp only [Opening.step] at hs
    split at hs <;> cases hs <;> rename_i ht <;> obtain ⟨rfl, d, hd, hid, ha⟩ := Handler.take?_eq_some ht
    · rename_i reply
      have hw : (Handler.startRefresher { h.abandon id with slot := some s } s).wire = (h.abandon id).wire :=
        Handler.startRefresher_wire _ s
      refine ⟨hw.symm ▸ Owned.abandon ho, s, by rw [Handler.startRefresher_slot],
        cancelled, created, id, reply, rest, ?_⟩
      rw [hw]
      have hctl : (h.abandon id).wire.control = h.wire.control := rfl
      rw [hctl, hc, hr.of_answer hd hid ha]
      rfl
    · exact Owned.abandon ho

/-! ## Attempts -/

/-- What is on record of an attempt whose session is open. -/
structure Promising (fs : Features) (h : Handler) (s : SessionId) (ps : List (Option Subscribing)) :
    Prop where
  slot : h.slot = some s
  owned : h.wire.Owned (waitingIds ps)
  nodup : (waitingIds ps).Nodup
  record : ∃ subs es cancelled created connected r rest, Serving h.wire s fs.channels ps es ∧
    subs.Perm es ∧ h.wire.control = subs ++ (brought s cancelled created connected r ++ rest)

/-- What is on record of an attempt. -/
def Traced (fs : Features) (h : Handler) : Recovery → Prop
  | .opening o => Bringing h o
  | .replaying ps => ∃ s, Promising fs h s ps

/-- No control call is unsettled, and the newest part of the record is a complete attempt. -/
def Complete (fs : Features) (h : Handler) : Prop :=
  h.wire.Owned [] ∧ ∃ s attempt rest, h.slot = some s ∧ h.wire.control = attempt ++ rest ∧
    Rebuilt fs s attempt

variable {fs : Features}

theorem Traced.touch {a : Recovery} (ha : Traced fs h a) (hslot : h'.slot = h.slot)
    (ht : Touch A h.wire h'.wire) (hA : ∀ r, A.calls r → r.Routine) : Traced fs h' a := by
  cases a with
  | opening o => exact Bringing.touch ha ht hA
  | replaying ps =>
    obtain ⟨s, hs, ho, hnd, subs, es, c, ic, ix, r, rest, hserv, hp, hc⟩ := ha
    obtain ⟨ho', hk⟩ := ht.control hA ho
    obtain ⟨new, es', hc', hserv', hp'⟩ := hserv.kept hnd hk
    refine ⟨s, hslot.trans hs, ho', hnd, new ++ subs, es', c, ic, ix, r, rest, hserv', ?_, ?_⟩
    · exact (hp.append_left new).trans hp'.symm
    · rw [hc', hc, List.append_assoc]

theorem waitingIds_of_all (hp : ps.all Option.isNone = true) : waitingIds ps = [] := by
  induction ps with
  | nil => rfl
  | cons g rest ih =>
    cases g with
    | none => exact ih (by simpa using hp)
    | some g => simp at hp

theorem Promising.settle (hp : Promising fs h s ps) :
    (settle ps).Leaves (Traced fs h) (Complete fs h) (h.wire.Owned []) := by
  unfold Recovery.settle
  split
  · rename_i hall
    obtain ⟨hs, ho, -, subs, es, c, ic, ix, r, rest, hserv, hperm, hc⟩ := hp
    rw [waitingIds_of_all hall] at ho
    exact ⟨ho, s, _, rest, hs, by rw [hc, List.append_assoc], subs, es, c, ic, ix, r, rfl, hperm,
      hserv.all_served hall⟩
  · exact ⟨s, hp⟩

theorem Brought.promising (hb : Brought h s) (ho : h.wire.Owned []) : Promising fs h s (replay fs) := by
  obtain ⟨hs, c, ic, ix, r, rest, hc⟩ := hb
  have hw : waitingIds (replay fs) = [] := waitingIds_replay fs.channels
  refine ⟨hs, by rwa [hw], by rw [hw]; exact List.nodup_nil, [], [], c, ic, ix, r, rest, ?_⟩
  exact ⟨serving_replay h.wire s fs.channels, List.Perm.refl _, hc⟩

/-- A step of an attempt, as the record shows it. -/
theorem Traced.step {a : Recovery} {c : Bool} {pr : Progress Recovery (Except ClientError Unit)}
    (hn : h.wire.Numbered) (ha : Traced fs h a) (hs : a.step fs c h = some (h', pr)) :
    pr.Leaves (Traced fs h') (Complete fs h') (h'.wire.Owned []) := by
  cases turn_of_step hs with
  | opening he | unopened he => exact Bringing.step hn ha he
  | opened he hpr =>
    obtain ⟨ho, s, hb⟩ := Bringing.step hn ha he
    exact hpr ▸ (hb.promising ho).settle
  | replayed he hpr =>
    obtain ⟨s, hslot, ho, hnd, subs, es, cc, ic, ix, r, rest, hserv, hp, hc⟩ := ha
    have hst := stepped_of_stepFirst he
    obtain ⟨new, es', hc', hserv', hp'⟩ := hst.serving hn hslot hserv rfl
    rw [hpr]
    refine Promising.settle ⟨hst.slot_eq.trans hslot, hst.owned [] ho, hst.nodup hserv.issued hnd,
      new ++ subs, es', cc, ic, ix, r, rest, hserv', ?_, ?_⟩
    · exact (hp.append_left new).trans hp'.symm
    · rw [hc', hc, List.append_assoc]
  | refused he =>
    obtain ⟨s, -, ho, -⟩ := ha
    exact owned_abandonAll _ _ ((stepped_of_stepFirst he).owned [] ho)

theorem Traced.owned_abandon {a : Recovery} (ha : Traced fs h a) : (a.abandon h).wire.Owned [] := by
  cases a with
  | opening o =>
    cases o with
    | start => exact ha
    | discarding id => exact Owned.abandon ha
    | creating id | connecting s id => exact Owned.abandon ha.1
  | replaying ps =>
    obtain ⟨s, hp⟩ := ha
    exact owned_abandonAll h ps hp.owned

end Recovery

end HubDevice.Kernel
