import HubDevice.Proofs.Session.Ledger

/-!
# The channels that are open on a session

A session has the channels that were opened on it and not closed again, each of them once, as far as the
transport has confirmed it. `Wire.channels` reads them off the history. Only control calls matter for them
(`channels_eq`), so that they stand while others make routine calls.
-/

namespace HubDevice

/-- The channels of a session after an event: a session is created without any, and a call that the transport
confirms opens or closes one. -/
def Event.channelsAfter (s : SessionId) (e : Event) (cs : List Channel) : List Channel :=
  match e with
  | .answered _ .create (.ok (.session t)) => if t = s then [] else cs
  | .answered _ (.subscribe t c) (.ok _) => if t = s ∧ c ∉ cs then cs ++ [c] else cs
  | .answered _ (.unsubscribe t c) (.ok _) => if t = s then cs.filter (· ≠ c) else cs
  | _ => cs

/-- The channels that a history leaves open on a session; the newest event comes first. -/
def channelsOf (s : SessionId) (history : List Event) : List Channel :=
  history.foldr (Event.channelsAfter s) []

namespace Wire

/-- The channels that are open on a session. -/
def channels (w : Wire) (s : SessionId) : List Channel := channelsOf s w.trace

end Wire

variable {s : SessionId} {c : Channel} {e : Event} {evs base : List Event}

theorem Event.channelsAfter_of_not_control (he : e.isControl = false) (cs : List Channel) :
    e.channelsAfter s cs = cs := by
  unfold channelsAfter
  split
  all_goals first | rfl | cases he

theorem channelsOf_control (evs : List Event) :
    channelsOf s (evs.filter Event.isControl) = channelsOf s evs := by
  induction evs with
  | nil => rfl
  | cons e evs ih =>
    cases he : e.isControl with
    | true =>
      rw [List.filter_cons_of_pos he]
      exact congrArg (e.channelsAfter s) ih
    | false =>
      rw [List.filter_cons_of_neg (by simp [he]), ih]
      exact (Event.channelsAfter_of_not_control he _).symm

theorem Wire.channels_eq (w : Wire) (s : SessionId) : w.channels s = channelsOf s w.control :=
  (channelsOf_control w.trace).symm

theorem Event.nodup_channelsAfter (s : SessionId) (e : Event) {cs : List Channel} (h : cs.Nodup) :
    (e.channelsAfter s cs).Nodup := by
  unfold channelsAfter
  split
  · split
    · exact List.nodup_nil
    · exact h
  · split
    · rename_i hc
      exact List.nodup_append.mpr ⟨h, by simp, fun a ha b hb hab => hc.2 (by simp_all)⟩
    · exact h
  · split
    · exact h.filter _
    · exact h
  · exact h

/-- No channel is open twice. -/
theorem nodup_channelsOf (s : SessionId) (evs : List Event) : (channelsOf s evs).Nodup := by
  induction evs with
  | nil => exact List.nodup_nil
  | cons e evs ih => exact e.nodup_channelsAfter s ih

theorem mem_channelsAfter_subscribe (id : CallId) (r : Reply) {c' : Channel} {cs : List Channel} :
    c' ∈ (Event.answered id (.subscribe s c) (.ok r)).channelsAfter s cs ↔ c' = c ∨ c' ∈ cs := by
  by_cases hc : c ∈ cs
  · simp only [Event.channelsAfter, hc, not_true_eq_false, and_false, if_false]
    constructor
    · exact .inr
    · rintro (rfl | h)
      · exact hc
      · exact h
  · simp [Event.channelsAfter, hc, or_comm]

theorem mem_channelsAfter_unsubscribe (id : CallId) (r : Reply) {c' : Channel} {cs : List Channel} :
    c' ∈ (Event.answered id (.unsubscribe s c) (.ok r)).channelsAfter s cs ↔ c' ∈ cs ∧ c' ≠ c := by
  simp [Event.channelsAfter]

/-- What is on record while channels are only opened on a session. -/
inductive Event.Opens (s : SessionId) : Event → Prop where
  | called (id : CallId) (r : Request) : Opens s (.called id r)
  | opened (id : CallId) (c : Channel) (r : Reply) : Opens s (.answered id (.subscribe s c) (.ok r))

/-- Where channels are only opened, those that are open afterwards were open before, or were opened. -/
theorem mem_channelsOf_append {new : List Event} (h : ∀ e ∈ new, e.Opens s) :
    c ∈ channelsOf s (new ++ base) ↔
      (∃ id r, .answered id (.subscribe s c) (.ok r) ∈ new) ∨ c ∈ channelsOf s base := by
  induction new with
  | nil => simp
  | cons e new ih =>
    have ih := ih fun e he => h e (List.mem_cons_of_mem _ he)
    have hcons : channelsOf s (e :: new ++ base) = e.channelsAfter s (channelsOf s (new ++ base)) := rfl
    rw [hcons]
    cases h e List.mem_cons_self with
    | called id r => simpa [Event.channelsAfter] using ih
    | opened id c' r =>
      rw [mem_channelsAfter_subscribe, ih, ← or_assoc]
      refine or_congr_left ⟨?_, ?_⟩
      · rintro (rfl | ⟨id', r', hm⟩)
        · exact ⟨id, r, List.mem_cons_self⟩
        · exact ⟨id', r', List.mem_cons_of_mem _ hm⟩
      · rintro ⟨id', r', hm⟩
        rcases List.mem_cons.mp hm with he | hm
        · cases he
          exact .inl rfl
        · exact .inr ⟨id', r', hm⟩

end HubDevice
