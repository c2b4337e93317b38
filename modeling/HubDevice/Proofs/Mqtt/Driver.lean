import HubDevice.Proofs.Mqtt.Reception

/-!
# What a driver makes of its connection

`Session.Act` are the things that can happen to a session, and its driver looks at one event after another (`looks`)
until one of them ends its loop. `Turn` says what a step does to the driver and to the answer for whoever opened the
session, and `Stage` how both follow from what was looked at. The notification that the session has ended is given with
the first of the `causes` that come up. Whatever a reception does to a session is an act of it
(`Reception.acts_after`), so that each session of a station has a run of this kind (`Reception.exists_history`).
-/

namespace HubDevice.Mqtt

/-! ## What is answered and found -/

/-- The first answer stands. -/
def Acknowledgement.or : Acknowledgement → Acknowledgement → Acknowledgement
  | .awaited, b => b
  | .given o, _ => .given o
  | .never, _ => .never

theorem Acknowledgement.or_of_ne {a : Acknowledgement} (h : a ≠ .awaited) (b : Acknowledgement) : a.or b = a := by
  cases a with
  | awaited => exact absurd rfl h
  | given | never => rfl

/-- What a driver finds. -/
inductive Look where
  | stopped
  | saw (e : Event)
  deriving DecidableEq

namespace Look

/-- The connection is acknowledged. -/
def accepted : Look := .saw (.acknowledged .success)

/-- Why the session ends with what was found, if it does. -/
def cause? : Look → Option CloseCause
  | .stopped | .saw .leftHub => some .closedLocally
  | .saw .dismissed => some (.remote "disconnected by hub")
  | .saw (.failed f) => some (.remote f.classify.message)
  | .saw (.acknowledged _) | .saw (.arrived _) | .saw .other => none

/-- Where the driver stands then. -/
def next : Look → Driving
  | .stopped | .saw .leftHub => .ending .closedLocally
  | .saw .dismissed => .ending (.remote "disconnected by hub")
  | .saw (.failed f) => .failing f.classify
  | .saw (.acknowledged _) | .saw (.arrived _) | .saw .other => .running

/-- The cause that comes up while the driver looks: a failure ends the session at once. -/
def early? : Look → Option CloseCause
  | .saw (.failed f) => some (.remote f.classify.message)
  | _ => none

theorem cause?_of_early (k : Look) {cause : CloseCause} (h : k.early? = some cause) : k.cause? = some cause := by
  unfold early? at h
  split at h
  · exact h
  · cases h

/-- The driver goes on, or the connection has failed, or the driver ends. -/
theorem next_cases (k : Look) : k.cause? = none ∧ k.next = .running ∨
    (∃ f, k = .saw (.failed f)) ∨ ∃ cause, k.cause? = some cause ∧ k.next = .ending cause := by
  cases k with
  | stopped => exact .inr (.inr ⟨_, rfl, rfl⟩)
  | saw e =>
    cases e with
    | acknowledged | arrived | other => exact .inl ⟨rfl, rfl⟩
    | failed f => exact .inr (.inl ⟨f, rfl⟩)
    | dismissed | leftHub => exact .inr (.inr ⟨_, rfl, rfl⟩)

theorem cause?_eq_some {k : Look} {cause : CloseCause} (h : k.next = .ending cause) : k.cause? = some cause := by
  rcases k.next_cases with ⟨-, hn⟩ | ⟨f, rfl⟩ | ⟨cause', hk, hn⟩
  · rw [h] at hn
    cases hn
  · cases h
  · rw [h] at hn
    cases hn
    exact hk

/-- What whoever opened the session has heard then. -/
def answer (a : Acknowledgement) (k : Look) : Acknowledgement :=
  if k = accepted then a.or (.given (.ok ())) else a

end Look

theorem Router.closed_register (r : Router) (id : String) (request : Nat) :
    (r.register id request).closed = r.closed := by
  unfold register
  split <;> rfl

/-- Routing does not end a session. -/
theorem closed_route (x : Identity) (r : Router) (q : Queues) (p : Publish) : (route x r q p).1.closed = r.closed := by
  unfold route Routed.deliver
  split
  · unfold Router.resolve
    split <;> rfl
  all_goals rfl

namespace Session

/-! ## Acts -/

/-- What can happen to a session. -/
inductive Act where
  /-- Something happens on its connection. -/
  | arrive (e : Event)
  /-- It is opened. -/
  | start
  /-- Somebody begins to wait for its driver. -/
  | join
  | drive (x : Identity) (q : Queues)
  | stop
  /-- It is closed from this side. -/
  | leave
  /-- An answer about the twin is waited for. -/
  | register (id : String) (request : Nat)
  | forget (id : String)
  | put (o : Outgoing)

/-- What an act makes of a session; nothing when it cannot happen. -/
def after (s : Session) : Act → Option Session
  | .arrive e => some { s with events := s.events ++ [e] }
  | .start => if s.driving = .idle then some { s with driving := .running, joinable := true } else none
  | .join => some { s with joinable := false }
  | .drive x q => (s.drive x q).map (·.1)
  | .stop => some { s with stop := true }
  | .leave => some { s with stop := true, router := s.router.close .closedLocally }
  | .register id request => some { s with router := s.router.register id request }
  | .forget id => some { s with router := s.router.forget id }
  | .put o => some { s with outbox := s.outbox ++ [o] }

/-- What the driver finds in an act. -/
def look? : Session × Act → Option Look
  | (s, .drive _ _) =>
    if s.driving = .running then
      if s.stop then some .stopped else s.events.head?.map .saw
    else none
  | _ => none

/-- The cause that comes up in an act. What the driver leaves its loop with comes up in its last step; a close from this
side can come in between. -/
def cause? : Session × Act → Option CloseCause
  | (_, .leave) => some .closedLocally
  | (s, .drive x q) =>
    match s.driving with
    | .ending cause => some cause
    | _ => (look? (s, .drive x q)).bind Look.early?
  | _ => none

/-- What the driver has found in a run, in this order. -/
def looks (l : List (Session × Act)) : List Look := l.reverse.filterMap look?

/-- The causes that came up in a run, in this order. -/
def causes (l : List (Session × Act)) : List CloseCause := l.reverse.filterMap cause?

variable {s s' : Session} {act : Act} {l : List (Session × Act)}

theorem looks_cons (y : Session × Act) : looks (y :: l) = looks l ++ (look? y).toList :=
  filterMap_reverse_cons look? y l

theorem causes_cons (y : Session × Act) : causes (y :: l) = causes l ++ (cause? y).toList :=
  filterMap_reverse_cons cause? y l

/-! ## What an act does -/

/-- What a step of the driver does to where it stands and to the answer, with what it finds and the cause that comes
up. -/
inductive Turn : Option Look → Option CloseCause → Driving → Acknowledgement → Driving → Acknowledgement → Prop
  | looked (k : Look) (a : Acknowledgement) : Turn (some k) k.early? .running a k.next (k.answer a)
  /-- Whoever opened the session hears of the failure. -/
  | told (e : TransportError) (a : Acknowledgement) :
      Turn none none (.failing e) a (.ending .closedLocally) (a.or (.given (.error e)))
  | ended (cause : CloseCause) (a : Acknowledgement) : Turn none (some cause) (.ending cause) a .ended (a.or .never)

/-- What becomes of the notification when a cause comes up. -/
def noticed (n : ClosedNotice) : Option CloseCause → ClosedNotice
  | none => n
  | some cause => (n.notify cause).1

theorem drive_spec {x : Identity} {q q' : Queues} (h : s.drive x q = some (s', q')) :
    Turn (look? (s, .drive x q)) (cause? (s, .drive x q)) s.driving s.acknowledgement s'.driving s'.acknowledgement ∧
      s'.router.closed = noticed s.router.closed (cause? (s, .drive x q)) := by
  obtain ⟨router, driving, joinable, events, stop, a, outbox⟩ := s
  cases driving with
  | idle | ended => cases h
  | failing e =>
    cases a <;> cases h
    · exact ⟨.told e .awaited, rfl⟩
    · exact ⟨.told e (.given _), rfl⟩
    · exact ⟨.told e .never, rfl⟩
  | ending cause =>
    cases a <;> cases h
    · exact ⟨.ended cause .awaited, rfl⟩
    · exact ⟨.ended cause (.given _), rfl⟩
    · exact ⟨.ended cause .never, rfl⟩
  | running =>
    cases stop with
    | true =>
      cases h
      exact ⟨.looked .stopped a, rfl⟩
    | false =>
      cases events with
      | nil => cases h
      | cons e rest =>
        cases e with
        | acknowledged code =>
          cases code with
          | success =>
            cases a <;> cases h
            · exact ⟨.looked .accepted .awaited, rfl⟩
            · exact ⟨.looked .accepted (.given _), rfl⟩
            · exact ⟨.looked .accepted .never, rfl⟩
          | _ =>
            cases h
            exact ⟨.looked (.saw (.acknowledged _)) a, rfl⟩
        | arrived p =>
          cases h
          exact ⟨.looked (.saw (.arrived p)) a, closed_route _ _ _ _⟩
        | dismissed | leftHub | other | failed =>
          cases h
          exact ⟨.looked (.saw _) a, rfl⟩

/-- Whatever else happens leaves the driver and the answer alone, unless it lets the driver begin. -/
theorem after_cases (h : s.after act = some s') :
    Turn (look? (s, act)) (cause? (s, act)) s.driving s.acknowledgement s'.driving s'.acknowledgement ∨
      look? (s, act) = none ∧ s'.acknowledgement = s.acknowledgement ∧
        (s'.driving = s.driving ∨ s.driving = .idle ∧ s'.driving = .running) := by
  cases act with
  | drive x q =>
    obtain ⟨⟨s₁, q'⟩, hdrive, rfl⟩ := Option.map_eq_some_iff.mp h
    exact .inl (drive_spec hdrive).1
  | start =>
    simp only [after, Option.ite_none_right_eq_some, Option.some.injEq] at h
    obtain ⟨hidle, rfl⟩ := h
    exact .inr ⟨rfl, rfl, .inr ⟨hidle, rfl⟩⟩
  | arrive | join | stop | leave | register | forget | put =>
    cases h
    exact .inr ⟨rfl, rfl, .inl rfl⟩

theorem closed_after (h : s.after act = some s') :
    s'.router.closed = noticed s.router.closed (cause? (s, act)) := by
  cases act with
  | drive x q =>
    obtain ⟨⟨s₁, q'⟩, hdrive, rfl⟩ := Option.map_eq_some_iff.mp h
    exact (drive_spec hdrive).2
  | start =>
    simp only [after, Option.ite_none_right_eq_some, Option.some.injEq] at h
    obtain ⟨-, rfl⟩ := h
    rfl
  | register id request =>
    cases h
    exact Router.closed_register _ _ _
  | arrive | join | stop | leave | forget | put =>
    cases h
    rfl

/-! ## The driver and the answer -/

/-- Nothing that was found ends the session. -/
def Quiet (ks : List Look) : Prop := ∀ k ∈ ks, k.cause? = none

/-- What is answered while nothing has ended the session. -/
def answered (ks : List Look) : Acknowledgement := if .accepted ∈ ks then .given (.ok ()) else .awaited

/-- Where a driver stands and what was answered, by what was found. -/
inductive Stage : List Look → Driving → Acknowledgement → Prop
  | idle : Stage [] .idle .awaited
  | running {ks : List Look} (quiet : Quiet ks) : Stage ks .running (answered ks)
  | failing {ks : List Look} {f : Failure} (quiet : Quiet ks) :
      Stage (ks ++ [.saw (.failed f)]) (.failing f.classify) (answered ks)
  | told {ks : List Look} {f : Failure} (quiet : Quiet ks) :
      Stage (ks ++ [.saw (.failed f)]) (.ending .closedLocally) ((answered ks).or (.given (.error f.classify)))
  | left {ks : List Look} {k : Look} {cause : CloseCause} (quiet : Quiet ks) (next : k.next = .ending cause) :
      Stage (ks ++ [k]) (.ending cause) (answered ks)
  /-- Ended after a failure. -/
  | failed {ks : List Look} {f : Failure} (quiet : Quiet ks) :
      Stage (ks ++ [.saw (.failed f)]) .ended (((answered ks).or (.given (.error f.classify))).or .never)
  | parted {ks : List Look} {k : Look} {cause : CloseCause} (quiet : Quiet ks) (next : k.next = .ending cause) :
      Stage (ks ++ [k]) .ended ((answered ks).or .never)

variable {ks : List Look} {k : Look} {k? : Option Look} {d d' : Driving} {a a' : Acknowledgement}

theorem Quiet.concat (h : Quiet ks) (hk : k.cause? = none) : Quiet (ks ++ [k]) := by
  intro k' hk'
  rcases List.mem_append.mp hk' with hk' | hk'
  · exact h k' hk'
  · rw [List.mem_singleton.mp hk', hk]

theorem answer_answered (ks : List Look) (k : Look) : k.answer (answered ks) = answered (ks ++ [k]) := by
  unfold Look.answer answered
  by_cases hks : Look.accepted ∈ ks
  · simp [hks, Acknowledgement.or]
  · by_cases hk : k = Look.accepted
    · simp [hks, hk, Acknowledgement.or]
    · simp [hks, hk, Ne.symm hk]

theorem ne_accepted_of_next {cause : CloseCause} (h : k.next = .ending cause) : k ≠ .accepted := by
  rintro rfl
  cases h

theorem accepted_mem_concat (h : k ≠ .accepted) : .accepted ∈ ks ++ [k] ↔ .accepted ∈ ks := by simp [h.symm]

theorem answered_concat (h : k ≠ .accepted) : answered (ks ++ [k]) = answered ks := by
  simp only [answered, accepted_mem_concat h]

theorem Stage.turn {c? : Option CloseCause} (h : Stage ks d a) (ht : Turn k? c? d a d' a') :
    Stage (ks ++ k?.toList) d' a' := by
  cases ht with
  | looked k =>
    cases h with
    | running quiet =>
      rw [answer_answered]
      rcases k.next_cases with ⟨hk, hn⟩ | ⟨f, rfl⟩ | ⟨cause, -, hn⟩
      · rw [hn]
        exact .running (quiet.concat hk)
      · rw [answered_concat (by simp [Look.accepted])]
        exact .failing quiet
      · rw [hn, answered_concat (ne_accepted_of_next hn)]
        exact .left quiet hn
  | told e =>
    cases h with
    | failing quiet => simpa using Stage.told quiet
  | ended cause =>
    cases h with
    | told quiet => simpa using Stage.failed quiet
    | left quiet next => simpa using Stage.parted quiet next

theorem Stage.started (h : Stage ks .idle a) : Stage ks .running a := by
  cases h
  have hquiet : Quiet [] := nofun
  exact .running hquiet

theorem stage_after (h : Stage ks s.driving s.acknowledgement) (he : s.after act = some s') :
    Stage (ks ++ (look? (s, act)).toList) s'.driving s'.acknowledgement := by
  rcases after_cases he with hturn | ⟨hlook, ha, hd | ⟨hidle, hrunning⟩⟩
  · exact h.turn hturn
  · rw [hlook, Option.toList_none, List.append_nil, ha, hd]
    exact h
  · rw [hidle] at h
    rw [hlook, Option.toList_none, List.append_nil, ha, hrunning]
    exact h.started

theorem stage_of_history (h : History after {} l s) : Stage (looks l) s.driving s.acknowledgement := by
  induction h with
  | refl => exact .idle
  | tail act _ he ih =>
    rw [looks_cons]
    exact stage_after ih he

/-- Only the last look can end the session. -/
theorem Stage.eq_nil (h : Stage ks d a) {before later : List Look} (hks : ks = before ++ k :: later)
    (hk : k.cause? ≠ none) : later = [] := by
  have hquiet : Quiet ks.dropLast := by
    cases h with
    | idle => simp [Quiet]
    | running quiet => exact fun k hk => quiet k (List.dropLast_subset _ hk)
    | failing quiet | told quiet | left quiet | failed quiet | parted quiet =>
      rw [List.dropLast_concat]
      exact quiet
  by_contra hne
  refine hk (hquiet k ?_)
  rw [hks, List.dropLast_append_of_ne_nil (by simp), List.dropLast_cons_of_ne_nil hne]
  simp

theorem answered_of_mem (h : .accepted ∈ ks) : answered ks = .given (.ok ()) := if_pos h

theorem answered_of_not_mem (h : .accepted ∉ ks) : answered ks = .awaited := if_neg h

/-- An acknowledged connection is the answer. -/
theorem Stage.of_accepted (h : Stage ks d a) (hk : .accepted ∈ ks) : a = .given (.ok ()) := by
  cases h with
  | idle => cases hk
  | running => exact answered_of_mem hk
  | failing | told | failed =>
    rw [accepted_mem_concat (by simp [Look.accepted])] at hk
    simp only [answered_of_mem hk, Acknowledgement.or]
  | left _ next | parted _ next =>
    rw [accepted_mem_concat (ne_accepted_of_next next)] at hk
    simp only [answered_of_mem hk, Acknowledgement.or]

/-- Without it only a failure is. -/
theorem Stage.of_not_accepted (h : Stage ks d a) (hk : .accepted ∉ ks) :
    a = .awaited ∨ a = .never ∨ ∃ f, .saw (.failed f) ∈ ks ∧ a = .given (.error f.classify) := by
  cases h with
  | idle => exact .inl rfl
  | running => exact .inl (answered_of_not_mem hk)
  | @failing ks f | @told ks f | @failed ks f =>
    rw [accepted_mem_concat (by simp [Look.accepted])] at hk
    rw [answered_of_not_mem hk]
    first
      | exact .inl rfl
      | exact .inr (.inr ⟨f, by simp, rfl⟩)
  | left _ next | parted _ next =>
    rw [accepted_mem_concat (ne_accepted_of_next next)] at hk
    rw [answered_of_not_mem hk]
    first
      | exact .inl rfl
      | exact .inr (.inl rfl)

/-! ## The notification -/

/-- A cause that comes up is noticed. -/
theorem value_noticed (n : ClosedNotice) (c? : Option CloseCause) : (noticed n c?).value = n.value.or c? := by
  cases c? with
  | none => simp [noticed]
  | some cause =>
    unfold noticed ClosedNotice.notify
    dsimp only
    split <;> simp_all [Watched.set]

/-- The notification is given once, with the first cause that came up. -/
theorem closed_of_history (h : History after {} l s) :
    s.router.closed.value = (causes l).head? ∧ s.router.closed.version = min 1 (causes l).length := by
  induction h with
  | refl => exact ⟨rfl, rfl⟩
  | @tail l s s' act _ he ih =>
    obtain ⟨hvalue, hversion⟩ := ih
    rw [closed_after he, causes_cons]
    refine ⟨?_, ?_⟩
    · rw [value_noticed, hvalue, List.head?_append]
      cases cause? (s, act) <;> rfl
    · cases cause? (s, act) with
      | none => simpa [noticed] using hversion
      | some cause =>
        cases hl : causes l with
        | nil =>
          rw [hl] at hvalue hversion
          simp [noticed, ClosedNotice.notify, hvalue, hversion, Watched.set]
        | cons first rest =>
          rw [hl] at hvalue hversion
          simp [noticed, ClosedNotice.notify, hvalue, hversion]

theorem isClosed_iff {r : Router} : r.isClosed = true ↔ ∃ cause, r.closed.value = some cause := by
  rw [Router.isClosed, ClosedNotice.isGiven, Option.isSome_iff_exists]

/-- Once it is given, the notification stays as it is. -/
theorem closed_eq_of_isClosed (h : s.after act = some s') (hc : s.router.isClosed = true) :
    s'.router.closed = s.router.closed := by
  obtain ⟨cause, hvalue⟩ := isClosed_iff.mp hc
  rw [closed_after h]
  cases cause? (s, act) with
  | none => rfl
  | some _ => simp [noticed, ClosedNotice.notify, hvalue]

theorem isClosed_mono (h : s.after act = some s') (hc : s.router.isClosed = true) : s'.router.isClosed = true := by
  rw [Router.isClosed, closed_eq_of_isClosed h hc]
  exact hc

theorem isClosed_of_cause (h : s.after act = some s') {cause : CloseCause} (hc : cause? (s, act) = some cause) :
    s'.router.isClosed = true := by
  rw [isClosed_iff, closed_after h, value_noticed, hc]
  cases s.router.closed.value <;> exact ⟨_, rfl⟩

theorem running_of_look (h : look? (s, act) = some k) : s.driving = .running ∧ ∃ x q, act = .drive x q := by
  cases act with
  | drive x q =>
    refine ⟨?_, x, q, rfl⟩
    rw [look?] at h
    split at h
    · assumption
    · cases h
  | _ => cases h

/-- A connection that was found to have failed has ended the session. -/
theorem isClosed_of_failed (h : History after {} l s) {f : Failure} (hf : .saw (.failed f) ∈ looks l) :
    s.router.isClosed = true := by
  obtain ⟨⟨s₁, act⟩, hy, hlook⟩ := List.mem_filterMap.mp hf
  obtain ⟨_, newer, s₂, -, hact, hnewer⟩ := h.of_mem (List.mem_reverse.mp hy)
  obtain ⟨hrunning, x, q, rfl⟩ := running_of_look hlook
  have hcause : cause? (s₁, .drive x q) = some (.remote f.classify.message) := by
    dsimp only [cause?]
    rw [hrunning, hlook]
    rfl
  exact hnewer.keeps (P := fun s => s.router.isClosed = true) (isClosed_of_cause hact hcause) isClosed_mono

theorem Turn.cause_of_ended {c? : Option CloseCause} (h : Turn k? c? d a d' a') (hd : d' = .ended) :
    ∃ cause, c? = some cause := by
  cases h with
  | looked k =>
    rcases k.next_cases with ⟨-, hn⟩ | ⟨f, rfl⟩ | ⟨_, -, hn⟩
    · rw [hn] at hd
      cases hd
    · cases hd
    · rw [hn] at hd
      cases hd
  | told => cases hd
  | ended cause => exact ⟨cause, rfl⟩

/-- A driver that has ended has ended the session. -/
theorem isClosed_of_ended (h : History after {} l s) (hd : s.driving = .ended) : s.router.isClosed = true := by
  refine h.keeps (P := fun s => s.driving = .ended → s.router.isClosed = true) nofun ?_ hd
  intro s s' act he ih hd
  rcases after_cases he with hturn | ⟨-, -, hsame | ⟨-, hrunning⟩⟩
  · obtain ⟨cause, hc⟩ := hturn.cause_of_ended hd
    exact isClosed_of_cause he hc
  · exact isClosed_mono he (ih (hsame ▸ hd))
  · rw [hrunning] at hd
    cases hd

/-- A cause that comes up in a step of the driver is that of the look which ends the session, unless it has ended by
then. -/
theorem Turn.cause {c? : Option CloseCause} {cause : CloseCause} (h : Turn k? c? d a d' a') (hstage : Stage ks d a)
    (hc : c? = some cause) :
    (∃ f, .saw (.failed f) ∈ ks) ∨ ∃ k ∈ ks ++ k?.toList, k.cause? = some cause := by
  cases h with
  | looked k => exact .inr ⟨k, by simp, k.cause?_of_early hc⟩
  | told => cases hc
  | ended =>
    cases hc
    cases hstage with
    | told => exact .inl ⟨_, List.mem_append_right _ List.mem_cons_self⟩
    | left _ next => exact .inr ⟨_, by simp, Look.cause?_eq_some next⟩

/-- A close from this side that finds the session open is why it has ended. -/
theorem value_of_leave (h : History after {} l s) {y : Session × Act} (hy : y ∈ l) (hleave : y.2 = .leave)
    (hopen : y.1.router.isClosed = false) : s.router.closed.value = some .closedLocally := by
  obtain ⟨_, newer, s₁, -, hact, hnewer⟩ := h.of_mem hy
  have hgiven : y.1.router.closed.value = none := by simpa [Router.isClosed, ClosedNotice.isGiven] using hopen
  refine hnewer.keeps (P := fun s => s.router.closed.value = some .closedLocally) ?_ ?_
  · rw [closed_after hact, value_noticed, hgiven, hleave]
    rfl
  · intro s s' act he hs
    rw [closed_eq_of_isClosed he (isClosed_iff.mpr ⟨_, hs⟩), hs]

/-- The session has ended because a close from this side found it open, or because of a look that ends it. -/
theorem blame (h : History after {} l s) {cause : CloseCause} (hvalue : s.router.closed.value = some cause) :
    (∃ y ∈ l, y.2 = .leave ∧ y.1.router.isClosed = false) ∨ ∃ k ∈ looks l, k.cause? = some cause := by
  induction h with
  | refl => cases hvalue
  | @tail l s s' act hhist he ih =>
    cases hgiven : s.router.closed.value with
    | some first =>
      have hsame := closed_eq_of_isClosed he (isClosed_iff.mpr ⟨first, hgiven⟩)
      rw [hsame] at hvalue
      rcases ih hvalue with ⟨y, hy, hleave⟩ | ⟨k, hk, hcause⟩
      · exact .inl ⟨y, List.mem_cons_of_mem _ hy, hleave⟩
      · refine .inr ⟨k, ?_, hcause⟩
        rw [looks_cons]
        exact List.mem_append_left _ hk
    | none =>
      rw [closed_after he, value_noticed, hgiven, Option.none_or] at hvalue
      cases act with
      | leave => exact .inl ⟨_, List.mem_cons_self, rfl, by simp [Router.isClosed, ClosedNotice.isGiven, hgiven]⟩
      | drive x q =>
        obtain ⟨⟨s₁, q'⟩, hdrive, rfl⟩ := Option.map_eq_some_iff.mp he
        rw [looks_cons]
        rcases (drive_spec hdrive).1.cause (stage_of_history hhist) hvalue with ⟨f, hf⟩ | hlook
        · obtain ⟨_, hclosed⟩ := isClosed_iff.mp (isClosed_of_failed hhist hf)
          rw [hgiven] at hclosed
          cases hclosed
        · exact .inr hlook
      | arrive | start | join | stop | register | forget | put => cases hvalue

/-! ## What whoever opened the session hears -/

theorem Turn.answer_eq {c? : Option CloseCause} (h : Turn k? c? d a d' a') (ha : a ≠ .awaited) : a' = a := by
  cases h with
  | looked k =>
    unfold Look.answer
    split
    · exact Acknowledgement.or_of_ne ha _
    · rfl
  | told | ended => exact Acknowledgement.or_of_ne ha _

/-- An answer stands. -/
theorem acknowledgement_after (h : s.after act = some s') (ha : s.acknowledgement ≠ .awaited) :
    s'.acknowledgement = s.acknowledgement := by
  rcases after_cases h with hturn | ⟨-, hsame, -⟩
  · exact hturn.answer_eq ha
  · exact hsame

theorem Turn.failing_of_error {c? : Option CloseCause} {e : TransportError} (h : Turn k? c? d .awaited d' a')
    (ha : a' = .given (.error e)) : d = .failing e := by
  cases h with
  | looked k =>
    unfold Look.answer at ha
    split at ha <;> cases ha
  | told =>
    cases ha
    rfl
  | ended => cases ha

theorem Stage.exists_failed {e : TransportError} (h : Stage ks (.failing e) a) : ∃ f, .saw (.failed f) ∈ ks := by
  cases h
  exact ⟨_, List.mem_append_right _ List.mem_cons_self⟩

/-- An error is heard of when the session has ended. -/
theorem isClosed_of_told (hhist : History after {} l s) (h : s.after act = some s')
    (ha : s.acknowledgement = .awaited) {e : TransportError} (he : s'.acknowledgement = .given (.error e)) :
    s.router.isClosed = true := by
  rcases after_cases h with hturn | ⟨-, hsame, -⟩
  · rw [ha] at hturn
    have hstage := stage_of_history hhist
    rw [hturn.failing_of_error he] at hstage
    obtain ⟨f, hf⟩ := hstage.exists_failed
    exact isClosed_of_failed hhist hf
  · rw [hsame, ha] at he
    cases he

/-- A driver hands nothing over unless it looks at what arrived. -/
theorem routed_of_look {x : Identity} {q : Queues} (h : look? (s, .drive x q) = none) (y : Identity) :
    s.routed y = .ignored := by
  unfold routed
  split
  · rename_i hdriving hstop hevents
    rw [look?, if_pos hdriving, hstop, hevents] at h
    cases h
  · rfl

/-- In every run of a session: what whoever opened it hears stays as it is; it is a success just when an acknowledged
connection was looked at, and an error only when the connection was found to have failed without one, and then the
session has ended before. The notification that it has ended is given at most once, with the first cause that comes up,
and it is given when the driver has ended; the cause is local when a close from this side found the session open, and
else that of the look that ended the loop of the driver. After this look the driver looks at nothing and hands nothing
over. -/
theorem driven (h : History after {} l s) :
    (∀ y ∈ l, y.1.acknowledgement ≠ .awaited → s.acknowledgement = y.1.acknowledgement) ∧
    (s.acknowledgement = .given (.ok ()) ↔ .accepted ∈ looks l) ∧
    (∀ e, s.acknowledgement = .given (.error e) →
      .accepted ∉ looks l ∧ ∃ f, .saw (.failed f) ∈ looks l ∧ e = f.classify) ∧
    (∀ y ∈ l, ∀ s' e, y.1.after y.2 = some s' → y.1.acknowledgement = .awaited →
      s'.acknowledgement = .given (.error e) → y.1.router.isClosed = true) ∧
    (∀ y ∈ l, y.1.router.isClosed = true → s.router.closed = y.1.router.closed) ∧
    (s.router.closed.value = (causes l).head? ∧ s.router.closed.version = min 1 (causes l).length) ∧
    (∀ y ∈ l, y.2 = .leave → y.1.router.isClosed = false → s.router.closed.value = some .closedLocally) ∧
    (∀ cause, s.router.closed.value = some cause →
      (∃ y ∈ l, y.2 = .leave ∧ y.1.router.isClosed = false) ∨ ∃ k ∈ looks l, k.cause? = some cause) ∧
    (s.driving = .ended → s.router.isClosed = true) ∧
    ∀ newer y older k, l = newer ++ y :: older → look? y = some k → k.cause? ≠ none →
      ∀ z ∈ newer, look? z = none ∧ ∀ x q, z.2 = .drive x q → z.1.routed x = .ignored := by
  have hstage := stage_of_history h
  refine ⟨?_, ⟨fun ha => ?_, hstage.of_accepted⟩, fun e ha => ?_, ?_, ?_, closed_of_history h,
    fun y hy => value_of_leave h hy, fun _ => blame h, isClosed_of_ended h, ?_⟩
  · intro y hy ha
    obtain ⟨_, newer, s₁, -, hact, hnewer⟩ := h.of_mem hy
    refine hnewer.keeps (P := fun s => s.acknowledgement = y.1.acknowledgement) (acknowledgement_after hact ha) ?_
    intro s s' act he hs
    rw [acknowledgement_after he (hs ▸ ha), hs]
  · by_contra hk
    rcases hstage.of_not_accepted hk with hn | hn | ⟨f, -, hn⟩ <;> rw [ha] at hn <;> cases hn
  · have hk : .accepted ∉ looks l := fun hk => by
      have hok := hstage.of_accepted hk
      rw [ha] at hok
      cases hok
    refine ⟨hk, ?_⟩
    rcases hstage.of_not_accepted hk with hn | hn | ⟨f, hf, hn⟩ <;> rw [ha] at hn <;> cases hn
    exact ⟨f, hf, rfl⟩
  · intro y hy s' e hact ha he
    obtain ⟨_, _, _, holder, -, -⟩ := h.of_mem hy
    exact isClosed_of_told holder hact ha he
  · intro y hy hc
    obtain ⟨_, newer, s₁, -, hact, hnewer⟩ := h.of_mem hy
    refine hnewer.keeps (P := fun s => s.router.closed = y.1.router.closed) (closed_eq_of_isClosed hact hc) ?_
    intro s s' act he hs
    rw [closed_eq_of_isClosed he (by rw [Router.isClosed, hs]; exact hc), hs]
  · rintro newer y older k rfl hlook hk z hz
    have hsplit : looks (newer ++ y :: older) = looks older ++ k :: looks newer := by
      simp [looks, hlook]
    have hnil := hstage.eq_nil hsplit hk
    have hnone : look? z = none := by
      cases hz' : look? z with
      | none => rfl
      | some k' =>
        have hmem : k' ∈ looks newer := List.mem_filterMap.mpr ⟨z, List.mem_reverse.mpr hz, hz'⟩
        rw [hnil] at hmem
        cases hmem
    refine ⟨hnone, fun x q hdrive => ?_⟩
    obtain ⟨s₁, act⟩ := z
    cases hdrive
    exact routed_of_look hnone x

/-- Steps of the driver of a device without modules. -/
def drives : Act := .drive ⟨"dev-1", none⟩ ⟨{ capacity := 1 }, { capacity := 1 }⟩

/-- The connection fails before it is acknowledged, and the session is closed before whoever opened it hears of that. -/
theorem driven_unacknowledged : ∃ l s, History after {} l s ∧
    s.acknowledgement = .given (.error (.timeout "Network timeout")) ∧
    (∃ f, .saw (.failed f) ∈ looks l ∧ .timeout "Network timeout" = f.classify) ∧
    causes l = [.remote (Failure.classify .networkTimeout).message, .closedLocally, .closedLocally] ∧
    s.router.closed.value = (causes l).head? ∧ s.router.isClosed = true := by
  obtain ⟨l, s, hrun, ha, hcauses, hended⟩ : ∃ l s, replay after {} [.start, .arrive (.failed .networkTimeout), drives,
      .leave, drives, drives] = some (l, s) ∧
      s.acknowledgement = .given (.error (.timeout "Network timeout")) ∧
      causes l = [.remote (Failure.classify .networkTimeout).message, .closedLocally, .closedLocally] ∧
      s.driving = .ended :=
    ⟨_, _, rfl, rfl, rfl, rfl⟩
  have hrun := History.of_replay hrun
  obtain ⟨-, -, herror, -, -, hclosed, -, -, hover, -⟩ := driven hrun
  exact ⟨l, s, hrun, ha, (herror _ ha).2, hcauses, hclosed.1, hover hended⟩

end Session

/-! ## The sessions of a station -/

/-- Each session has taken one act at most, or is new. -/
def Station.Acts (st st' : Station) : Prop :=
  ∀ i s', st'.session? i = some s' →
    s' = {} ∨ ∃ s, st.session? i = some s ∧ (s' = s ∨ ∃ act, s.after act = some s')

variable {st st' : Station} {i : Nat} {s s' : Session}

theorem Station.Acts.of_eq (h : st'.sessions = st.sessions) : st.Acts st' := by
  intro i s hs
  rw [session?, h] at hs
  exact .inr ⟨s, hs, .inl rfl⟩

theorem Station.Acts.of_set (act : Session.Act) (hs : st.session? i = some s) (hact : s.after act = some s')
    (h : st'.sessions = st.sessions.set i s') : st.Acts st' := by
  intro j s₁ hs₁
  rw [session?, h, List.getElem?_set] at hs₁
  split at hs₁
  · rename_i hij
    rw [if_pos (hij ▸ (List.getElem?_eq_some_iff.mp hs).1)] at hs₁
    cases hs₁
    exact .inr ⟨s, hij ▸ hs, .inr ⟨act, hact⟩⟩
  · exact .inr ⟨s₁, hs₁, .inl rfl⟩

theorem Station.Acts.of_concat (h : st'.sessions = st.sessions ++ [({} : Session)]) : st.Acts st' := by
  intro i s hs
  rw [session?, h, List.getElem?_append] at hs
  split at hs
  · exact .inr ⟨s, hs, .inl rfl⟩
  · exact .inl (List.mem_singleton.mp (List.mem_of_getElem? hs))

theorem Session.Touched.exists_act (h : s.Touched s') : ∃ act, s.after act = some s' := by
  cases h with
  | opened hidle => exact ⟨.start, if_pos hidle⟩
  | joined => exact ⟨.join, rfl⟩
  | stopped => exact ⟨.stop, rfl⟩
  | left => exact ⟨.leave, rfl⟩
  | filled o => exact ⟨.put o, rfl⟩
  | registered id request => exact ⟨.register id request, rfl⟩
  | forgot id => exact ⟨.forget id, rfl⟩

/-- What a call on a session does to it is an act. -/
theorem Phase.acts_step {cancelled : Bool} {n : Nat} {ph ph' : Phase} (hs : st.session? i = some s)
    (h : ph.step cancelled n i st s = some (st', ph')) : st.Acts st' := by
  cases turn_of_step h with
  | stood | took => exact .of_eq rfl
  | touched _ ht =>
    obtain ⟨act, hact⟩ := ht.exists_act
    exact .of_set act hs hact rfl

end HubDevice.Mqtt

namespace HubDevice.Reception

open Mqtt

variable {r r' : Reception} {e : Happening}

/-- Whatever happens where requests and messages are received does to each session one act at most. -/
theorem acts_after (h : r.after e = some r') : r.station.Acts r'.station := by
  cases e with
  | create fs token =>
    rcases create_eq_some h with rfl | rfl
    · exact .of_eq rfl
    · exact .of_concat rfl
  | arrive i e =>
    obtain ⟨s, hs, rfl⟩ := Option.map_eq_some_iff.mp h
    exact .of_set (.arrive e) hs rfl rfl
  | drive i =>
    obtain ⟨st, hst, rfl⟩ := Option.map_eq_some_iff.mp h
    obtain ⟨s, s', q, hs, hdrive, rfl⟩ := Station.drive_eq_some hst
    exact .of_set (.drive _ _) hs (congrArg (Option.map Prod.fst) hdrive) rfl
  | release i =>
    cases h
    unfold Station.drop
    cases hs : r.station.session? i with
    | none => exact .of_eq rfl
    | some s => exact .of_set .stop hs rfl rfl
  | step n =>
    obtain ⟨c, s, st, ph, -, hs, hph, rfl⟩ := stepCall_eq_some h
    show r.shared.Acts st
    exact Phase.acts_step hs hph
  | abandon n =>
    obtain ⟨turn, calls, rfl⟩ := abandon_eq_some h
    exact .of_eq rfl
  | device x =>
    rw [(moves_device h).2]
    exact .of_eq rfl
  | call | cancel | pass | hangUp | leave =>
    cases h
    exact .of_eq rfl

/-- Every session of a station that began without any has a run of its own. -/
theorem exists_history {st : Station} {d : Device} {l : List (Reception × Happening)} {i : Nat} {s : Session}
    (hst : st.sessions = []) (h : History after (start st d) l r) (hs : r.station.session? i = some s) :
    ∃ l', History Session.after {} l' s := by
  induction h generalizing s with
  | refl =>
    rw [Station.session?, start, hst] at hs
    cases hs
  | tail e _ he ih =>
    rcases acts_after he i s hs with rfl | ⟨s₁, hs₁, rfl | ⟨act, hact⟩⟩
    · exact ⟨[], .refl⟩
    · exact ih hs₁
    · obtain ⟨l', hl'⟩ := ih hs₁
      exact ⟨_, hl'.tail act hact⟩

end HubDevice.Reception
