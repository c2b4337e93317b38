import HubDevice.Proofs.Kernel.Announcement
import HubDevice.Proofs.Kernel.Path

/-!
# One attempt at a time

Open calls share attempts. At most one party makes an attempt at any time, so that at most one session is
being brought (`lone_of_reachable`). The history of a run holds the outcomes of all attempts, which the
number of attempts and the last outcome agree with (`outcomes_of_path`), and of a call that waits for the gate
the history holds the place where it read the number of attempts (`Since`). From this `single_flight` tells
which outcome a call returns.
-/

namespace HubDevice.Kernel

open FairLock Retry Wire

variable {p : Party} {k k' : Kernel} {e : Happening} {i j : Nat} {l : List (Kernel × Happening)}
  {interval : Option Span} {policy : Policy}

/-! ## Attempts -/

/-- A party that makes an attempt to bring the connection up. -/
def Attempts (k : Kernel) : Party → Prop
  | .task i => ∃ token run, k.tasks[i]? = some ⟨token, .opening (.working run)⟩
  | .watcher i => ∃ w run, k.watchers[i]? = some w ∧ w.phase = .recovering run

theorem Attempts.inside (h : k.Attempts p) : k.stance p = .inside := by
  cases p with
  | task i =>
    obtain ⟨token, run, ht⟩ := h
    rw [stance_of_tasks ht]
    rfl
  | watcher i =>
    obtain ⟨w, run, hw, hp⟩ := h
    rw [stance_of_watchers hw, hp]
    rfl

/-- At most one call is unsettled that brings a session. -/
def Lone (w : Wire) : Prop :=
  ∀ c ∈ w.calls, ∀ c' ∈ w.calls, c.request.Raising → c'.request.Raising → c.id = c'.id

theorem not_routine_of_raising {r : HubDevice.Request} (h : r.Raising) : ¬ r.Routine := by
  cases r <;> first | exact h.elim | exact id

theorem lone_of_owned {w : Wire} {ids : List CallId} (h : w.Owned ids) (hl : ids.length ≤ 1) : Lone w := by
  intro c hc c' hc' hr hr'
  have hm := h c hc (not_routine_of_raising hr)
  have hm' := h c' hc' (not_routine_of_raising hr')
  match ids, hl with
  | [], _ => cases hm
  | [id], _ => rw [List.mem_singleton.mp hm, List.mem_singleton.mp hm']

theorem Recovery.Serving.subscribes {w : Wire} {s : SessionId} {cs : List Channel}
    {ps : List (Option Subscribing)} {es : List Event} (h : Recovery.Serving w s cs ps es) :
    ∀ id ∈ Recovery.waitingIds ps, ∃ c evs, w.Recorded id (.subscribe s c) evs := by
  induction h with
  | nil => simp [Recovery.waitingIds]
  | due _ ih | served _ _ _ ih => exact ih
  | asked hr _ ih =>
    intro id hm
    rcases List.mem_cons.mp hm with rfl | hm
    · exact ⟨_, _, hr⟩
    · exact ih id hm

theorem lone_of_traced {fs : Features} {h : Handler} {a : Recovery} (ha : a.Traced fs h) :
    Lone h.wire := by
  cases a with
  | opening o =>
    cases o with
    | start => exact lone_of_owned ha (by simp)
    | discarding => exact lone_of_owned ha (by simp)
    | creating | connecting => exact lone_of_owned ha.1 (by simp)
  | replaying ps =>
    obtain ⟨s, -, ho, -, _, _, _, _, _, _, _, hserv, -⟩ := ha
    -- Whatever is unsettled subscribes on the new session.
    intro c hc _ _ hr
    obtain ⟨ch, evs, hrec⟩ := hserv.subscribes c.id (ho c hc (not_routine_of_raising hr))
    rw [hrec.request hc rfl] at hr
    exact hr.elim

theorem lone_of_tracing {fs : Features} {run : Run Recovery} (h : k.Tracing fs run) :
    Lone k.handler.wire := by
  unfold Tracing Run.Holds at h
  split at h
  · exact lone_of_traced h.2
  · exact lone_of_owned h.owned (by simp)

theorem lone_of_reachable (h : k.Reachable) : Lone k.handler.wire := by
  have quiet : k.Quiet → Lone k.handler.wire := fun hq => lone_of_owned hq.owned (by simp)
  refine recordRegime_kept.always h quiet (fun {_ _ ph} _ _ hk => ?_) (fun {_ _ ph} _ _ hk => ?_)
    (fun {_ _ _ _ _ _ g} _ _ hk => ?_) (fun {_ w} _ _ hk => ?_)
  · have hk : ph.OnRecord k := hk
    cases ph with
    | working run => exact lone_of_tracing hk
    | raiseLink | startWatcher | reportUp => exact quiet hk.1
    | _ => exact quiet hk
  · have hk : ph.OnRecord k := hk
    cases ph with
    | releasing c =>
      cases c with
      | start => exact quiet hk
      | closing id => exact lone_of_owned (Awaiting.owned hk) (by simp)
    | _ => exact quiet hk
  · cases g with
    | start => exact quiet hk
    | waiting id => exact lone_of_owned (Awaiting.owned hk) (by simp)
  · revert hk
    generalize w.phase = ph
    intro (hk : ph.OnRecord k)
    cases ph with
    | recovering run => exact lone_of_tracing hk
    | raiseLink | startWatcher | reportUp => exact quiet hk.1
    | _ => exact quiet hk

/-! ## Outcomes -/

/-- The outcome of the attempt that is completed in a step of a run. -/
def completed? (x : Kernel × Happening) : Option (Except ClientError Unit) :=
  match x.2 with
  | .stepTask i => match x.1.tasks[i]? with
    | some ⟨_, .opening (.conclude outcome)⟩ => some outcome
    | _ => none
  | _ => none

/-- The outcomes of the attempts to open that were completed; the newest comes first. -/
def outcomes (l : List (Kernel × Happening)) : List (Except ClientError Unit) := l.filterMap completed?

theorem completed?_eq_some {x : Kernel × Happening} {outcome : Except ClientError Unit} :
    completed? x = some outcome ↔
      ∃ i token, x.2 = .stepTask i ∧ x.1.tasks[i]? = some ⟨token, .opening (.conclude outcome)⟩ := by
  unfold completed?
  constructor
  · intro h
    split at h
    · rename_i i hx
      split at h
      · rename_i token o ht
        cases h
        exact ⟨i, token, hx, ht⟩
      · cases h
    · cases h
  · rintro ⟨i, token, hx, ht⟩
    simp [hx, ht]

theorem outcomes_cons_of_none {x : Kernel × Happening} (h : completed? x = none) :
    outcomes (x :: l) = outcomes l := List.filterMap_cons_none h

theorem outcomes_cons_of_some {x : Kernel × Happening} {outcome : Except ClientError Unit}
    (h : completed? x = some outcome) : outcomes (x :: l) = outcome :: outcomes l :=
  List.filterMap_cons_some h

/-- The number of attempts and the last outcome agree with the history. -/
theorem outcomes_of_path (hp : Path (initial interval policy) l k) :
    k.epoch = (outcomes l).length ∧ k.lastOpen = (outcomes l).head? := by
  induction hp with
  | refl => exact ⟨rfl, rfl⟩
  | @tail l k k' e hp he ih =>
    have hord := orderly_of_reachable (hp.reachable (reachable_initial interval policy))
    cases hc : completed? (k, e) with
    | some outcome =>
      obtain ⟨i, token, rfl, ht⟩ := completed?_eq_some.mp hc
      obtain ⟨o, k₁, t, ht', hs, rfl⟩ := stepTask_eq_some he
      rw [ht] at ht'
      cases ht'
      cases hs
      rw [outcomes_cons_of_some hc, List.length_cons, ← ih.1]
      exact ⟨rfl, rfl⟩
    | none =>
      rw [outcomes_cons_of_none hc]
      rcases notes_after hord he with hn | ⟨i, rfl, hn⟩
      · rw [hn.epoch, hn.lastOpen]
        exact ih
      · cases hn with
        | disposed | raised => exact ih
        | concluded ht =>
          rw [completed?_eq_some.mpr ⟨i, _, rfl, ht⟩] at hc
          cases hc

/-- An attempt that is completed with success leaves the link up. -/
theorem connected_of_completed {x : Kernel × Happening} (h : x.1.Reachable) {v : Unit}
    (hc : completed? x = some (.ok v)) : x.1.link = .connected := by
  obtain ⟨i, token, -, ht⟩ := completed?_eq_some.mp hc
  have hk : (OpenPhase.conclude (.ok v)).OnLink x.1 := linkRegime_kept.opening_of_inside h ht rfl
  exact hk.2

/-! ## Calls that wait -/

/-- The number of attempts that an open call has read. -/
def OpenPhase.epoch? : OpenPhase → Option Nat
  | .askGate epoch | .awaitGate epoch | .recheckDisposed epoch | .consider epoch => some epoch
  | _ => none

/-- The open call with a number reads the number of attempts. -/
def ReadsEpoch (x : Kernel × Happening) (i : Nat) : Prop :=
  x.2 = .stepTask i ∧ ∃ token, x.1.tasks[i]? = some ⟨token, .opening .readEpoch⟩

/-- What has happened `since` an open call read the number of attempts. -/
structure Since (l : List (Kernel × Happening)) (i epoch : Nat) (since : List (Kernel × Happening)) :
    Prop where
  reads : ∃ x before, l = since ++ x :: before ∧ ReadsEpoch x i ∧ x.1.epoch = epoch
  waits : ∀ y ∈ since, ∃ token ph, y.1.tasks[i]? = some ⟨token, .opening ph⟩ ∧ ph.epoch? = some epoch

theorem Since.cons {epoch token : Nat} {ph : OpenPhase} {since : List (Kernel × Happening)}
    (h : Since l i epoch since) (ht : k.tasks[i]? = some ⟨token, .opening ph⟩)
    (he : ph.epoch? = some epoch) : Since ((k, e) :: l) i epoch ((k, e) :: since) := by
  obtain ⟨⟨x, before, rfl, hx⟩, hw⟩ := h
  refine ⟨⟨x, before, rfl, hx⟩, fun y hy => ?_⟩
  rcases List.mem_cons.mp hy with rfl | hy
  · exact ⟨token, ph, ht, he⟩
  · exact hw y hy

theorem OpenPhase.epoch?_step {token : Nat} {ph ph' : OpenPhase} {epoch : Nat}
    (h : ph.step token p k = some (k', .more ph')) (he : ph'.epoch? = some epoch) :
    ph.epoch? = some epoch ∨ ph = .readEpoch ∧ k.epoch = epoch := by
  cases turn_of_step h with
  | read =>
    cases he
    exact .inr ⟨rfl, rfl⟩
  | asked | entered | admittedInside => exact .inl he
  | @worked _ _ q =>
    revert he
    unfold afterTurn
    split <;> exact fun he => by cases he
  | _ => cases he

theorem since_of_path (hp : Path (initial interval policy) l k) {token epoch : Nat} {ph : OpenPhase}
    (ht : k.tasks[i]? = some ⟨token, .opening ph⟩) (he : ph.epoch? = some epoch) :
    ∃ since, Since l i epoch since := by
  induction hp generalizing ph with
  | refl => cases ht
  | @tail l k k' e hp hk ih =>
    have hord := orderly_of_reachable (hp.reachable (reachable_initial interval policy))
    rcases tasks_after hord hk i with hs | ⟨-, _, _, hn⟩ | ⟨⟨token', t₀⟩, k₁, t, rfl, ht₀, hs, rfl, hn⟩
    · rw [hs] at ht
      obtain ⟨since, h⟩ := ih ht he
      exact ⟨_, h.cons ht he⟩
    · rw [hn] at ht
      cases ht
    · rw [hn] at ht
      cases ht
      rcases Task.opening_of_step hs with ⟨-, rfl⟩ | ⟨ph₀, rfl, hp₀⟩
      · cases he
      · rcases OpenPhase.epoch?_step hp₀ he with he | ⟨rfl, rfl⟩
        · obtain ⟨since, h⟩ := ih ht₀ he
          exact ⟨_, h.cons ht₀ he⟩
        · exact ⟨[], ⟨(k, .stepTask i), l, rfl, ⟨rfl, _, ht₀⟩, rfl⟩, by simp⟩

/-- The kernel's account of the attempts that were completed since an open call read their number. -/
theorem Since.outcomes_eq {epoch : Nat} {since : List (Kernel × Happening)} (h : Since l i epoch since)
    (hp : Path (initial interval policy) l k) :
    k.epoch = (outcomes since).length + epoch ∧
      k.lastOpen = ((outcomes since).head?).or ((outcomes (l.drop since.length)).head?) := by
  obtain ⟨⟨x, before, rfl, ⟨hx, token, ht⟩, rfl⟩, -⟩ := h
  have hnone : completed? x = none := by
    cases hc : completed? x with
    | none => rfl
    | some outcome =>
      obtain ⟨i', token', hx', ht'⟩ := completed?_eq_some.mp hc
      rw [hx] at hx'
      cases hx'
      rw [ht] at ht'
      cases ht'
  obtain ⟨he, hl⟩ := outcomes_of_path hp
  have hsplit : outcomes (since ++ x :: before) = outcomes since ++ outcomes (x :: before) :=
    List.filterMap_append
  rw [hsplit] at he hl
  refine ⟨?_, ?_⟩
  · rw [he, List.length_append, outcomes_cons_of_none hnone, (outcomes_of_path hp.cut.1).1]
  · rw [hl, List.head?_append, List.drop_left]

/-- The outcome that is shared with an open call is the last one since it read the number of attempts. -/
theorem Since.sharedOutcome_eq_some {epoch : Nat} {since : List (Kernel × Happening)}
    (h : Since l i epoch since) (hp : Path (initial interval policy) l k) {r : Except ClientError Unit} :
    k.sharedOutcome epoch = some r ↔ (outcomes since).head? = some r ∧ r ≠ .error .cancelled := by
  obtain ⟨he, hl⟩ := h.outcomes_eq hp
  unfold sharedOutcome
  cases ho : outcomes since with
  | nil =>
    rw [ho] at he
    simp [he]
  | cons outcome rest =>
    rw [ho, List.head?_cons, Option.some_or] at hl
    rw [ho, List.length_cons] at he
    rw [if_neg (by omega), hl, List.head?_cons]
    constructor
    · intro hs
      split at hs
      · cases hs
      · rename_i hne
        cases hs
        exact ⟨rfl, fun hr => hne (by rw [hr])⟩
    · rintro ⟨hr, hne⟩
      cases hr
      split
      · rename_i hc
        exact absurd (Option.some.inj hc) hne
      · rfl

/-! ## The outcome of a call -/

/-- An open call that returns with success was on its way while the link was up. -/
theorem InOpen.connected {x : Kernel × Happening} (hi : x.1.InOpen i)
    (hp : Path (initial interval policy) l x.1) (hr : Returns x i (.ok .done)) :
    ∃ y ∈ x :: l, y.1.InOpen i ∧ y.1.link = .connected := by
  have hreach := hp.reachable (reachable_initial interval policy)
  have now : x.1.link = .connected → ∃ y ∈ x :: l, y.1.InOpen i ∧ y.1.link = .connected := fun hl =>
    ⟨x, List.mem_cons_self, hi, hl⟩
  obtain ⟨token, ph, r, ht, hret, he⟩ := hi.returned (orderly_of_reachable hreach) hr
  obtain rfl : r = .ok () := by cases r <;> cases he; rfl
  cases hret with
  | connected hc =>
    rw [(steady_of_reachable hreach).connected] at hc
    exact now (of_decide_eq_true hc)
  | found hl => exact now hl
  | @shared epoch _ _ hsh =>
    obtain ⟨since, hs⟩ := since_of_path hp ht rfl
    obtain ⟨hhead, -⟩ := (hs.sharedOutcome_eq_some hp).mp hsh
    obtain ⟨y, hy, hcomp⟩ := List.mem_filterMap.mp (List.mem_of_mem_head? hhead)
    obtain ⟨⟨x', before, rfl, -⟩, hwaits⟩ := hs
    have hy' := hp.reachable_of_mem (reachable_initial interval policy) (List.mem_append_left _ hy)
    obtain ⟨token', ph, ht', -⟩ := hwaits y hy
    exact ⟨y, List.mem_cons_of_mem _ (List.mem_append_left _ hy), ⟨token', ph, ht'⟩,
      connected_of_completed hy' hcomp⟩
  | concluded =>
    have hk : (OpenPhase.conclude (.ok ())).OnLink x.1 := linkRegime_kept.opening_of_inside hreach ht rfl
    exact now hk.2

/-- Of any number of open calls, in every run: one party at a time makes an attempt, and at most one session
is being brought. A call that has got the gate of a client it did not find closed, and does not find the
link up, makes an attempt of its own when none was completed since it read their number, or the last of those
ended with a cancellation; otherwise it returns the outcome of the last. A call that returns with success was
on its way while the link was up. -/
theorem single_flight (hp : Path (initial interval policy) l k) :
    (∀ p q, k.Attempts p → k.Attempts q → p = q) ∧
    Lone k.handler.wire ∧
    (∀ i token epoch, k.tasks[i]? = some ⟨token, .opening (.consider epoch)⟩ → k.link ≠ .connected →
      k.gate.heldBy (.task i) = true ∧ ∃ since k', Since l i epoch since ∧ k.stepTask i = some k' ∧
        ((outcomes since = [] ∨ (outcomes since).head? = some (.error .cancelled)) →
          k'.tasks[i]? = some ⟨token, .opening .begin⟩) ∧
        ∀ outcome, (outcomes since).head? = some outcome → outcome ≠ .error .cancelled →
          k'.result? i = some (outcome.map fun _ => .done)) ∧
    (∀ x ∈ l, ∀ i, x.1.InOpen i → Returns x i (.ok .done) →
      ∃ y ∈ l, y.1.InOpen i ∧ y.1.link = .connected) := by
  have hr := hp.reachable (reachable_initial interval policy)
  refine ⟨fun p q hp' hq => (orderly_of_reachable hr).eq_of_inside hp'.inside hq.inside,
    lone_of_reachable hr, fun i token epoch ht hl => ?_, fun x hx i hi hret => ?_⟩
  · have hheld := (orderly_of_reachable hr).holder (p := .task i) (by rw [stance_of_tasks ht]; rfl)
    have hi := (List.getElem?_eq_some_iff.mp ht).1
    obtain ⟨since, hs⟩ := since_of_path hp ht rfl
    have hshared := fun r => hs.sharedOutcome_eq_some hp (r := r)
    refine ⟨heldBy_iff.mpr hheld, since, ?_⟩
    cases hsh : k.sharedOutcome epoch with
    | none =>
      have hstep : (Task.opening (.consider epoch)).step token (.task i) k = some (k, .opening .begin) := by
        simp [Task.step, OpenPhase.step, hl, hsh, ofPart]
      refine ⟨_, hs, stepTask_of_step ht hstep, fun _ => List.getElem?_set_self hi, fun r hr hne => ?_⟩
      rw [(hshared r).mpr ⟨hr, hne⟩] at hsh
      cases hsh
    | some r =>
      obtain ⟨hr, hne⟩ := (hshared r).mp hsh
      have hstep : (Task.opening (.consider epoch)).step token (.task i) k =
          some ({ k with gate := k.gate.release }, .ended (r.map fun _ => .done)) := by
        simp [Task.step, OpenPhase.step, hl, hsh, ofPart]
      refine ⟨_, hs, stepTask_of_step ht hstep, fun hc => ?_, fun r' hr' _ => ?_⟩
      · rcases hc with hc | hc
        · rw [hc] at hr
          cases hr
        · exact absurd (Option.some.inj (hr.symm.trans hc)) hne
      · rw [hr] at hr'
        cases hr'
        exact (result?_set hi).mpr rfl
  · obtain ⟨newer, older, rfl⟩ := List.append_of_mem hx
    obtain ⟨y, hy, h⟩ := hi.connected hp.cut.1 hret
    exact ⟨y, List.mem_append_right _ hy, h⟩

/-- Two open calls overlap: the first makes an attempt, which the hub rejects, while the second waits. -/
def rejectedOpening : List Happening :=
  [Happening.start 0 .open, .start 1 .open] ++ List.replicate 10 (Happening.stepTask 0) ++
    List.replicate 5 (Happening.stepTask 1) ++ [Happening.answer 0 (.error (.unauthorized "rejected"))] ++
    List.replicate 3 (Happening.stepTask 0) ++ List.replicate 2 (Happening.stepTask 1)

theorem rejectedOpening_shared : ∃ k, (initial none .standard).course rejectedOpening = some k ∧
    k.tasks[1]? = some ⟨1, .opening (.consider 0)⟩ ∧ k.link = .unopened ∧
    k.sharedOutcome 0 = some (.error (.transport (.unauthorized "rejected"))) :=
  ⟨_, rfl, rfl, rfl, rfl⟩

/-- The second call returns the outcome of the first. -/
theorem single_flight_rejectedOpening : ∃ l k k', Path (initial none .standard) l k ∧
    k.tasks[1]? = some ⟨1, .opening (.consider 0)⟩ ∧ k.gate.heldBy (.task 1) = true ∧
    k.stepTask 1 = some k' ∧ k'.result? 1 = some (.error (.transport (.unauthorized "rejected"))) := by
  obtain ⟨k, hc, ht, hl, hsh⟩ := rejectedOpening_shared
  obtain ⟨l, hp⟩ := History.of_reaches (reaches_of_course hc)
  obtain ⟨hheld, since, k', hs, hstep, -, hout⟩ := (single_flight hp).2.2.1 1 1 0 ht (by rw [hl]; decide)
  obtain ⟨hhead, hne⟩ := (hs.sharedOutcome_eq_some hp).mp hsh
  exact ⟨l, k, k', hp, ht, hheld, hstep, hout _ hhead hne⟩

end HubDevice.Kernel
