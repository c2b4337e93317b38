import HubDevice.Proofs.Kernel.Custody

/-!
# The link and its watchers

The regime of the link: where it can stand, which watchers have not ended, and which session the last of
them watches, for every place where the gate can be held. While nobody is at work, a link that is up has its
last watcher on the session in the slot, and no watcher is left of a link that was never up or was lost
(`Settled`). Watched sessions are ever newer, because the session that an attempt brings is newer than all
that were watched before.
-/

namespace HubDevice.Kernel

open FairLock Retry Wire

/-- How the link moves. -/
inductive LinkMoves : LinkState → LinkState → Prop where
  | stays (l : LinkState) : LinkMoves l l
  | opened : LinkMoves .unopened .connected
  | interrupted : LinkMoves .connected .reconnecting
  | restored : LinkMoves .reconnecting .connected
  | gaveUp : LinkMoves .reconnecting .lost
  | reopened : LinkMoves .lost .connected
  | closed (l : LinkState) : LinkMoves l .closed

theorem LinkMoves.eq_closed {l : LinkState} (h : LinkMoves .closed l) : l = .closed := by
  cases h <;> rfl

/-- The sessions that were ever watched, in that order. -/
def watched (k : Kernel) : List SessionId := (k.posts.map Prod.fst).filterMap id

/-- No watcher is left. -/
def Unwatched (k : Kernel) : Prop := ∀ i, k.watcherEnded i = true

/-- The flag agrees with the link, and every watcher watches a session that exists and is newer than those
watched before. -/
structure Steady (k : Kernel) : Prop where
  connected : k.connected = decide (k.link = .connected)
  sessions : k.posts.map Prod.fst = k.watched.map some
  ascending : k.watched.Pairwise (· < ·)
  known : ∀ s ∈ k.watched, s < k.handler.wire.sessions.length

/-- The last watcher watches the session in the slot, and has not ended unless everything is over. -/
structure Attended (k : Kernel) : Prop where
  slot : ∃ s, k.handler.slot = some s ∧ k.watched.getLast? = some s
  last : k.lifetimeOver = false → k.watcherEnded (k.posts.length - 1) = false

/-- What each state of the link means while nobody is at work. -/
def Meaning (k : Kernel) : LinkState → Prop
  | .unopened | .lost => k.Unwatched
  | .reconnecting => k.Unwatched ∧ k.lifetimeOver = true
  | .connected => k.Attended
  | .closed => k.disposed = true

/-- What is true while nobody is at work: no watcher but the last can be left, and the link means what it
says. -/
structure Settled (k : Kernel) : Prop extends Steady k where
  last : ∀ i, k.watcherEnded i = false → i + 1 = k.posts.length
  meaning : k.Meaning k.link

/-- Ready for a session that is newer than all of `old`. -/
structure Expecting (old : List SessionId) (k : Kernel) : Prop where
  numbered : k.handler.wire.Numbered
  known : ∀ s ∈ old, s < k.handler.wire.sessions.length

/-- A run of attempts that can only bring a session that is newer than those watched so far. -/
def Seeking (run : Run Recovery) (k : Kernel) : Prop :=
  run.Holds (Expecting k.watched) (fun a k' => Expecting k.watched k' ∧ a.Fresh k.watched k'.handler) k

/-- No watcher is left but the one with this number. -/
def OnlyLeft (i : Nat) (k : Kernel) : Prop := ∀ j, k.watcherEnded j = false → j = i

/-! ## What keeps the regime -/

/-- The link, the slot and the watchers are as they were, and sessions only grow. -/
structure Still (k k' : Kernel) : Prop where
  link : k'.link = k.link
  connected : k'.connected = k.connected
  slot : k'.handler.slot = k.handler.slot
  wire : ∃ A : Scope, k.handler.wire.Touches A k'.handler.wire
  disposed : k.disposed = true → k'.disposed = true
  lifetimeOver : k.lifetimeOver = true → k'.lifetimeOver = true
  watched : k'.posts.map Prod.fst = k.posts.map Prod.fst
  ended : ∀ i, k.watcherEnded i = true → k'.watcherEnded i = true
  halted : ∀ i, k.watcherEnded i = false → k'.watcherEnded i = true → k.lifetimeOver = true

variable {p : Party} {k k' : Kernel}

theorem Aside.still (h : Aside k k') : Still k k' := { h with wire := ⟨_, h.wire⟩ }

theorem Still.refl (k : Kernel) : Still k k := (Aside.refl k).still

namespace Still

variable (h : Still k k')
include h

theorem watched_eq : k'.watched = k.watched := congrArg (List.filterMap id) h.watched

theorem length_posts : k'.posts.length = k.posts.length := by
  simpa using congrArg List.length h.watched

theorem unended {i : Nat} (hi : k'.watcherEnded i = false) : k.watcherEnded i = false := by
  cases hk : k.watcherEnded i with
  | false => rfl
  | true => rw [h.ended i hk] at hi; cases hi

theorem known {old : List SessionId} (ho : ∀ s ∈ old, s < k.handler.wire.sessions.length) :
    ∀ s ∈ old, s < k'.handler.wire.sessions.length := by
  obtain ⟨A, ht⟩ := h.wire
  exact fun s hs => Nat.lt_of_lt_of_le (ho s hs) ht.grows.sessions

theorem unwatched (hk : k.Unwatched) : k'.Unwatched := fun i => h.ended i (hk i)

theorem onlyLeft {i : Nat} (hk : k.OnlyLeft i) : k'.OnlyLeft i := fun j hj => hk j (h.unended hj)

theorem steady (hk : k.Steady) : k'.Steady where
  connected := by rw [h.connected, h.link, hk.connected]
  sessions := by rw [h.watched, h.watched_eq, hk.sessions]
  ascending := h.watched_eq ▸ hk.ascending
  known := h.watched_eq ▸ h.known hk.known

theorem attended (hk : k.Attended) : k'.Attended where
  slot := by
    obtain ⟨s, hs, hl⟩ := hk.slot
    exact ⟨s, h.slot.trans hs, by rw [h.watched_eq, hl]⟩
  last hl := by
    have hl' : k.lifetimeOver = false := by
      cases ho : k.lifetimeOver with
      | false => rfl
      | true => rw [h.lifetimeOver ho] at hl; cases hl
    rw [h.length_posts]
    cases he : k'.watcherEnded (k.posts.length - 1) with
    | false => rfl
    | true =>
      have ho := h.halted _ (hk.last hl') he
      rw [hl'] at ho
      cases ho

theorem settled (hk : k.Settled) : k'.Settled where
  toSteady := h.steady hk.toSteady
  last i hi := by
    rw [h.length_posts]
    exact hk.last i (h.unended hi)
  meaning := by
    have hm := hk.meaning
    rw [h.link]
    cases hl : k.link with
    | unopened | lost =>
      rw [hl] at hm
      exact h.unwatched hm
    | reconnecting =>
      rw [hl] at hm
      exact ⟨h.unwatched hm.1, h.lifetimeOver hm.2⟩
    | connected =>
      rw [hl] at hm
      exact h.attended hm
    | closed =>
      rw [hl] at hm
      exact h.disposed hm

theorem expecting {old : List SessionId} (hk : k.Expecting old) : k'.Expecting old := by
  obtain ⟨A, ht⟩ := h.wire
  exact ⟨ht.numbered hk.numbered, h.known hk.known⟩

theorem seeking {run : Run Recovery} (hk : k.Seeking run) : k'.Seeking run := by
  obtain ⟨A, ht⟩ := h.wire
  unfold Seeking Run.Holds at hk ⊢
  rw [h.watched_eq]
  split at hk
  · exact ⟨h.expecting hk.1, hk.2.touched hk.1.known h.slot ht⟩
  · exact h.expecting hk

theorem slotNewer {old : List SessionId} (hk : k.handler.SlotNewer old) : k'.handler.SlotNewer old := by
  obtain ⟨A, ht⟩ := h.wire
  exact Recovery.slotNewer_of_touches hk h.slot ht

end Still

/-! ## Attempts -/

namespace Relays

variable {A : Scope} (h : k.Relays A k')
include h

theorem watched_eq : k'.watched = k.watched := by
  obtain ⟨_, _, rfl, -⟩ := h
  rfl

theorem watcherEnded_eq (i : Nat) : k'.watcherEnded i = k.watcherEnded i := by
  obtain ⟨_, _, rfl, -⟩ := h
  rfl

theorem steady (hk : k.Steady) : k'.Steady := by
  obtain ⟨_, _, rfl, ht⟩ := h
  exact { hk with known := fun s hs => Nat.lt_of_lt_of_le (hk.known s hs) ht.grows.sessions }

theorem unwatched (hk : k.Unwatched) : k'.Unwatched := fun i => (h.watcherEnded_eq i).trans (hk i)

theorem onlyLeft {i : Nat} (hk : k.OnlyLeft i) : k'.OnlyLeft i := fun j hj =>
  hk j ((h.watcherEnded_eq j).symm.trans hj)

theorem expecting {old : List SessionId} (hk : k.Expecting old) : k'.Expecting old := by
  obtain ⟨_, _, rfl, ht⟩ := h
  exact ⟨ht.numbered hk.numbered, fun s hs => Nat.lt_of_lt_of_le (hk.known s hs) ht.grows.sessions⟩

end Relays

variable {A : Scope} {fs : Features} {c c' : Bool} {granted : Kernel → ClientError → Kernel}

theorem keeps_expecting (old : List SessionId) (hg : ∀ k e, Relays A k (granted k e)) :
    Run.Keeps (recovery fs c granted) (Expecting old)
      (fun a k => Expecting old k ∧ a.Fresh old k.handler) (fun k => k.handler.SlotNewer old) where
  start hk := ⟨hk, trivial⟩
  abandon {k a} hk := (relays_of_touches k (a.uses_abandon k.handler (A := .nothing)).touches).expecting hk.1
  granted e _ _ hk := (hg _ e).expecting hk
  more {k a k' a'} hk hs := by
    obtain ⟨_, he, rfl⟩ := liftHandler_eq_some hs
    exact ⟨(relays_of_touches k (Recovery.touches_step he)).expecting hk.1,
      Recovery.fresh_step hk.1.numbered hk.2 he⟩
  ok hk hs := by
    obtain ⟨_, he, rfl⟩ := liftHandler_eq_some hs
    exact Recovery.fresh_step hk.1.numbered hk.2 he
  error {k a k' e} hk hs := by
    obtain ⟨_, he, rfl⟩ := liftHandler_eq_some hs
    exact (relays_of_touches k (Recovery.touches_step he)).expecting hk.1

/-- A turn of a run of attempts leads to more of them, or brings a session that was never watched. -/
theorem Seeking.turn {run : Run Recovery} {q : Progress (Run Recovery) (Except ClientError Unit)}
    (hk : k.Seeking run) (hA : Recovery.scope ≤ A) (hg : ∀ k e, Relays A k (granted k e))
    (h : Run.Turn (recovery fs c granted) c' k run k' q) :
    q.Leaves (fun run' => k'.Seeking run') (k'.handler.SlotNewer k'.watched) True := by
  unfold Seeking
  rw [(relays_of_turn hA hg h).watched_eq]
  exact (h.keeps (keeps_expecting k.watched hg) hk).mono (fun _ => id) id fun _ => trivial

/-! ## Watchers that come and go -/

theorem watcherEnded_spawnWatcher (k : Kernel) (i : Nat) :
    k.spawnWatcher.watcherEnded i = if i = k.posts.length then false else k.watcherEnded i := by
  rw [watcherEnded_eq, watcherEnded_eq, posts_spawnWatcher]
  rcases Nat.lt_trichotomy i k.posts.length with hi | rfl | hi
  · rw [List.getElem?_append_left hi, if_neg (Nat.ne_of_lt hi)]
  · simp [WatchPhase.isOver]
  · rw [if_neg (Nat.ne_of_gt hi), List.getElem?_eq_none (Nat.le_of_lt hi),
      List.getElem?_eq_none (by simp; omega)]

theorem watched_spawnWatcher {s : SessionId} (hs : k.handler.slot = some s) :
    k.spawnWatcher.watched = k.watched ++ [s] := by
  simp [watched, posts_spawnWatcher, hs]

theorem Steady.spawnWatcher (hk : k.Steady) (hs : k.handler.SlotNewer k.watched) :
    k.spawnWatcher.Steady := by
  obtain ⟨s, hslot, hlt, hex⟩ := hs
  have hw := watched_spawnWatcher hslot
  refine ⟨hk.connected, ?_, ?_, ?_⟩
  · rw [hw, posts_spawnWatcher, List.map_append, hk.sessions, hslot]
    simp
  · rw [hw, List.pairwise_append]
    exact ⟨hk.ascending, by simp, by simpa using hlt⟩
  · intro t ht
    rw [hw] at ht
    rcases List.mem_append.mp ht with ht | ht
    · exact hk.known t ht
    · rw [List.mem_singleton.mp ht]
      exact hex

theorem attended_spawnWatcher (hs : k.handler.SlotNewer k.watched) : k.spawnWatcher.Attended := by
  obtain ⟨s, hslot, -⟩ := hs
  refine ⟨⟨s, hslot, by rw [watched_spawnWatcher hslot]; simp⟩, fun _ => ?_⟩
  rw [watcherEnded_spawnWatcher, posts_spawnWatcher]
  simp

theorem lt_length_of_unended {i : Nat} (hi : k.watcherEnded i = false) : i < k.posts.length := by
  rw [watcherEnded_eq] at hi
  rcases Nat.lt_or_ge i k.posts.length with hl | hl
  · exact hl
  · rw [List.getElem?_eq_none hl] at hi
    cases hi

/-- A watcher that goes on. -/
theorem still_setPhase {i : Nat} {ph : WatchPhase} (hi : k.watcherEnded i = false)
    (hp : ph.isOver = false) : Still k (k.setPhase i ph) := by
  have he : ∀ j, (k.setPhase i ph).watcherEnded j = k.watcherEnded j := by
    intro j
    rw [watcherEnded_setPhase k j ph (lt_length_of_unended hi)]
    split
    · rename_i hij
      rw [← hij, hi, hp]
    · rfl
  exact {
    Still.refl k with
    watched := watched_setPhase k i ph
    ended := fun j hj => (he j).trans hj
    halted := fun j hj hj' => absurd (hj.symm.trans ((he j).symm.trans hj')) Bool.false_ne_true }

theorem setPhase_watched (k : Kernel) (i : Nat) (ph : WatchPhase) : (k.setPhase i ph).watched = k.watched :=
  congrArg (List.filterMap id) (watched_setPhase k i ph)

theorem Steady.setPhase (hk : k.Steady) (i : Nat) (ph : WatchPhase) : (k.setPhase i ph).Steady := by
  have hw : (k.setPhase i ph).watched = k.watched := setPhase_watched k i ph
  exact {
    connected := hk.connected
    sessions := by rw [watched_setPhase, hw, hk.sessions]
    ascending := hw ▸ hk.ascending
    known := hw ▸ hk.known }

/-- The last watcher that was left has ended. -/
theorem OnlyLeft.unwatched {i : Nat} (hk : k.OnlyLeft i) (hi : i < k.posts.length) (exit : WatcherExit) :
    (k.setPhase i (.ended exit)).Unwatched := by
  intro j
  rw [watcherEnded_setPhase k j _ hi]
  split
  · rfl
  · rename_i hj
    cases he : k.watcherEnded j with
    | true => rfl
    | false => exact absurd (hk j he).symm hj

theorem settled_of_unwatched (hs : k.Steady) (hu : k.Unwatched)
    (hl : k.link = .unopened ∨ k.link = .lost ∨ k.link = .reconnecting ∧ k.lifetimeOver = true) :
    k.Settled where
  toSteady := hs
  last i hi := by
    rw [hu i] at hi
    cases hi
  meaning := by
    rcases hl with hl | hl | ⟨hl, ho⟩
    · rw [hl]
      exact hu
    · rw [hl]
      exact hu
    · rw [hl]
      exact ⟨hu, ho⟩

/-! ## The regime -/

/-- Nobody watches a link that is not up. -/
structure Down (k : Kernel) : Prop extends Steady k where
  unwatched : k.Unwatched
  link : k.link = .unopened ∨ k.link = .lost

/-- The link is raised on a session that was never watched; nobody watches it yet. -/
structure Raised (k : Kernel) : Prop extends Steady k where
  link : k.link = .connected
  fresh : k.handler.SlotNewer k.watched

def OpenPhase.OnLink (k : Kernel) : OpenPhase → Prop
  | .consider _ => k.Settled ∧ k.link ≠ .closed
  | .begin | .reportDown _ | .conclude (.error _) => k.Settled ∧ k.link ≠ .closed ∧ k.link ≠ .connected
  | .working run => k.Down ∧ k.Seeking run
  | .raiseLink => k.Down ∧ k.handler.SlotNewer k.watched
  | .startWatcher => k.Raised ∧ k.Unwatched
  | .reportUp | .conclude (.ok _) => k.Settled ∧ k.link = .connected
  | _ => k.Settled

def ClosePhase.OnLink (k : Kernel) : ClosePhase → Prop
  | .lowerLink => k.Settled ∧ k.disposed = true
  | .releasing _ => k.Settled ∧ k.link = .closed
  | _ => k.Settled

/-- A watcher that restores the link; it is the only one left. -/
structure Restoring (i : Nat) (l : LinkState) (k : Kernel) : Prop extends Steady k where
  onlyLeft : k.OnlyLeft i
  link : k.link = l

def WatchPhase.OnLink (i : Nat) (k : Kernel) : WatchPhase → Prop
  | .decide _ | .announce _ _ | .pausing _ _ => k.Restoring i .reconnecting
  | .recovering run => k.Restoring i .reconnecting ∧ k.Seeking run
  | .raiseLink => k.Restoring i .reconnecting ∧ k.handler.SlotNewer k.watched
  | .startWatcher => k.Raised ∧ k.OnlyLeft i
  | .reportUp => k.Steady ∧ k.link = .connected ∧ k.Attended ∧ i + 1 < k.posts.length ∧
      ∀ j, k.watcherEnded j = false → j = i ∨ j + 1 = k.posts.length
  | .giveUp | .reportDown _ => k.Restoring i .lost
  | _ => k.Settled

theorem OpenPhase.OnLink.steady {k : Kernel} {ph : OpenPhase} (h : ph.OnLink k) : k.Steady := by
  cases ph with
  | consider | begin | reportDown | reportUp => exact h.1.toSteady
  | conclude outcome => cases outcome <;> exact h.1.toSteady
  | working | raiseLink | startWatcher => exact h.1.toSteady
  | _ => exact h.toSteady

theorem ClosePhase.OnLink.steady {k : Kernel} {ph : ClosePhase} (h : ph.OnLink k) : k.Steady := by
  cases ph with
  | lowerLink | releasing => exact h.1.toSteady
  | _ => exact h.toSteady

theorem WatchPhase.OnLink.steady {i : Nat} {k : Kernel} {ph : WatchPhase} (h : ph.OnLink i k) :
    k.Steady := by
  cases ph with
  | recovering | raiseLink | startWatcher => exact h.1.toSteady
  | reportUp => exact h.1
  | _ => exact h.toSteady

def linkRegime : Regime where
  settled := Settled
  opening ph k := ph.OnLink k
  closing ph k := ph.OnLink k
  toggling _ _ _ _ := Settled
  watching i ph k := ph.OnLink i k

namespace Still

variable (h : Still k k')
include h

theorem down (hk : k.Down) : k'.Down where
  toSteady := h.steady hk.toSteady
  unwatched := h.unwatched hk.unwatched
  link := h.link.symm ▸ hk.link

theorem raised (hk : k.Raised) : k'.Raised where
  toSteady := h.steady hk.toSteady
  link := h.link.trans hk.link
  fresh := by
    rw [h.watched_eq]
    exact h.slotNewer hk.fresh

theorem fresh (hk : k.handler.SlotNewer k.watched) : k'.handler.SlotNewer k'.watched := by
  rw [h.watched_eq]
  exact h.slotNewer hk

theorem restoring {i : Nat} {l : LinkState} (hk : k.Restoring i l) : k'.Restoring i l where
  toSteady := h.steady hk.toSteady
  onlyLeft := h.onlyLeft hk.onlyLeft
  link := h.link.trans hk.link

theorem opening {ph : OpenPhase} (hk : ph.OnLink k) : ph.OnLink k' := by
  have hl := h.link
  cases ph with
  | consider | begin | reportDown => exact ⟨h.settled hk.1, by rw [hl]; exact hk.2⟩
  | conclude outcome => cases outcome <;> exact ⟨h.settled hk.1, by rw [hl]; exact hk.2⟩
  | working run => exact ⟨h.down hk.1, h.seeking hk.2⟩
  | raiseLink => exact ⟨h.down hk.1, h.fresh hk.2⟩
  | startWatcher => exact ⟨h.raised hk.1, h.unwatched hk.2⟩
  | reportUp => exact ⟨h.settled hk.1, hl.trans hk.2⟩
  | _ => exact h.settled hk

theorem closing {ph : ClosePhase} (hk : ph.OnLink k) : ph.OnLink k' := by
  cases ph with
  | lowerLink => exact ⟨h.settled hk.1, h.disposed hk.2⟩
  | releasing c => exact ⟨h.settled hk.1, h.link.trans hk.2⟩
  | _ => exact h.settled hk

theorem watching {i : Nat} {ph : WatchPhase} (hk : ph.OnLink i k) : ph.OnLink i k' := by
  cases ph with
  | decide | announce | pausing | giveUp | reportDown => exact h.restoring hk
  | recovering run => exact ⟨h.restoring hk.1, h.seeking hk.2⟩
  | raiseLink => exact ⟨h.restoring hk.1, h.fresh hk.2⟩
  | startWatcher => exact ⟨h.raised hk.1, h.onlyLeft hk.2⟩
  | reportUp =>
    obtain ⟨hs, hl, ha, hi, hj⟩ := hk
    have hlen := h.length_posts
    exact ⟨h.steady hs, h.link.trans hl, h.attended ha, by omega, fun j he => by
      rw [hlen]
      exact hj j (h.unended he)⟩
  | _ => exact h.settled hk

end Still

/-! ## Open calls -/

theorem Down.relays (hk : k.Down) (h : k.Relays A k') : k'.Down where
  toSteady := h.steady hk.toSteady
  unwatched := h.unwatched hk.unwatched
  link := h.link_eq.symm ▸ hk.link

theorem Down.settled (hk : k.Down) : k.Settled :=
  settled_of_unwatched hk.toSteady hk.unwatched (by rcases hk.link with h | h <;> simp [h])

theorem Down.link_ne (hk : k.Down) : k.link ≠ .closed ∧ k.link ≠ .connected := by
  rcases hk.link with h | h <;> simp [h]

theorem Raised.settled (hk : k.Raised) (hu : k.Unwatched) : k.spawnWatcher.Settled where
  toSteady := hk.toSteady.spawnWatcher hk.fresh
  last i hi := by
    rw [watcherEnded_spawnWatcher] at hi
    split at hi
    · rename_i he
      simp [posts_spawnWatcher, he]
    · rw [hu i] at hi
      cases hi
  meaning := by
    have hl : k.spawnWatcher.link = .connected := hk.link
    rw [hl]
    exact attended_spawnWatcher hk.fresh

theorem Steady.setLink (hk : k.Steady) (l : LinkState) : (k.setLink l).Steady :=
  { hk with connected := rfl }

theorem still_report (k : Kernel) (state : ConnectionState) (reason : StatusReason) :
    Still k (k.report state reason) :=
  { Still.refl k with wire := ⟨{ statuses := fun _ => True }, (Touch.reported trivial).touches⟩ }

theorem Steady.seeking (hk : k.Steady) (hn : k.handler.wire.Numbered) (x : Action Kernel Recovery Unit)
    (hx : x.start = .opening .start) (policy : Policy) (n : Nat) : k.Seeking (.ofPolicy x policy n) := by
  have he : Expecting k.watched k := ⟨hn, hk.known⟩
  simp only [Seeking, Run.Holds, Run.ofPolicy, hx]
  exact ⟨he, trivial⟩

/-- One step of an open call inside the gate: how the link moves, and what is true afterwards. -/
theorem OpenPhase.link_step {token : Nat} {ph : OpenPhase}
    {pr : Progress OpenPhase (Except ClientError Unit)} (hn : k.handler.wire.Numbered)
    (hi : ph.stance = .inside) (hk : ph.OnLink k) (h : ph.step token p k = some (k', pr)) :
    (k'.link = k.link ∨ (k.link = .unopened ∨ k.link = .lost) ∧ k'.link = .connected) ∧
      pr.Leaves (fun ph' => linkRegime.opener ph' k') k'.Settled k'.Settled := by
  have freed : ∀ {gate : FairLock Party}, k.Settled → Settled { k with gate } := fun hs =>
    Still.settled { Still.refl k with } hs
  cases turn_of_step h with
  | refusedInside => exact ⟨.inl rfl, freed hk⟩
  | admittedInside hd =>
    have hs : k.Settled := hk
    refine ⟨.inl rfl, hs, fun hl => ?_⟩
    have hm := hs.meaning
    rw [hl] at hm
    rw [show k.disposed = true from hm] at hd
    cases hd
  | found => exact ⟨.inl rfl, freed hk.1⟩
  | @shared _ outcome =>
    refine ⟨.inl rfl, ?_⟩
    cases outcome <;> exact freed hk.1
  | own hl => exact ⟨.inl rfl, hk.1, hk.2, hl⟩
  | late => exact ⟨.inl rfl, hk⟩
  | began ho =>
    obtain ⟨hs, hc, hl⟩ := hk
    have hm := hs.meaning
    have hd : k.Down := by
      cases hlink : k.link with
      | unopened | lost =>
        rw [hlink] at hm
        exact ⟨hs.toSteady, hm, by simp [hlink]⟩
      | reconnecting =>
        rw [hlink] at hm
        rw [hm.2] at ho
        cases ho
      | connected => exact absurd hlink hl
      | closed => exact absurd hlink hc
    exact ⟨.inl rfl, hd, hd.seeking hn _ rfl _ _⟩
  | @overtaken run =>
    have hr := relays_overtaken k k token run
    have hd := hk.1.relays hr
    exact ⟨.inl hr.link_eq, hd.settled, hd.link_ne⟩
  | @worked _ _ q _ ht =>
    have hr := relays_worked ht
    have hd := hk.1.relays hr
    have hq := hk.2.turn recovery_le_open relays_granted ht
    refine ⟨.inl hr.link_eq, ?_⟩
    cases q with
    | more run' => exact ⟨hd, hq⟩
    | done r =>
      cases r with
      | ok v => exact ⟨hd, hq⟩
      | error e =>
        have hf : k'.Settled ∧ k'.link ≠ .closed ∧ k'.link ≠ .connected := ⟨hd.settled, hd.link_ne⟩
        cases e <;> exact hf
  | raised =>
    exact ⟨.inr ⟨hk.1.link, rfl⟩, { hk.1.toSteady with connected := rfl, link := rfl, fresh := hk.2 },
      hk.1.unwatched⟩
  | watched => exact ⟨.inl rfl, hk.1.settled hk.2, hk.1.link⟩
  | reportedUp | reportedDown => exact ⟨.inl rfl, (still_report k _ _).settled hk.1, hk.2⟩
  | @concluded outcome =>
    have hs : Settled { k with lastOpen := some outcome, epoch := k.epoch + 1, gate := k.gate.release } := by
      refine Still.settled (k := k) { Still.refl k with } ?_
      cases outcome <;> exact hk.1
    refine ⟨.inl rfl, ?_⟩
    cases outcome <;> exact hs
  | _ => cases hi

/-! ## Closings and changes of subscriptions -/

theorem Settled.relays (hk : k.Settled) (hl : k.link = .closed) (h : k.Relays A k') :
    k'.Settled ∧ k'.link = .closed := by
  have hl' := h.link_eq.trans hl
  have hs := h.steady hk.toSteady
  obtain ⟨_, _, rfl, -⟩ := h
  refine ⟨{ hs with last := hk.last, meaning := ?_ }, hl'⟩
  have hm := hk.meaning
  rw [hl] at hm ⊢
  exact hm

theorem ClosePhase.link_step {ph : ClosePhase} {pr : Progress ClosePhase (Except ClientError Unit)}
    (hi : ph.stance = .inside) (hk : ph.OnLink k) (h : ph.step p k = some (k', pr)) :
    (k'.link = k.link ∨ k'.link = .closed) ∧
      pr.Leaves (fun ph' => linkRegime.closer ph' k') k'.Settled k'.Settled := by
  have lowered : k.Settled → k.disposed = true → (k.setLink .closed).Settled := fun hs hd =>
    { hs.toSteady.setLink .closed with last := hs.last, meaning := hd }
  have closing : ∀ {c : Closing} {handler : Handler} {pr}, c.step k.handler = some (handler, pr) →
      k.Settled → k.link = .closed → Settled { k with handler } := by
    intro c handler pr hc hs hl
    exact (hs.relays hl (relays_of_touches k (Closing.slot_step hc).1)).1
  have freed : ∀ {k₁ : Kernel} {gate : FairLock Party}, k₁.Settled → Settled { k₁ with gate } :=
    fun {k₁} _ hs => Still.settled { Still.refl k₁ with } hs
  cases turn_of_step h with
  | lowered => exact ⟨.inr rfl, lowered hk.1 hk.2, rfl⟩
  | loweredUnopened => exact ⟨.inr rfl, freed (lowered hk.1 hk.2)⟩
  | releasing hc => exact ⟨.inl rfl, closing hc hk.1 hk.2, hk.2⟩
  | released hc | troubled hc => exact ⟨.inl rfl, freed (closing hc hk.1 hk.2)⟩
  | _ => cases hi

/-- What is done to the channels of the session in the slot leaves the link alone. -/
theorem still_uses {handler : Handler} (h : Handler.Uses A k.handler handler) :
    Still k { k with handler } :=
  { Still.refl k with slot := h.slot, wire := ⟨A, h.touches⟩ }

theorem Toggling.still {f : Feature} {enable edge : Bool} {g : Subscribing}
    {pr : Progress Toggling (Except ClientError Reply)}
    (h : Toggling.step f enable edge p k (.calling g) = some (k', pr)) : Still k k' := by
  cases turn_of_step h with
  | calling hg | changed hg | failed hg => exact { still_uses (Subscribing.uses_step hg) with }

theorem Toggling.still_abandon (a : Toggling) : Still k (a.abandon p k) := by
  cases a with
  | calling g => exact { still_uses (g.uses_abandon k.handler (A := .nothing)) with }
  | _ => exact (Toggling.aside_abandon _).still

theorem Toggling.still_turn {f : Feature} {enable edge c : Bool} {r : Run Toggling}
    {pr : Progress (Run Toggling) (Except ClientError Reply)}
    (h : Run.Turn (Kernel.toggling f enable edge p) c k r k' pr) : Still k k' := by
  have stepped : ∀ {a : Toggling} {k' pr}, a.step f enable edge p k = some (k', pr) → Still k k' := by
    intro a k' pr hs
    by_cases ha : ∃ g, a = .calling g
    · obtain ⟨g, rfl⟩ := ha
      exact Toggling.still hs
    · exact (Toggling.aside (fun g e => ha ⟨g, e⟩) hs).still
  cases h with
  | cancelledActing => exact Toggling.still_abandon _
  | cancelledPausing | resumed => exact (Aside.refl k).still
  | advanced _ hs | succeeded _ _ hs | failed _ hs | retried _ hs => exact stepped hs

/-! ## Watchers -/

namespace Restoring

variable {i : Nat} {l : LinkState} (hk : k.Restoring i l)
include hk

theorem relays (h : k.Relays A k') : k'.Restoring i l where
  toSteady := h.steady hk.toSteady
  onlyLeft := h.onlyLeft hk.onlyLeft
  link := h.link_eq.trans hk.link

theorem setLink (l' : LinkState) : (k.setLink l').Restoring i l' :=
  { hk.toSteady.setLink l' with onlyLeft := hk.onlyLeft, link := rfl }

/-- The watcher ends; nobody watches any more. -/
theorem settled (hi : i < k.posts.length) (exit : WatcherExit)
    (hl : l = .lost ∨ l = .reconnecting ∧ k.lifetimeOver = true) (gate : FairLock Party) :
    (setPhase { k with gate } i (.ended exit)).Settled := by
  have hs : Still k { k with gate } := { Still.refl k with }
  refine settled_of_unwatched ((hs.steady hk.toSteady).setPhase i _)
    ((hs.onlyLeft hk.onlyLeft).unwatched hi exit) (.inr ?_)
  rcases hl with rfl | ⟨rfl, ho⟩
  · exact .inl hk.link
  · exact .inr ⟨hk.link, ho⟩

end Restoring

/-- While nobody is at work, a watcher that is left watches a link that is up or closed. -/
theorem Settled.connected_of_unended (hk : k.Settled) {i : Nat} (hi : k.watcherEnded i = false)
    (hl : k.link ≠ .closed) : k.link = .connected := by
  have hm := hk.meaning
  have left : k.Unwatched → False := fun hu => by
    rw [hu i] at hi
    cases hi
  cases hlink : k.link with
  | unopened | lost =>
    rw [hlink] at hm
    exact (left hm).elim
  | reconnecting =>
    rw [hlink] at hm
    exact (left hm.1).elim
  | connected => rfl
  | closed => exact absurd hlink hl

theorem Settled.onlyLeft (hk : k.Settled) {i : Nat} (hi : k.watcherEnded i = false) : k.OnlyLeft i := by
  intro j hj
  have hi' := hk.last i hi
  have hj' := hk.last j hj
  omega

/-- A watcher that finds the link closed ends. -/
theorem Settled.ended (hk : k.Settled) (hl : k.link = .closed) {i : Nat} (hi : i < k.posts.length)
    (exit : WatcherExit) (gate : FairLock Party) :
    (setPhase { k with gate } i (.ended exit)).Settled := by
  have hs : Still k { k with gate } := { Still.refl k with }
  have hi' : i < ({ k with gate } : Kernel).posts.length := hi
  have hm := hk.meaning
  rw [hl] at hm
  refine { (hs.steady hk.toSteady).setPhase i (.ended exit) with last := fun j hj => ?_, meaning := ?_ }
  · rw [length_posts_setPhase]
    rw [watcherEnded_setPhase _ j _ hi'] at hj
    split at hj
    · cases hj
    · exact hk.last j hj
  · have hl' : (setPhase { k with gate } i (.ended exit)).link = .closed := hl
    rw [hl']
    exact hm

/-- A watcher that is not the last one moves on. -/
theorem Attended.setPhase (hk : k.Attended) {i : Nat} (hi : i + 1 < k.posts.length) (ph : WatchPhase) :
    (k.setPhase i ph).Attended where
  slot := by
    have hw : (k.setPhase i ph).watched = k.watched := setPhase_watched k i ph
    obtain ⟨s, hs, hl⟩ := hk.slot
    exact ⟨s, hs, hw ▸ hl⟩
  last hl := by
    rw [length_posts_setPhase, watcherEnded_setPhase k _ ph (by omega), if_neg (by omega)]
    exact hk.last hl

/-- A watcher that has restored the link leaves it to the new one. -/
theorem settled_of_reportUp {i : Nat} (hk : WatchPhase.reportUp.OnLink i k) (exit : WatcherExit) :
    (k.setPhase i (.ended exit)).Settled := by
  obtain ⟨hs, hc, ha, hi, hj⟩ := hk
  refine { hs.setPhase i (.ended exit) with last := fun j he => ?_, meaning := ?_ }
  · rw [watcherEnded_setPhase k j _ (by omega)] at he
    rw [length_posts_setPhase]
    split at he
    · cases he
    · rename_i hij
      rcases hj j he with hj | hj
      · exact absurd hj.symm hij
      · exact hj
  · have hl : (k.setPhase i (.ended exit)).link = .connected := hc
    rw [hl]
    exact ha.setPhase hi _

/-- One step of a watcher inside the gate. -/
theorem WatchPhase.link_step {i : Nat} {w : Watcher} {ph : WatchPhase} (ho : k.Orderly)
    (hw : k.watchers[i]? = some w) (hi : w.phase.stance = .inside) (hk : w.phase.OnLink i k)
    (h : w.phase.step (.watcher i) k w = some (k', ph)) :
    LinkMoves k.link k'.link ∧ linkRegime.watcher i ph (k'.setPhase i ph) := by
  have hp := getElem?_posts hw
  have hlt : i < k.posts.length := (List.getElem?_eq_some_iff.mp hp).1
  have hst : k.watcherStopped w = true → k.lifetimeOver = true := ho.watcherStopped hw
  have hun : k.watcherEnded i = false := by
    rw [watcherEnded_eq, hp]
    cases hph : w.phase <;> first | rfl | (rw [hph] at hi; cases hi)
  have goesOn : ∀ (k₁ : Kernel) (ph : WatchPhase), k₁.watchers = k.watchers → ph.isOver = false →
      Still k₁ (k₁.setPhase i ph) := by
    intro k₁ ph hws ho
    refine still_setPhase ?_ ho
    rw [← hun]
    simp only [watcherEnded, hws]
  have ht := turn_of_step h
  generalize w.phase = ph₀ at ht hi hk
  cases ht with
  | foundClosed hl =>
    have hs : k.Settled := hk
    exact ⟨.stays _, hs.ended hl hlt _ _⟩
  | lowered hl =>
    have hs : k.Settled := hk
    have hc := hs.connected_of_unended hun hl
    refine ⟨by rw [hc]; exact .interrupted, (goesOn (k.setLink .reconnecting) _ rfl rfl).restoring ?_⟩
    exact { hs.toSteady.setLink .reconnecting with onlyLeft := hs.onlyLeft hun, link := rfl }
  | declined =>
    have hk : k.Restoring i .reconnecting := hk
    refine ⟨by rw [hk.link]; exact .gaveUp, ?_⟩
    exact (goesOn (k.setLink .lost) _ rfl rfl).restoring (hk.setLink .lost)
  | granted => exact ⟨.stays _, (goesOn k _ rfl rfl).restoring hk⟩
  | expired | reportedDown =>
    exact ⟨.stays _, ((still_report k _ _).restoring hk).settled hlt _ (.inl rfl) _⟩
  | @announced policy =>
    have hr : Restoring i .reconnecting (k.report .retrying .communicationError) :=
      (still_report k _ _).restoring hk
    have hn : (k.report .retrying .communicationError).handler.wire.Numbered :=
      Touch.numbered (Touch.reported (A := { statuses := fun _ => True }) trivial) ho.numbered
    have hgo := goesOn (k.report .retrying .communicationError)
      (.recovering (.ofPolicy (watcherAction (k.report .retrying .communicationError) w) policy 1)) rfl rfl
    exact ⟨.stays _, hgo.restoring hr, hgo.seeking (hr.toSteady.seeking hn _ rfl _ _)⟩
  | paused =>
    have hr : Restoring i .reconnecting (k.report .retrying .communicationError) :=
      (still_report k _ _).restoring hk
    exact ⟨.stays _, (goesOn (k.report .retrying .communicationError) _ rfl rfl).restoring hr⟩
  | stoppedPausing hs =>
    have hk : k.Restoring i .reconnecting := hk
    exact ⟨.stays _, hk.settled hlt _ (.inr ⟨rfl, hst hs⟩) _⟩
  | @resumed policy =>
    have hk : k.Restoring i .reconnecting := hk
    have hgo := goesOn k (.recovering (.ofPolicy (watcherAction k w) policy 1)) rfl rfl
    exact ⟨.stays _, hgo.restoring hk, hgo.seeking (hk.toSteady.seeking ho.numbered _ rfl _ _)⟩
  | @worked _ k₁ _ q _ ht hq =>
    obtain ⟨hk, hseek⟩ := hk
    have hr := relays_recovering ht
    have hk₁ := hk.relays hr
    have hws : k₁.watchers = k.watchers ∧ k₁.lifetimeOver = k.lifetimeOver := by
      obtain ⟨_, _, rfl, -⟩ := hr
      exact ⟨rfl, rfl⟩
    have hlt₁ : i < k₁.posts.length := by simpa [posts, hws.1] using hlt
    have hleft := hseek.turn (Scope.le_refl _) (fun k _ => Relays.refl k) ht
    cases hq with
    | goesOn run' =>
      have hgo := goesOn k' (.recovering run') hws.1 rfl
      exact ⟨hr.link_eq ▸ .stays _, hgo.restoring hk₁, hgo.seeking hleft⟩
    | restored =>
      have hgo := goesOn k' .raiseLink hws.1 rfl
      exact ⟨hr.link_eq ▸ .stays _, hgo.restoring hk₁, hgo.fresh hleft⟩
    | stopped r hs =>
      refine ⟨hr.link_eq ▸ .stays _, hk₁.settled hlt₁ _ (.inr ⟨rfl, ?_⟩) _⟩
      rw [hws.2]
      exact hst hs
    | failed e =>
      refine ⟨by rw [hk.link]; exact .gaveUp, ?_⟩
      exact (goesOn (k₁.setLink .lost) _ hws.1 rfl).restoring (hk₁.setLink .lost)
  | raised =>
    obtain ⟨hk, hf⟩ := hk
    have hgo := goesOn (k.setLink .connected) .startWatcher rfl rfl
    refine ⟨by rw [hk.link]; exact .restored, hgo.raised ?_, hgo.onlyLeft hk.onlyLeft⟩
    exact { hk.toSteady.setLink .connected with link := rfl, fresh := hf }
  | watched =>
    obtain ⟨hk, hl⟩ := hk
    have hun' : k.spawnWatcher.watcherEnded i = false := by
      rw [watcherEnded_spawnWatcher, if_neg (Nat.ne_of_lt hlt), hun]
    have hgo : Still k.spawnWatcher (k.spawnWatcher.setPhase i .reportUp) := still_setPhase hun' rfl
    refine ⟨.stays _, hgo.steady (hk.toSteady.spawnWatcher hk.fresh), hk.link,
      hgo.attended (attended_spawnWatcher hk.fresh), ?_, fun j hj => ?_⟩
    · rw [hgo.length_posts, posts_spawnWatcher]
      simpa using hlt
    · have hj' := hgo.unended hj
      rw [watcherEnded_spawnWatcher] at hj'
      rw [hgo.length_posts, posts_spawnWatcher]
      split at hj'
      · rename_i he
        simp [he]
      · exact .inl (hl j hj')
  | reportedUp =>
    have hst' : Still k { k.report .connected .connectionOk with gate := k.gate.release } :=
      { still_report k _ _ with }
    exact ⟨.stays _, settled_of_reportUp (hst'.watching hk) .recovered⟩
  | _ => cases hi

/-! ## The regime is kept -/

theorem settled_initial (interval : Option Span) (policy : Policy) :
    (Kernel.initial interval policy).Settled :=
  settled_of_unwatched ⟨rfl, rfl, List.Pairwise.nil, by simp [watched, posts, initial]⟩
    (fun i => by simp [watcherEnded_eq, posts, initial]) (.inl rfl)

theorem linkRegime_kept : linkRegime.Kept where
  reachable := id
  initial := settled_initial
  settled_aside h hk := h.still.settled hk
  opening_aside h hk := h.still.opening hk
  closing_aside h hk := h.still.closing hk
  toggling_aside h hk := h.still.settled hk
  watching_aside h hk := h.still.watching hk
  enter_opening hk := hk
  enter_closing hd _ hk := ⟨hk, hd⟩
  enter_toggling _ _ hk := hk
  enter_watching hk := hk
  step_opening hr _ hi hk h := (OpenPhase.link_step (orderly_of_reachable hr).numbered hi hk h).2
  step_closing _ _ hi hk h := (ClosePhase.link_step hi hk h).2
  step_toggling {_ _ _ _ _ _ _ k' _ pr} _ _ _ hk h := by
    have hs : k'.Settled := (Toggling.still h).settled hk
    cases pr with
    | more a => cases a <;> exact hs
    | done r => cases r <;> exact hs
  abandon_toggling {_ _ _ _ _ _ k g} _ _ _ _ hk :=
    Still.settled { still_uses (g.uses_abandon k.handler (A := .nothing)) with } hk
  step_watching hr hw hi hk h := (WatchPhase.link_step (orderly_of_reachable hr) hw hi hk h).2

theorem steady_of_reachable (h : k.Reachable) : k.Steady :=
  linkRegime_kept.always h Settled.toSteady (fun _ _ hk => OpenPhase.OnLink.steady hk)
    (fun _ _ hk => ClosePhase.OnLink.steady hk) (fun _ _ hk => Settled.toSteady hk)
    (fun _ _ hk => WatchPhase.OnLink.steady hk)

/-- The link is closed by a close call alone. -/
theorem disposed_of_closed (h : k.Reachable) (hl : k.link = .closed) : k.disposed = true := by
  have meant : k.Settled → k.disposed = true := fun hs => by
    have hm := hs.meaning
    rwa [hl] at hm
  have down : k.Down → False := fun hd => hd.link_ne.1 hl
  have restoring : ∀ {i l}, l ≠ .closed → k.Restoring i l → False := fun hn hr => hn (hr.link.symm.trans hl)
  refine linkRegime_kept.always h meant (fun {_ _ ph} _ _ hk => ?_) (fun {_ _ ph} _ _ hk => ?_)
    (fun _ _ hk => meant hk) (fun {i w} _ _ hk => ?_)
  · have hk : ph.OnLink k := hk
    cases ph with
    | consider | begin | reportDown | reportUp => exact meant hk.1
    | conclude outcome => cases outcome <;> exact meant hk.1
    | working | raiseLink => exact (down hk.1).elim
    | startWatcher => exact absurd (hk.1.link.symm.trans hl) (by simp)
    | _ => exact meant hk
  · have hk : ph.OnLink k := hk
    cases ph with
    | lowerLink => exact hk.2
    | releasing => exact meant hk.1
    | _ => exact meant hk
  · revert hk
    generalize w.phase = ph
    intro (hk : ph.OnLink i k)
    cases ph with
    | decide | announce | pausing | giveUp | reportDown => exact (restoring (by simp) hk).elim
    | recovering | raiseLink => exact (restoring (by simp) hk.1).elim
    | startWatcher => exact absurd (hk.1.link.symm.trans hl) (by simp)
    | reportUp => exact absurd (hk.2.1.symm.trans hl) (by simp)
    | _ => exact meant hk

/-- Operations only raise a link that is not up, or close it. -/
theorem link_stepTask (h : k.Reachable) {i : Nat} (hs : k.stepTask i = some k') :
    k'.link = k.link ∨ (k.link = .unopened ∨ k.link = .lost) ∧ k'.link = .connected ∨ k'.link = .closed := by
  by_cases hi : k.stance (.task i) = .inside
  · obtain ⟨o, k₁, t, ht, hstep, rfl⟩ := stepTask_eq_some hs
    rw [stance_of_tasks ht] at hi
    obtain ⟨token, task⟩ := o
    cases task with
    | ready | ended => cases hi
    | opening ph =>
      obtain ⟨pr, hp, -⟩ := ofPart_eq_some hstep
      have hk := linkRegime_kept.opening_of_inside h ht hi
      rcases (OpenPhase.link_step (orderly_of_reachable h).numbered hi hk hp).1 with hl | hl
      · exact .inl hl
      · exact .inr (.inl hl)
    | closing ph =>
      obtain ⟨pr, hp, -⟩ := ofPart_eq_some hstep
      rcases (ClosePhase.link_step hi (linkRegime_kept.closing_of_inside h ht hi) hp).1 with hl | hl
      · exact .inl hl
      · exact .inr (.inr hl)
    | running x run =>
      obtain ⟨pr, hp, -⟩ := ofPart_eq_some hstep
      exact .inl (Guarded.aside_turn (Run.turn_of_step hp)).link
    | toggling f enable edge run =>
      obtain ⟨pr, hp, -⟩ := ofPart_eq_some hstep
      exact .inl (Toggling.still_turn (Run.turn_of_step hp)).link
  · exact .inl (aside_stepTask (orderly_of_reachable h) hs hi).link

/-- The link moves only as `LinkMoves` allows, whatever happens. -/
theorem linkMoves_after (h : k.Reachable) {e : Happening} (he : k.after e = some k') :
    LinkMoves k.link k'.link := by
  have ho := orderly_of_reachable h
  rcases after_cases he with ⟨i, -, hs⟩ | ⟨i, -, hs⟩ | hb
  · rcases link_stepTask h hs with hl | ⟨hl | hl, hc⟩ | hl
    · rw [hl]
      exact .stays _
    · rw [hl, hc]
      exact .opened
    · rw [hl, hc]
      exact .reopened
    · rw [hl]
      exact .closed _
  · by_cases hi : k.stance (.watcher i) = .inside
    · obtain ⟨w, k₁, ph, hw, hstep, rfl⟩ := stepWatcher_eq_some hs
      rw [stance_of_watchers hw] at hi
      exact (WatchPhase.link_step ho hw hi (linkRegime_kept.watching_of_inside h hw hi) hstep).1
    · rw [(aside_stepWatcher ho hs hi).link]
      exact .stays _
  · rw [hb.link]
    exact .stays _

end HubDevice.Kernel
