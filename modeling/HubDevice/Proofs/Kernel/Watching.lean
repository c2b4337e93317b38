import HubDevice.Proofs.Kernel.Link

/-!
# Watching the connection

No end of a session is missed and none is dealt with twice. A watcher that hears of an end hears why its
session ended (`Informed`), and never turns back to it once it has dealt with it (`WatchPhase.Past`); only
the last watcher interrupts a link that is up, and it watches the session in the slot
(`watcher_of_interrupts`). `link_watched` puts this together with the regime of the link.
-/

namespace HubDevice.Kernel

open FairLock Retry Wire

variable {p : Party} {k k' : Kernel}

/-! ## What a watcher has heard -/

/-- The end of its session that a watcher has heard of and has not dealt with. -/
def WatchPhase.heard : WatchPhase → Option CloseCause
  | .askGate cause | .awaitGate cause | .lowerLink cause => some cause
  | _ => none

/-- What a watcher has heard is why its session ended. -/
def Informed (k : Kernel) : Prop := ∀ (i : Nat) (q : Option SessionId × WatchPhase) (cause : CloseCause),
  k.posts[i]? = some q → q.2.heard = some cause → k.watchedCause { session := q.1 } = some cause

theorem WatchPhase.heard_step {w : Watcher} {ph ph' : WatchPhase} {cause : CloseCause}
    (h : ph.step p k w = some (k', ph')) (hc : ph'.heard = some cause) :
    ph.heard = some cause ∨ k.watchedCause w = some cause := by
  cases turn_of_step h with
  | heard _ hw =>
    cases hc
    exact .inr hw
  | asked | entered => exact .inl hc
  | worked _ hq => cases hq <;> cases hc
  | _ => cases hc

theorem Informed.after (hk : k.Informed) (ho : k.Orderly) {e : Happening} (he : k.after e = some k') :
    k'.Informed := by
  obtain ⟨A, ht⟩ := wire_after ho he
  have stands : ∀ {w : Watcher} {cause}, k.watchedCause w = some cause →
      k'.watchedCause w = some cause := by
    intro w cause hc
    unfold watchedCause at hc ⊢
    split
    · rename_i hs
      simpa only [hs] using hc
    · rename_i s hs
      simp only [hs] at hc
      exact ht.grows.cause hc
  intro i q cause hq hc
  rcases posts_after ho he hq with hq | ⟨-, hw⟩ | ⟨w, k₁, hw, hs, hstep⟩
  · exact stands (hk i q cause hq hc)
  · rw [hw] at hc
    cases hc
  · rcases WatchPhase.heard_step hstep hc with hh | hh
    · have hi := hk i _ cause (getElem?_posts hw) hh
      exact hs ▸ stands hi
    · rw [hs]
      exact stands (w := { session := w.session }) hh

theorem informed_of_reachable (h : k.Reachable) : k.Informed :=
  Reachable.induct (P := Informed) (fun _ _ i q c hq => by simp [posts, initial] at hq)
    (fun hr hk he => hk.after (orderly_of_reachable hr) he) h

/-! ## Ends that were dealt with -/

/-- The watcher has dealt with the end of its session, or never will. -/
def WatchPhase.Past : WatchPhase → Prop
  | .watching | .askGate _ | .awaitGate _ | .lowerLink _ => False
  | _ => True

theorem WatchPhase.past_step {w : Watcher} {ph ph' : WatchPhase} (hp : ph.Past)
    (h : ph.step p k w = some (k', ph')) : ph'.Past := by
  cases turn_of_step h with
  | stopped | heard | stoppedAsking | asked | gaveUp | entered | foundClosed | lowered => cases hp
  | worked _ hq => cases hq <;> trivial
  | _ => trivial

/-- The watcher with this number has dealt with the end of its session. -/
def PastAt (k : Kernel) (i : Nat) : Prop := ∃ q, k.posts[i]? = some q ∧ q.2.Past

theorem PastAt.after {i : Nat} (hk : k.PastAt i) (ho : k.Orderly) {e : Happening}
    (he : k.after e = some k') : k'.PastAt i := by
  obtain ⟨q, hq, hp⟩ := hk
  obtain ⟨new, hnew⟩ := sessions_after ho he
  have hi : i < k'.posts.length := by
    have hl := congrArg List.length hnew
    have hi := (List.getElem?_eq_some_iff.mp hq).1
    simp only [List.length_map, List.length_append] at hl
    omega
  refine ⟨k'.posts[i], List.getElem?_eq_getElem hi, ?_⟩
  rcases posts_after ho he (List.getElem?_eq_getElem hi) with hq' | ⟨hn, -⟩ | ⟨w, k₁, hw, -, hs⟩
  · rw [hq] at hq'
    rw [← Option.some.inj hq']
    exact hp
  · rw [hq] at hn
    cases hn
  · rw [getElem?_posts hw] at hq
    cases hq
    exact WatchPhase.past_step hp hs

theorem pastAt_of_reaches {i : Nat} (h : k.Reachable) (hk : k.PastAt i) (hr : k.Reaches k') :
    k'.PastAt i := by
  induction hr with
  | refl => exact hk
  | tail e hr he ih => exact ih.after (orderly_of_reachable (h.reaches hr)) he

theorem sessions_of_reaches (h : k.Reachable) (hr : k.Reaches k') :
    ∃ new, k'.posts.map Prod.fst = k.posts.map Prod.fst ++ new := by
  induction hr with
  | refl => exact ⟨[], (List.append_nil _).symm⟩
  | tail e hr he ih =>
    obtain ⟨new, hn⟩ := ih
    obtain ⟨new', hn'⟩ := sessions_after (orderly_of_reachable (h.reaches hr)) he
    exact ⟨new ++ new', by rw [hn', hn, List.append_assoc]⟩

/-! ## Interruptions -/

/-- A happening that takes a link that is up down, to restore it. -/
def Interrupts (k : Kernel) (e : Happening) (k' : Kernel) : Prop :=
  k.after e = some k' ∧ k.link = .connected ∧ k'.link = .reconnecting

/-- A watcher that interrupts the link is the last one; its session is in the slot and has ended. -/
structure Interrupter (k : Kernel) (i : Nat) (s : SessionId) (k' : Kernel) : Prop where
  settled : k.Settled
  last : i + 1 = k.posts.length
  post : ∃ cause, k.posts[i]? = some (some s, .lowerLink cause) ∧ k.handler.wire.cause? s = some cause
  slot : k.handler.slot = some s
  past : k'.PastAt i

/-- While nobody is at work on a link that is up, a watcher that is left watches the session in the slot. -/
theorem Settled.attended_of_unended (hk : k.Settled) (hl : k.link = .connected) {i : Nat}
    (hi : k.watcherEnded i = false) :
    i + 1 = k.posts.length ∧ ∃ s ph, k.posts[i]? = some (some s, ph) ∧ k.handler.slot = some s := by
  have hlast := hk.last i hi
  have hm := hk.meaning
  rw [hl] at hm
  obtain ⟨s, hs, hw⟩ := hm.slot
  have hlen : k.watched.length = k.posts.length := by
    simpa using (congrArg List.length hk.sessions).symm
  have hi' : k.watched[i]? = some s := by
    rwa [List.getLast?_eq_getElem?, hlen, ← hlast, Nat.add_sub_cancel] at hw
  have hget : k.posts[i]?.map Prod.fst = some (some s) := by
    rw [← List.getElem?_map, hk.sessions, List.getElem?_map, hi']
    rfl
  obtain ⟨q, hq, hs'⟩ := Option.map_eq_some_iff.mp hget
  exact ⟨hlast, s, q.2, by rw [hq, ← hs'], hs⟩

/-- The sessions of two watchers come in the order of the watchers. -/
theorem Steady.lt_of_lt (hk : k.Steady) {i j : Nat} {s t : SessionId} (hij : i < j)
    (hi : (k.posts.map Prod.fst)[i]? = some (some s)) (hj : (k.posts.map Prod.fst)[j]? = some (some t)) :
    s < t := by
  have hget : ∀ {n : Nat} {s : SessionId}, (k.posts.map Prod.fst)[n]? = some (some s) →
      ∃ hn : n < k.watched.length, k.watched[n] = s := by
    intro n s hn
    rw [hk.sessions, List.getElem?_map] at hn
    obtain ⟨s', hs', he⟩ := Option.map_eq_some_iff.mp hn
    rw [← Option.some.inj he]
    exact List.getElem?_eq_some_iff.mp hs'
  obtain ⟨hi', rfl⟩ := hget hi
  obtain ⟨hj', rfl⟩ := hget hj
  exact List.pairwise_iff_getElem.mp hk.ascending i j hi' hj' hij

theorem unended_of_post {i : Nat} {q : Option SessionId × WatchPhase} (hq : k.posts[i]? = some q)
    (hp : q.2.isOver = false) : k.watcherEnded i = false := by
  rw [watcherEnded_eq, hq]
  exact hp

/-- A watcher interrupts a link that is up only where it lowers it. -/
theorem WatchPhase.lowers {i : Nat} {w : Watcher} {ph ph' : WatchPhase} (hi : ph.stance = .inside)
    (hk : ph.OnLink i k) (hl : k.link = .connected) (h : ph.step p k w = some (k', ph'))
    (hl' : k'.link = .reconnecting) : ∃ cause, ph = .lowerLink cause ∧ ph' = .decide cause := by
  have down : ∀ {l}, k.Restoring i l → l ≠ .connected → False := fun hr hn =>
    hn (hr.link.symm.trans hl)
  have same : k'.link = k.link → False := by
    intro hs
    rw [hs, hl] at hl'
    cases hl'
  cases turn_of_step h with
  | @lowered cause => exact ⟨cause, rfl, rfl⟩
  | foundClosed | watched | reportedUp => exact (same rfl).elim
  | declined | granted | announced | paused | stoppedPausing | resumed | expired | reportedDown =>
    exact (down hk (by simp)).elim
  | worked | raised => exact (down hk.1 (by simp)).elim
  | stopped | heard | stoppedAsking | asked | gaveUp | entered => cases hi

/-- Only the last watcher interrupts the link, when the session in the slot has ended. -/
theorem watcher_of_interrupts (h : k.Reachable) {e : Happening} (hint : k.Interrupts e k') :
    ∃ i s, Interrupter k i s k' := by
  obtain ⟨he, hl, hl'⟩ := hint
  have ho := orderly_of_reachable h
  have ne : ∀ {l : LinkState}, k'.link = l → l ≠ .reconnecting → False := fun hk hn =>
    hn (hk.symm.trans hl')
  rcases after_cases he with ⟨i, -, hs⟩ | ⟨i, -, hs⟩ | hb
  · rcases link_stepTask h hs with hk | ⟨-, hk⟩ | hk
    · exact (ne (hk.trans hl) (by simp)).elim
    · exact (ne hk (by simp)).elim
    · exact (ne hk (by simp)).elim
  · by_cases hi : k.stance (.watcher i) = .inside
    · obtain ⟨w, k₁, ph, hw, hstep, rfl⟩ := stepWatcher_eq_some hs
      rw [stance_of_watchers hw] at hi
      have hk := linkRegime_kept.watching_of_inside h hw hi
      have hpost := getElem?_posts hw
      have hpost' := posts_stepped hw hstep
      obtain ⟨cause, hph, rfl⟩ := WatchPhase.lowers hi hk hl hstep hl'
      rw [hph] at hk hpost
      have hset : k.Settled := hk
      obtain ⟨hlast, s, ph', hq, hslot⟩ := hset.attended_of_unended hl (unended_of_post hpost rfl)
      rw [hpost] at hq
      have hws : w.session = some s := (Prod.mk.inj (Option.some.inj hq)).1
      rw [hws] at hpost
      exact ⟨i, s, hset, hlast, ⟨cause, hpost, informed_of_reachable h i _ cause hpost rfl⟩, hslot,
        ⟨_, hpost', trivial⟩⟩
    · exact (ne ((aside_stepWatcher ho hs hi).link.trans hl) (by simp)).elim
  · exact (ne (hb.link.trans hl) (by simp)).elim

/-- Of two interruptions, the later one is of a newer session. -/
theorem slot_lt_of_interrupts {k₁ k₂ k₃ : Kernel} {e e' : Happening} (h : k.Reachable)
    (hint : k.Interrupts e k₁) (hr : k₁.Reaches k₂) (hint' : k₂.Interrupts e' k₃) :
    ∃ s s', k.handler.slot = some s ∧ k₂.handler.slot = some s' ∧ s < s' := by
  obtain ⟨i, s, hi⟩ := watcher_of_interrupts h hint
  have h₁ := h.after hint.1
  have h₂ := h₁.reaches hr
  obtain ⟨j, s', hj⟩ := watcher_of_interrupts h₂ hint'
  refine ⟨s, s', hi.slot, hj.slot, ?_⟩
  have hne : j ≠ i := by
    rintro rfl
    obtain ⟨q, hq, hp⟩ := pastAt_of_reaches h₁ hi.past hr
    obtain ⟨cause, hpost, -⟩ := hj.post
    rw [hpost] at hq
    cases hq
    exact hp
  obtain ⟨new, hnew⟩ := sessions_after (orderly_of_reachable h) hint.1
  obtain ⟨new', hnew'⟩ := sessions_of_reaches h₁ hr
  have hall : k₂.posts.map Prod.fst = k.posts.map Prod.fst ++ (new ++ new') := by
    rw [hnew', hnew, List.append_assoc]
  have hlen : k.posts.length ≤ k₂.posts.length := by
    have := congrArg List.length hall
    simp only [List.length_map, List.length_append] at this
    omega
  have hlt : i < j := by
    have hl := hi.last
    have hl' := hj.last
    omega
  obtain ⟨_, hpi, -⟩ := hi.post
  obtain ⟨_, hpj, -⟩ := hj.post
  have hsi : (k.posts.map Prod.fst)[i]? = some (some s) := by rw [List.getElem?_map, hpi]; rfl
  refine hj.settled.lt_of_lt hlt ?_ (by rw [List.getElem?_map, hpj]; rfl)
  rw [hall, List.getElem?_append_left (List.getElem?_eq_some_iff.mp hsi).1, hsi]

/-! ## No end is missed -/

/-- Steps of one watcher alone. -/
def Alone (i : Nat) : Kernel → Kernel → Prop :=
  Relation.ReflTransGen fun k k' => k.stepWatcher i = some k'

theorem Alone.step {i : Nat} (h : k.stepWatcher i = some k') : Alone i k k' :=
  Relation.ReflTransGen.single h

theorem Alone.trans {i : Nat} {k'' : Kernel} (h : Alone i k k') (h' : Alone i k' k'') : Alone i k k'' :=
  Relation.ReflTransGen.trans h h'

theorem stepWatcher_of_step {i : Nat} {w : Watcher} {k₁ : Kernel} {ph : WatchPhase}
    (hw : k.watchers[i]? = some w) (h : w.phase.step (.watcher i) k w = some (k₁, ph)) :
    k.stepWatcher i = some (k₁.setPhase i ph) := by
  simp [Kernel.stepWatcher, hw, h, setPhase]

theorem getElem?_watchers_setPhase {i : Nat} {w : Watcher} (hw : k.watchers[i]? = some w)
    (ph : WatchPhase) : (k.setPhase i ph).watchers[i]? = some { w with phase := ph } := by
  simp [setPhase, hw]

/-- A watcher that has heard of an end, with the gate free, comes to lower the link, and then lowers it. -/
theorem lowered_of_askGate {i : Nat} {w : Watcher} {cause : CloseCause}
    (hw : k.watchers[i]? = some w) (hp : w.phase = .askGate cause) (hst : k.watcherStopped w = false)
    (hf : k.gate.holder = none) (hl : k.link ≠ .closed) :
    ∃ gate watchers watchers', Alone i k { k with gate, watchers } ∧
      stepWatcher { k with gate, watchers } i =
        some (setLink { k with gate, watchers := watchers' } .reconnecting) := by
  let k₁ := setPhase { k with gate := k.gate.request (.watcher i) } i (.awaitGate cause)
  let k₂ := k₁.setPhase i (.lowerLink cause)
  let k₃ := (k₂.setLink .reconnecting).setPhase i (.decide cause)
  have hg : k₁.gate.heldBy (.watcher i) = true := by simp [k₁, setPhase, request, hf]
  have hw₁ : k₁.watchers[i]? = some { w with phase := .awaitGate cause } :=
    getElem?_watchers_setPhase (k := { k with gate := k.gate.request (.watcher i) }) hw _
  have hw₂ : k₂.watchers[i]? = some { w with phase := .lowerLink cause } :=
    getElem?_watchers_setPhase hw₁ _
  have hs₁ : k.stepWatcher i = some k₁ := by
    refine stepWatcher_of_step hw ?_
    simp only [hp, WatchPhase.step, hst, Bool.false_eq_true, if_false]
  have hs₂ : k₁.stepWatcher i = some k₂ := by
    refine stepWatcher_of_step hw₁ ?_
    have hst₁ : k₁.watcherStopped { w with phase := .awaitGate cause } = false := hst
    simp only [WatchPhase.step, hst₁, hg, Bool.false_eq_true, if_false, if_true]
  have hs₃ : k₂.stepWatcher i = some k₃ := by
    refine stepWatcher_of_step hw₂ ?_
    have hl₂ : k₂.link ≠ .closed := hl
    simp only [WatchPhase.step, hl₂, if_false]
  exact ⟨k₂.gate, k₂.watchers, k₃.watchers, (Alone.step hs₁).trans (.step hs₂), hs₃⟩

/-- A watcher that has heard of an end, with the gate free, interrupts the link by itself. -/
theorem interrupted_of_askGate {i : Nat} {w : Watcher} {cause : CloseCause}
    (hw : k.watchers[i]? = some w) (hp : w.phase = .askGate cause) (hst : k.watcherStopped w = false)
    (hf : k.gate.holder = none) (hl : k.link ≠ .closed) :
    ∃ k', Alone i k k' ∧ k'.link = .reconnecting := by
  obtain ⟨_, _, _, ha, hs⟩ := lowered_of_askGate hw hp hst hf hl
  exact ⟨_, ha.trans (.step hs), rfl⟩

/-- A link that is up is watched once: one watcher is left, its session is the one in the slot, and it waits
for the end of it, or has just heard why it ended. If it has ended, the watcher interrupts the link. -/
structure WatchedOnce (k : Kernel) (i : Nat) : Prop where
  left : k.watcherEnded i = false
  only : ∀ j, k.watcherEnded j = false → j = i
  post : ∃ s ph, k.posts[i]? = some (some s, ph) ∧ k.handler.slot = some s ∧
    (ph = .watching ∨ ∃ cause, ph = .askGate cause ∧ k.handler.wire.cause? s = some cause)
  heard : ∀ s cause, k.handler.slot = some s → k.handler.wire.cause? s = some cause →
    ∃ k', Alone i k k' ∧ k'.link = .reconnecting

theorem watchedOnce_of_connected (h : k.Reachable) (hf : k.gate.holder = none) (hl : k.link = .connected)
    (hlife : k.lifetimeOver = false) : ∃ i, k.WatchedOnce i := by
  have ho := orderly_of_reachable h
  have hset : k.Settled := (linkRegime_kept.custody h).settled hf
  have hm := hset.meaning
  rw [hl] at hm
  have hleft := hm.last hlife
  obtain ⟨-, s, ph, hpost, hslot⟩ := hset.attended_of_unended hl hleft
  generalize k.posts.length - 1 = i at hleft hpost
  have hout : ph.stance = .outside := by
    have hst : k.stance (.watcher i) = ph.stance := by simp [stance, hpost]
    have hposted := ho.posted (.watcher i)
    rw [hst] at hposted
    cases hs : ph.stance with
    | outside => rfl
    | waiting | inside =>
      rw [hs] at hposted
      simp [Posted, Involves, hf, ho.sound.free hf] at hposted
  have hnot : ph.isOver = false := by
    rw [watcherEnded_eq, hpost] at hleft
    exact hleft
  obtain ⟨w, hw, hwp⟩ : ∃ w, k.watchers[i]? = some w ∧ (w.session, w.phase) = (some s, ph) := by
    simp only [posts, List.getElem?_map] at hpost
    exact Option.map_eq_some_iff.mp hpost
  obtain ⟨hws, rfl⟩ := Prod.mk.inj hwp
  have hstop : k.watcherStopped w = false := by
    cases hs : k.watcherStopped w with
    | false => rfl
    | true =>
      have := ho.watcherStopped hw hs
      rw [hlife] at this
      cases this
  have hphase : w.phase = .watching ∨ ∃ cause, w.phase = .askGate cause := by
    cases hp : w.phase with
    | watching => exact .inl rfl
    | askGate cause => exact .inr ⟨cause, rfl⟩
    | ended exit =>
      rw [hp] at hnot
      cases hnot
    | _ =>
      rw [hp] at hout
      cases hout
  have hclosed : k.link ≠ .closed := by simp [hl]
  refine ⟨i, hleft, hset.onlyLeft hleft, ⟨s, w.phase, hpost, hslot, ?_⟩, ?_⟩
  · rcases hphase with hp | ⟨cause, hp⟩
    · exact .inl hp
    · exact .inr ⟨cause, hp, informed_of_reachable h i _ cause hpost (by simp [hp, WatchPhase.heard])⟩
  · intro t cause ht hc
    rw [hslot] at ht
    cases ht
    rcases hphase with hp | ⟨cause', hp⟩
    · have hcause : k.watchedCause w = some cause := by
        unfold watchedCause
        rw [hws]
        exact hc
      have hs : k.stepWatcher i = some (k.setPhase i (.askGate cause)) := by
        refine stepWatcher_of_step hw ?_
        simp [hp, WatchPhase.step, hstop, hcause]
      obtain ⟨k', ha, hk'⟩ := interrupted_of_askGate (k := k.setPhase i (.askGate cause))
        (getElem?_watchers_setPhase hw _) rfl hstop hf hclosed
      exact ⟨k', (Alone.step hs).trans ha, hk'⟩
    · exact interrupted_of_askGate hw hp hstop hf hclosed

/-- The link moves only as it may, its flag agrees with it, and whenever nobody holds the gate and neither a
close nor a drop has begun, it is up and watched once, or it is down and nobody watches it. Each end of a
session interrupts the link at most once. -/
theorem link_watched (h : k.Reachable) :
    (∀ e k', k.after e = some k' →
      LinkMoves k.link k'.link ∧ (k.link = .closed → k'.link = .closed)) ∧
    (k.connected = true ↔ k.link = .connected) ∧
    (k.gate.holder = none → k.disposed = false → k.lifetimeOver = false →
      (k.link = .connected ∧ ∃ i, k.WatchedOnce i) ∨
        ((k.link = .unopened ∨ k.link = .lost) ∧ k.Unwatched)) ∧
    ∀ e k₁ k₂ e' k₃, k.Interrupts e k₁ → k₁.Reaches k₂ → k₂.Interrupts e' k₃ →
      ∃ s s', k.handler.slot = some s ∧ k₂.handler.slot = some s' ∧ s < s' := by
  refine ⟨fun e k' he => ?_, ?_, fun hf hd hlife => ?_, fun e k₁ k₂ e' k₃ h₁ hr h₂ =>
    slot_lt_of_interrupts h h₁ hr h₂⟩
  · have hm := linkMoves_after h he
    exact ⟨hm, fun hc => LinkMoves.eq_closed (hc ▸ hm)⟩
  · rw [(steady_of_reachable h).connected, decide_eq_true_eq]
  · have hset : k.Settled := (linkRegime_kept.custody h).settled hf
    have hm := hset.meaning
    cases hl : k.link with
    | unopened | lost =>
      rw [hl] at hm
      exact .inr ⟨by simp, hm⟩
    | reconnecting =>
      rw [hl] at hm
      rw [hm.2] at hlife
      cases hlife
    | connected => exact .inl ⟨rfl, watchedOnce_of_connected h hf hl hlife⟩
    | closed =>
      rw [hl] at hm
      rw [show k.disposed = true from hm] at hd
      cases hd

/-- After a first open call the link is up and watched once. -/
theorem link_watched_firstOpening :
    ∃ k, (initial none .standard).course firstOpening = some k ∧ k.link = .connected ∧
      ∃ i, k.WatchedOnce i := by
  obtain ⟨k, hc, hl, hf, hd, hlife⟩ := firstOpening_connected
  refine ⟨k, hc, hl, ?_⟩
  have h := link_watched ⟨none, .standard, reaches_of_course hc⟩
  rcases h.2.2.1 hf hd hlife with ⟨-, hw⟩ | ⟨hl' | hl', -⟩
  · exact hw
  · rw [hl] at hl'
    cases hl'
  · rw [hl] at hl'
    cases hl'

end HubDevice.Kernel
