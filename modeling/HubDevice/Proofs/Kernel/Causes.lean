import HubDevice.Proofs.Kernel.Attempts
import HubDevice.Proofs.Kernel.Closure
import HubDevice.Proofs.Kernel.Leftover

/-!
# What a state goes back to

What has led to a state is read off the history of its run. That a client is disposed goes back to a close call
that has begun (`begun_of_disposed`), that everything in the background has to stop to such a call or to a drop
(`cause_of_lifetimeOver`), and that the link is lost to a watcher that has given up (`gaveUp_of_lost`).

An open call or a watcher looks for a close before it raises the link. A close call that begins between these two
steps finds the link raised after it (`RaisedLate`). In between the party does not wait for anything, so that
this needs a second thread: on runs in which nobody is interrupted there (`Uninterrupted`), the link is never
raised late (`not_raisedLate`).
-/

namespace HubDevice.Kernel

open FairLock Retry Wire

variable {p : Party} {k k' : Kernel} {e : Happening} {i : Nat} {l : List (Kernel × Happening)}
  {interval : Option Span} {policy : Policy}

/-! ## A client that is being closed -/

theorem begun_of_disposed (hp : Path (initial interval policy) l k) (hd : k.disposed = true) :
    ∃ x ∈ l, BeginsClose x := by
  induction hp with
  | refl => cases hd
  | @tail l k k' e hp he ih =>
    cases hk : k.disposed with
    | true =>
      obtain ⟨x, hx, hb⟩ := ih hk
      exact ⟨x, List.mem_cons_of_mem _ hx, hb⟩
    | false =>
      rcases notes_after (orderly_of_reachable (hp.reachable (reachable_initial interval policy))) he with
        hn | ⟨i, rfl, hn⟩
      · rw [hn.disposed, hk] at hd
        cases hd
      · cases hn with
        | disposed ht => exact ⟨(k, .stepTask i), List.mem_cons_self, i, _, rfl, ht⟩
        | raised | concluded =>
          have hd : k.disposed = true := hd
          rw [hk] at hd
          cases hd

/-! ## The end of everything in the background -/

theorem Relays.lifetimeOver_eq {A : Scope} (h : k.Relays A k') : k'.lifetimeOver = k.lifetimeOver := by
  obtain ⟨_, _, rfl, -⟩ := h
  rfl

theorem Admission.Turn.lifetimeOver_eq {a : Admission} {q : Progress Admission (Except ClientError Unit)}
    (h : a.Turn p k k' q) : k'.lifetimeOver = k.lifetimeOver := by cases h <;> rfl

theorem Admission.lifetimeOver_abandon (a : Admission) : (a.abandon p k).lifetimeOver = k.lifetimeOver := by
  cases a <;> rfl

theorem Guarded.lifetimeOver_turn {x : Exchange} {c : Bool} {run : Run Guarded}
    {q : Progress (Run Guarded) (Except ClientError Reply)} (h : Run.Turn (guarded x p) c k run k' q) :
    k'.lifetimeOver = k.lifetimeOver := by
  refine h.unchanged lifetimeOver (fun hs => ?_) (fun a => ?_) fun _ _ _ _ => rfl
  · cases turn_of_step hs with
    | admitting ht | admitted ht | refused ht => exact ht.lifetimeOver_eq
    | calling | returned => rfl
  · cases a with
    | admission a => exact a.lifetimeOver_abandon
    | calling f => rfl

theorem Toggling.lifetimeOver_turn {f : Feature} {enable edge c : Bool} {run : Run Toggling}
    {q : Progress (Run Toggling) (Except ClientError Reply)}
    (h : Run.Turn (Kernel.toggling f enable edge p) c k run k' q) : k'.lifetimeOver = k.lifetimeOver := by
  refine h.unchanged lifetimeOver (fun hs => ?_) (fun a => ?_) fun _ _ _ _ => rfl
  · cases turn_of_step hs with
    | admitting ht | admitted ht | refused ht => exact ht.lifetimeOver_eq
    | _ => rfl
  · cases a with
    | admission a => exact a.lifetimeOver_abandon
    | _ => rfl

theorem OpenPhase.lifetimeOver_step {token : Nat} {ph : OpenPhase}
    {q : Progress OpenPhase (Except ClientError Unit)} (h : ph.step token p k = some (k', q)) :
    k'.lifetimeOver = k.lifetimeOver := by
  cases turn_of_step h with
  | overtaken => exact (relays_overtaken k k token _).lifetimeOver_eq
  | worked _ ht => exact (relays_worked ht).lifetimeOver_eq
  | _ => rfl

theorem WatchPhase.lifetimeOver_step {w : Watcher} {ph ph' : WatchPhase} (h : ph.step p k w = some (k', ph')) :
    k'.lifetimeOver = k.lifetimeOver := by
  cases turn_of_step h with
  | worked ht hq =>
    have hl := (relays_recovering ht).lifetimeOver_eq
    cases hq <;> exact hl
  | _ => rfl

theorem ClosePhase.lifetimeOver_step {ph : ClosePhase} {q : Progress ClosePhase (Except ClientError Unit)}
    (h : ph.step p k = some (k', q)) : k'.lifetimeOver = k.lifetimeOver ∨ ph = .endLifetime := by
  cases turn_of_step h with
  | lifetimeEnded => exact .inr rfl
  | dismissed =>
    refine .inl ?_
    unfold dismissWatcher
    split <;> rfl
  | _ => exact .inl rfl

/-- Only a close call, which has disposed of the client by then, and a drop end what goes on in the background. -/
theorem lifetimeOver_after (he : k.after e = some k') :
    k'.lifetimeOver = k.lifetimeOver ∨ e = .drop ∨
      ∃ i token, e = .stepTask i ∧ k.tasks[i]? = some ⟨token, .closing .endLifetime⟩ := by
  cases e with
  | stepTask i =>
    obtain ⟨⟨token, t⟩, k₁, t', ht, hs, rfl⟩ := stepTask_eq_some he
    show k₁.lifetimeOver = k.lifetimeOver ∨ _
    cases t with
    | ready request => cases request <;> cases hs <;> exact .inl rfl
    | opening ph =>
      obtain ⟨q, hq, -⟩ := ofPart_eq_some hs
      exact .inl (OpenPhase.lifetimeOver_step hq)
    | closing ph =>
      obtain ⟨q, hq, -⟩ := ofPart_eq_some hs
      rcases ClosePhase.lifetimeOver_step hq with hl | rfl
      · exact .inl hl
      · exact .inr (.inr ⟨i, token, rfl, ht⟩)
    | running x run =>
      obtain ⟨q, hq, -⟩ := ofPart_eq_some hs
      exact .inl (Guarded.lifetimeOver_turn (Run.turn_of_step hq))
    | toggling f enable edge run =>
      obtain ⟨q, hq, -⟩ := ofPart_eq_some hs
      exact .inl (Toggling.lifetimeOver_turn (Run.turn_of_step hq))
    | ended r => cases hs
  | stepWatcher i =>
    obtain ⟨w, k₁, ph, -, hs, rfl⟩ := stepWatcher_eq_some he
    have hl := WatchPhase.lifetimeOver_step hs
    exact .inl hl
  | stepRefresher i =>
    obtain ⟨_, -, rfl⟩ := Option.map_eq_some_iff.mp he
    exact .inl rfl
  | drop => exact .inr (.inl rfl)
  | discard =>
    simp only [after] at he
    split at he <;> cases he
    exact .inl rfl
  | _ =>
    cases he
    exact .inl rfl

/-- Everything in the background has to stop because a close call has begun, or the client was dropped. -/
theorem cause_of_lifetimeOver (hp : Path (initial interval policy) l k) (hl : k.lifetimeOver = true) :
    ∃ x ∈ l, x.2 = .drop ∨ BeginsClose x := by
  induction hp with
  | refl => cases hl
  | @tail l k k' e hp he ih =>
    have hord := orderly_of_reachable (hp.reachable (reachable_initial interval policy))
    rcases lifetimeOver_after he with hsame | rfl | ⟨i, token, -, ht⟩
    · obtain ⟨x, hx, hc⟩ := ih (hsame.symm.trans hl)
      exact ⟨x, List.mem_cons_of_mem _ hx, hc⟩
    · exact ⟨(k, .drop), List.mem_cons_self, .inl rfl⟩
    · obtain ⟨x, hx, hb⟩ := begun_of_disposed hp (hord.due ht)
      exact ⟨x, List.mem_cons_of_mem _ hx, .inr hb⟩

/-! ## A link that is lost -/

/-- A watcher gives the recovery of the link up. -/
def GivesUp (x : Kernel × Happening) : Prop :=
  ∃ i k', x.2 = .stepWatcher i ∧ x.1.after x.2 = some k' ∧ x.1.link = .reconnecting ∧ k'.link = .lost

theorem gaveUp_of_lost (hp : Path (initial interval policy) l k) (hl : k.link = .lost) :
    ∃ x ∈ l, GivesUp x := by
  induction hp with
  | refl => cases hl
  | @tail l k k' e hp he ih =>
    have hr := hp.reachable (reachable_initial interval policy)
    by_cases hk : k.link = .lost
    · obtain ⟨x, hx, hg⟩ := ih hk
      exact ⟨x, List.mem_cons_of_mem _ hx, hg⟩
    · have hfrom : k.link = .reconnecting := by
        have hm := linkMoves_after hr he
        rw [hl] at hm
        generalize k.link = from₀ at hk hm
        cases hm with
        | stays => exact absurd rfl hk
        | gaveUp => rfl
      rcases after_cases he with ⟨i, -, hs⟩ | ⟨i, rfl, -⟩ | hb
      · rcases link_stepTask hr hs with hsame | ⟨-, hc⟩ | hc
        · exact absurd (hsame.symm.trans hl) hk
        · exact absurd (hc.symm.trans hl) (by simp)
        · exact absurd (hc.symm.trans hl) (by simp)
      · exact ⟨(k, .stepWatcher i), List.mem_cons_self, i, k', rfl, he, hfrom, hl⟩
      · exact absurd (hb.link.symm.trans hl) hk

/-! ## A link that is raised late -/

/-- About to raise the link. -/
def Raising (k : Kernel) : Party → Prop
  | .task i => ∃ token, k.tasks[i]? = some ⟨token, .opening .raiseLink⟩
  | .watcher i => ∃ s, k.posts[i]? = some (s, .raiseLink)

/-- In a step the link is raised although a close call has begun. -/
def RaisedLate (x : Kernel × Happening) : Prop :=
  x.1.disposed = true ∧ x.1.link ≠ .connected ∧ ∃ k', x.1.after x.2 = some k' ∧ k'.link = .connected

/-- A party is between two steps of which the second follows on the first without any wait: it has looked for a
close and is about to raise the link, or it has begun a close and is about to end what goes on in the background. -/
def Amid (k : Kernel) (p : Party) : Prop :=
  k.Raising p ∨ ∃ i token, p = .task i ∧ k.tasks[i]? = some ⟨token, .closing .endLifetime⟩

/-- Nobody is interrupted between two such steps, as on a single thread. -/
def Uninterrupted (l : List (Kernel × Happening)) : Prop := ∀ x ∈ l, ∀ p, x.1.Amid p → x.2 = p.step

theorem OpenPhase.raises_step {token : Nat} {ph : OpenPhase} {q : Progress OpenPhase (Except ClientError Unit)}
    (h : ph.step token p k = some (k', q)) (hl : k.link ≠ .connected) (hl' : k'.link = .connected) :
    ph = .raiseLink := by
  cases turn_of_step h with
  | raised => rfl
  | overtaken => exact absurd ((relays_overtaken k k token _).link_eq.symm.trans hl') hl
  | worked _ ht => exact absurd ((relays_worked ht).link_eq.symm.trans hl') hl
  | _ => exact absurd hl' hl

theorem WatchPhase.raises_step {w : Watcher} {ph ph' : WatchPhase} (h : ph.step p k w = some (k', ph'))
    (hl : k.link ≠ .connected) (hl' : k'.link = .connected) : ph = .raiseLink := by
  cases turn_of_step h with
  | raised => rfl
  | worked ht hq =>
    have hsame := (relays_recovering ht).link_eq
    cases hq with
    | failed => cases hl'
    | _ => exact absurd (hsame.symm.trans hl') hl
  | lowered | declined => cases hl'
  | _ => exact absurd hl' hl

theorem raising_of_raised (he : k.after e = some k') (hl : k.link ≠ .connected)
    (hl' : k'.link = .connected) : ∃ p, e = p.step ∧ k.Raising p := by
  rcases after_cases he with ⟨i, rfl, hs⟩ | ⟨i, rfl, hs⟩ | hb
  · obtain ⟨⟨token, t⟩, k₁, t', ht, hstep, rfl⟩ := stepTask_eq_some hs
    cases t with
    | ready request => cases request <;> cases hstep <;> exact absurd hl' hl
    | opening ph =>
      obtain ⟨q, hq, -⟩ := ofPart_eq_some hstep
      obtain rfl := OpenPhase.raises_step hq hl hl'
      exact ⟨.task i, rfl, token, ht⟩
    | closing ph =>
      obtain ⟨q, hq, -⟩ := ofPart_eq_some hstep
      cases ClosePhase.turn_of_step hq with
      | lowered | loweredUnopened => cases hl'
      | dismissed => exact absurd ((aside_dismissWatcher k).link.symm.trans hl') hl
      | _ => exact absurd hl' hl
    | running x run =>
      obtain ⟨q, hq, -⟩ := ofPart_eq_some hstep
      exact absurd ((Guarded.aside_turn (Run.turn_of_step hq)).link.symm.trans hl') hl
    | toggling f enable edge run =>
      obtain ⟨q, hq, -⟩ := ofPart_eq_some hstep
      exact absurd ((Toggling.still_turn (Run.turn_of_step hq)).link.symm.trans hl') hl
    | ended r => cases hstep
  · obtain ⟨w, k₁, ph, hw, hstep, rfl⟩ := stepWatcher_eq_some hs
    have hph := WatchPhase.raises_step hstep hl hl'
    exact ⟨.watcher i, rfl, w.session, by rw [getElem?_posts hw, hph]⟩
  · exact absurd (hb.link.symm.trans hl') hl

theorem Relays.disposed_eq {A : Scope} (h : k.Relays A k') : k'.disposed = k.disposed := by
  obtain ⟨_, _, rfl, -⟩ := h
  rfl

/-- An open call that comes to raise the link has looked for a close. -/
theorem OpenPhase.looked_of_step {token : Nat} {ph : OpenPhase}
    (h : ph.step token p k = some (k', .more .raiseLink)) :
    ph.stance = .inside ∧ k.lifetimeOver = false ∧ k'.disposed = k.disposed := by
  generalize hq : Progress.more OpenPhase.raiseLink = q at h
  cases turn_of_step h with
  | worked hl ht => exact ⟨rfl, hl, (relays_worked ht).disposed_eq⟩
  | _ => cases hq

theorem WatchPhase.looked_of_step {w : Watcher} {ph : WatchPhase} (h : ph.step p k w = some (k', .raiseLink)) :
    ph.stance = .inside ∧ k.lifetimeOver = false ∧ k'.disposed = k.disposed := by
  cases turn_of_step h with
  | worked ht hq =>
    cases hq with
    | restored hst =>
      exact ⟨rfl, (Bool.or_eq_false_iff.mp hst).2, (relays_recovering ht).disposed_eq⟩

theorem posts_after_of_ne (ho : k.Orderly) (he : k.after e = some k') (hne : e ≠ .stepWatcher i)
    {q : Option SessionId × WatchPhase} (hq : k'.posts[i]? = some q) :
    k.posts[i]? = some q ∨ q.2 = .watching := by
  have appended : ∀ {new : List (Option SessionId × WatchPhase)}, (∀ q ∈ new, q.2 = .watching) →
      (k.posts ++ new)[i]? = some q → k.posts[i]? = some q ∨ q.2 = .watching := by
    intro new hn hq
    rw [List.getElem?_append] at hq
    split at hq
    · exact .inl hq
    · exact .inr (hn q (List.mem_of_getElem? hq))
  rcases after_cases he with ⟨j, -, hs⟩ | ⟨j, rfl, hs⟩ | hb
  · obtain ⟨-, new, hnew, hn⟩ := others_stepTask ho hs
    exact appended hn (hnew ▸ hq)
  · obtain ⟨-, new, hn, -, hposts⟩ := others_stepWatcher hs
    exact appended hn (hposts i (fun hij => hne (hij ▸ rfl)) ▸ hq)
  · exact .inl (hb.posts ▸ hq)

/-- How a party comes to raise the link: it was about to, or has just looked for a close. -/
theorem raising_after (ho : k.Orderly) (he : k.after e = some k') (h : k'.Raising p) :
    e ≠ p.step ∧ k.Raising p ∨
      e = p.step ∧ k.stance p = .inside ∧ k.lifetimeOver = false ∧ k'.disposed = k.disposed := by
  by_cases hep : e = p.step
  · subst hep
    refine .inr ⟨rfl, ?_⟩
    cases p with
    | task i =>
      obtain ⟨token, ht⟩ := h
      obtain ⟨⟨token', t⟩, k₁, t', ht₀, hs, rfl⟩ := stepTask_eq_some he
      have hi : i < k₁.tasks.length := by
        rw [(Task.movement (ho.lifetimeOver ht₀) hs).tasks]
        exact (List.getElem?_eq_some_iff.mp ht₀).1
      rw [List.getElem?_set_self hi] at ht
      cases ht
      rcases Task.opening_of_step hs with ⟨-, hph⟩ | ⟨ph, rfl, hph⟩
      · cases hph
      · obtain ⟨hin, hl, hd⟩ := OpenPhase.looked_of_step hph
        exact ⟨(stance_of_tasks ht₀).trans hin, hl, hd⟩
    | watcher i =>
      obtain ⟨s, hq⟩ := h
      obtain ⟨w, k₁, ph, hw, hs, rfl⟩ := stepWatcher_eq_some he
      cases (posts_stepped hw hs).symm.trans hq
      obtain ⟨hin, hl, hd⟩ := WatchPhase.looked_of_step hs
      exact ⟨(stance_of_watchers hw).trans hin, hl, hd⟩
  · refine .inl ⟨hep, ?_⟩
    cases p with
    | task i =>
      obtain ⟨token, ht⟩ := h
      rcases tasks_after ho he i with hsame | ⟨-, _, _, hnew⟩ | ⟨_, _, _, hei, -⟩
      · exact ⟨token, hsame.symm.trans ht⟩
      · cases hnew.symm.trans ht
      · exact absurd hei hep
    | watcher i =>
      obtain ⟨s, hq⟩ := h
      rcases posts_after_of_ne ho he hep hq with hq | hq
      · exact ⟨s, hq⟩
      · cases hq

theorem lifetimeOver_mono (ho : k.Orderly) (he : k.after e = some k') (hl : k.lifetimeOver = true) :
    k'.lifetimeOver = true := by
  rcases after_cases he with ⟨i, -, hs⟩ | ⟨i, -, hs⟩ | hb
  · obtain ⟨o, k₁, t, ht, hstep, rfl⟩ := stepTask_eq_some hs
    exact (Task.movement (ho.lifetimeOver ht) hstep).lifetimeOver hl
  · obtain ⟨w, k₁, ph, -, hstep, rfl⟩ := stepWatcher_eq_some hs
    exact (WatchPhase.movement hstep).lifetimeOver hl
  · exact hb.lifetimeOver hl

/-- A close call that has begun is about to end what goes on in the background, or has done so, and nobody is
about to raise the link by then. -/
structure Prompt (k : Kernel) : Prop where
  ended : k.disposed = true → k.lifetimeOver = true ∨
    ∃ i token : Nat, k.tasks[i]? = some ⟨token, .closing .endLifetime⟩
  undisposed : ∀ p, k.Raising p → k.disposed = false

theorem Prompt.after (h : k.Prompt) (ho : k.Orderly) (hu : ∀ p, k.Amid p → e = p.step)
    (he : k.after e = some k') : k'.Prompt where
  ended hd := by
    cases hk : k.disposed with
    | true =>
      rcases h.ended hk with hl | ⟨i, token, ht⟩
      · exact .inl (lifetimeOver_mono ho he hl)
      · obtain rfl := hu (.task i) (.inr ⟨i, token, rfl, ht⟩)
        obtain ⟨_, k₁, t, ht', hs, rfl⟩ := stepTask_eq_some he
        cases ht.symm.trans ht'
        cases hs
        exact .inl rfl
    | false =>
      rcases notes_after ho he with hn | ⟨i, -, hn⟩
      · rw [hn.disposed, hk] at hd
        cases hd
      · cases hn with
        | disposed ht =>
          exact .inr ⟨i, _, List.getElem?_set_self (List.getElem?_eq_some_iff.mp ht).1⟩
        | raised | concluded =>
          have hd : k.disposed = true := hd
          rw [hk] at hd
          cases hd
  undisposed p hp := by
    rcases raising_after ho he hp with ⟨hne, hk⟩ | ⟨rfl, hin, hl, hd⟩
    · exact absurd (hu p (.inl hk)) hne
    · rw [hd]
      refine eq_false_of_ne_true fun hk => ?_
      rcases h.ended hk with hl' | ⟨i, token, ht⟩
      · rw [hl] at hl'
        cases hl'
      · -- The step is that of the close call, which is not inside.
        have hstep := hu (.task i) (.inr ⟨i, token, rfl, ht⟩)
        cases p with
        | watcher j => cases hstep
        | task j =>
          cases hstep
          cases (stance_of_tasks ht).symm.trans hin

theorem prompt_of_path (hp : Path (initial interval policy) l k) (hu : Uninterrupted l) : k.Prompt := by
  induction hp with
  | refl =>
    refine ⟨fun hd => ?_, fun p hr => ?_⟩
    · cases hd
    · cases p <;> obtain ⟨_, h⟩ := hr <;> cases h
  | @tail l k k' e hp he ih =>
    exact (ih fun x hx => hu x (List.mem_cons_of_mem _ hx)).after
      (orderly_of_reachable (hp.reachable (reachable_initial interval policy)))
      (hu (k, e) List.mem_cons_self) he

/-- Nobody raises the link late as long as nobody is interrupted. -/
theorem not_raisedLate (hp : Path (initial interval policy) l k) (hu : Uninterrupted l) :
    ∀ x ∈ l, ¬ RaisedLate x := by
  rintro x hx ⟨hd, hl, k', he, hl'⟩
  obtain ⟨newer, older, rfl⟩ := List.append_of_mem hx
  obtain ⟨hp', -⟩ := hp.cut
  obtain ⟨p, -, hr⟩ := raising_of_raised he hl hl'
  have hprompt := prompt_of_path hp' fun y hy => hu y (by simp [hy])
  rw [hprompt.undisposed p hr] at hd
  cases hd

end HubDevice.Kernel
