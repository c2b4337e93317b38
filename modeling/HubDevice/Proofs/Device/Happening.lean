import HubDevice.Device.Instance
import HubDevice.Proofs.Device.Count
import Mathlib.Tactic.Common

/-!
# What can happen to a device

Operations are started, take steps, and are given up by whoever started them; the kernel lives its own life beside
them, and requests arrive. What moves an operation, one of its own steps or its caller letting go, changes no other
operation (`change_of_after`).
-/

namespace HubDevice.Device

variable {d d' : Device} {token i : Nat} {t t' : Task}

/-- What is left when the caller of an operation lets go of it, which can be done where it waits. A part of it in the
kernel is given up as well, which leaves that kernel. A send gives its guard back. -/
def Task.abandon (i : Nat) (kernel : Kernel) (d : Device) : Task → Option (Device × Task)
  | .send _ .enter => some (d, .ended (.error .cancelled))
  | .send m (.sending _) => some ({ d with kernel }, .send m (.leaving .leave (.error .cancelled)))
  | .send _ (.leaving _ _) => none
  | .next .askTurn => some (d, .ended (.error .cancelled))
  | .next .awaitTurn | .next .receive => some ({ d with turn := d.turn.withdraw i }, .ended (.error .cancelled))
  | .shutdown (.draining _) => some (d, .ended (.error .cancelled))
  | .shutdown (.closing _) => some ({ d with kernel }, .ended (.error .cancelled))
  | .ended _ => none

/-- The caller of the operation with a number lets go of it. -/
def abandon (d : Device) (i : Nat) (kernel : Kernel) : Option Device := do
  let o ← d.tasks[i]?
  let (d, task) ← o.task.abandon i kernel d
  return { d with tasks := d.tasks.set i { o with task } }

/-- What can happen to a device. -/
inductive Happening where
  | send (token : Nat) (m : Message)
  | next (token : Nat)
  | shutdown (token : Nat)
  | step (i : Nat)
  | abandon (i : Nat) (kernel : Kernel)
  | kernel (e : Kernel.Happening)
  /-- A session offers a request. -/
  | arrive (r : IncomingRequest)
  /-- No session is left, and none will be made. -/
  | hangUp
  | drop

/-- What a happening makes of a device; nothing when it cannot happen. -/
def after (d : Device) : Happening → Option Device
  | .send token m => some (d.startSend token m).1
  | .next token => some (d.startNext token).1
  | .shutdown token => some (d.startShutdown token).1
  | .step i => d.stepTask i
  | .abandon i kernel => d.abandon i kernel
  | .kernel e => (d.kernel.after e).map fun kernel => { d with kernel }
  | .arrive r => some { d with requests := (d.requests.offer r).1 }
  | .hangUp => some { d with requests := d.requests.hangUp }
  | .drop => some d.drop

/-! ## What moves an operation -/

/-- What an operation does next, or what becomes of it when its caller lets go. Results that do not matter outside of
the kernel, and what happens in there, are left open. -/
inductive Task.Turn (token : Nat) (d : Device) : Task → Device → Task → Prop where
  /-- A send is given up before it has begun. -/
  | unbegun (m : Message) : Turn token d (.send m .enter) d (.ended (.error .cancelled))
  | entered (m : Message) (kernel : Kernel) (task : Nat) :
      Turn token d (.send m .enter) { d with kernel, drain := d.drain.enter } (.send m (.sending task))
  | worked (m : Message) (kernel : Kernel) (task : Nat) :
      Turn token d (.send m (.sending task)) { d with kernel } (.send m (.sending task))
  | settled (m : Message) (kernel : Kernel) (task : Nat) (r : Except ClientError Reply) :
      Turn token d (.send m (.sending task)) { d with kernel } (.send m (.leaving .leave r))
  | left (m : Message) (r : Except ClientError Reply) : d.drain.inflight ≠ 1 →
      Turn token d (.send m (.leaving .leave r)) { d with drain.inflight := d.drain.inflight - 1 }
        (.ended (r.map .reply))
  | leftLast (m : Message) (r : Except ClientError Reply) : d.drain.inflight = 1 →
      Turn token d (.send m (.leaving .leave r)) { d with drain.inflight := d.drain.inflight - 1 }
        (.send m (.leaving .notify r))
  | noticed (m : Message) (r : Except ClientError Reply) :
      Turn token d (.send m (.leaving .notify r)) { d with drain.notices := d.drain.notices + 1 } (.ended (r.map .reply))
  | queued (turn : FairLock Nat) (ph ph' : NextPhase) : Turn token d (.next ph) { d with turn } (.next ph')
  | refused (turn : FairLock Nat) (ph : NextPhase) : Turn token d (.next ph) { d with turn } (.ended (.error .cancelled))
  | received (turn : FairLock Nat) {requests : Inbox IncomingRequest} {r : Option IncomingRequest} :
      d.requests.take? = some (requests, r) →
      Turn token d (.next .receive) { d with requests, turn } (.ended (.ok (.request r)))
  | watched (w w' : Drain.Waiting) : Turn token d (.shutdown (.draining w)) d (.shutdown (.draining w'))
  | closes (w : Drain.Waiting) (kernel : Kernel) (task : Nat) : d.kernel.tokenFired token = true ∨ d.drain.inflight = 0 →
      Turn token d (.shutdown (.draining w)) { d with kernel } (.shutdown (.closing task))
  | closing (kernel : Kernel) (task : Nat) :
      Turn token d (.shutdown (.closing task)) { d with kernel } (.shutdown (.closing task))
  | closed (kernel : Kernel) (ph : ShutdownPhase) (r : Except ClientError Reply) :
      Turn token d (.shutdown ph) { d with kernel } (.ended (r.map .reply))

theorem ofPart_eq_some {α β : Type} {wrap : α → Task} {value : β → DeviceReply}
    {st : Step Device α (Except ClientError β)} (h : ofPart wrap value st = some (d', t')) :
    (∃ a, st = some (d', .more a) ∧ t' = wrap a) ∨ ∃ r, st = some (d', .done r) ∧ t' = .ended (r.map value) := by
  obtain ⟨⟨d₁, pr⟩, hst, he⟩ := Option.map_eq_some_iff.mp h
  cases he
  cases pr with
  | more a => exact .inl ⟨a, hst, rfl⟩
  | done r => exact .inr ⟨r, hst, rfl⟩

theorem SendPhase.turn {m : Message} {ph : SendPhase} (h : ofPart (.send m) .reply (ph.step token m d) = some (d', t')) :
    Task.Turn token d (.send m ph) d' t' := by
  cases ph with
  | enter =>
    cases h
    exact .entered m _ _
  | sending task =>
    simp only [step] at h
    split at h
    · cases h
      exact .settled m d.kernel task _
    · cases hs : d.kernel.stepTask task with
      | none =>
        rw [hs] at h
        cases h
      | some kernel =>
        rw [hs] at h
        cases h
        exact .worked m kernel task
  | leaving l r =>
    cases hl : l.step d.drain with
    | none => simp [step, hl, ofPart] at h
    | some p =>
      obtain ⟨drain, pr⟩ := p
      simp only [step, hl, Option.map_some, ofPart] at h
      cases Drain.Leaving.turn_of_step hl with
      | left hone =>
        cases h
        exact .left m r hone
      | leftLast hone =>
        cases h
        exact .leftLast m r hone
      | noticed =>
        cases h
        exact .noticed m r

theorem NextPhase.turn {ph : NextPhase} (h : ofPart .next .request (ph.step token i d) = some (d', t')) :
    Task.Turn token d (.next ph) d' t' := by
  cases ph with
  | askTurn =>
    simp only [step] at h
    split at h <;> cases h
    · exact .refused d.turn _
    · exact .queued _ _ _
  | awaitTurn =>
    simp only [step] at h
    split at h
    · cases h
      exact .refused _ _
    · split at h <;> cases h
      exact .queued d.turn _ _
  | receive =>
    simp only [step] at h
    split at h
    · cases h
      exact .refused _ _
    · cases ht : d.requests.take? with
      | none =>
        rw [ht] at h
        cases h
      | some p =>
        rw [ht] at h
        cases h
        exact .received _ ht

theorem ShutdownPhase.turn {ph : ShutdownPhase} (h : ofPart .shutdown .reply (ph.step token d) = some (d', t')) :
    Task.Turn token d (.shutdown ph) d' t' := by
  cases ph with
  | draining w =>
    simp only [step] at h
    split at h
    · rename_i hf
      cases h
      exact .closes w _ _ (.inl hf)
    · cases hw : w.step d.drain with
      | none => simp [hw, ofPart] at h
      | some p =>
        obtain ⟨drain, pr⟩ := p
        obtain ⟨rfl, hturn⟩ := Drain.Waiting.turn_of_step hw
        rw [hw] at h
        cases hturn with
        | found n hidle =>
          cases h
          exact .closes _ _ _ (.inr hidle)
        | registered | parked | woken =>
          cases h
          exact .watched _ _
  | closing task =>
    simp only [step] at h
    split at h
    · cases h
      exact .closed d.kernel _ _
    · cases hs : d.kernel.stepTask task with
      | none =>
        rw [hs] at h
        cases h
      | some kernel =>
        rw [hs] at h
        cases h
        exact .closing kernel task

theorem Task.turn_of_step (h : t.step token i d = some (d', t')) : t.Turn token d d' t' := by
  cases t with
  | send m ph => exact SendPhase.turn h
  | next ph => exact NextPhase.turn h
  | shutdown ph => exact ShutdownPhase.turn h
  | ended r => cases h

theorem Task.turn_of_abandon {kernel : Kernel} (h : t.abandon i kernel d = some (d', t')) : t.Turn token d d' t' := by
  cases t with
  | send m ph =>
    cases ph <;> cases h
    · exact .unbegun m
    · exact .settled m kernel _ _
  | next ph =>
    cases ph <;> cases h
    · exact .refused d.turn _
    · exact .refused _ _
    · exact .refused _ _
  | shutdown ph =>
    cases ph <;> cases h
    · exact .closed d.kernel _ (.error .cancelled)
    · exact .closed kernel _ (.error .cancelled)
  | ended r => cases h

theorem Task.Turn.tasks (h : Task.Turn token d t d' t') : d'.tasks = d.tasks := by
  cases h <;> rfl

/-! ## What happens to the device -/

/-- What a happening does: it starts an operation, or moves one, or leaves all operations and the count of the sends
alone. -/
inductive Change (d : Device) : Device → Prop where
  | started (token : Nat) {t : Task} :
      (∃ m, t = .send m .enter) ∨ t = .next .askTurn ∨ t = .shutdown (.draining .register) →
      Change d { d with tasks := d.tasks ++ [⟨token, t⟩] }
  | moved {i : Nat} {o : Operating} {d₁ : Device} {t : Task} : d.tasks[i]? = some o → o.task.Turn o.token d d₁ t →
      Change d { d₁ with tasks := d₁.tasks.set i { o with task := t } }
  | aside {d' : Device} : d'.tasks = d.tasks → d'.drain = d.drain → Change d d'

theorem stepTask_eq_some (h : d.stepTask i = some d') :
    ∃ o d₁ t, d.tasks[i]? = some o ∧ o.task.Turn o.token d d₁ t ∧
      d' = { d₁ with tasks := d₁.tasks.set i { o with task := t } } := by
  obtain ⟨o, ho, h⟩ := Option.bind_eq_some_iff.mp h
  obtain ⟨⟨d₁, t⟩, ht, he⟩ := Option.bind_eq_some_iff.mp h
  cases he
  exact ⟨o, d₁, t, ho, Task.turn_of_step ht, rfl⟩

theorem abandon_eq_some {kernel : Kernel} (h : d.abandon i kernel = some d') :
    ∃ o d₁ t, d.tasks[i]? = some o ∧ o.task.Turn o.token d d₁ t ∧
      d' = { d₁ with tasks := d₁.tasks.set i { o with task := t } } := by
  obtain ⟨o, ho, h⟩ := Option.bind_eq_some_iff.mp h
  obtain ⟨⟨d₁, t⟩, ht, he⟩ := Option.bind_eq_some_iff.mp h
  cases he
  exact ⟨o, d₁, t, ho, Task.turn_of_abandon ht, rfl⟩

theorem change_of_after {x : Happening} (h : d.after x = some d') : d.Change d' := by
  cases x with
  | send token m =>
    cases h
    exact .started token (.inl ⟨m, rfl⟩)
  | next token =>
    cases h
    exact .started token (.inr (.inl rfl))
  | shutdown token =>
    cases h
    exact .started token (.inr (.inr rfl))
  | step i =>
    obtain ⟨o, d₁, t, ho, ht, rfl⟩ := stepTask_eq_some h
    exact .moved ho ht
  | abandon i kernel =>
    obtain ⟨o, d₁, t, ho, ht, rfl⟩ := abandon_eq_some h
    exact .moved ho ht
  | kernel e =>
    obtain ⟨kernel, -, rfl⟩ := Option.map_eq_some_iff.mp h
    exact .aside rfl rfl
  | arrive r | hangUp | drop =>
    cases h
    exact .aside rfl rfl

end HubDevice.Device
