import HubDevice.Proofs.Kernel.Toggles

/-!
# Batches of messages

An attempt to send a batch sends the messages one after another over one session, each once the one before it was
accepted, and every attempt begins with the first message again. What an operation has sent is read off the history of
a run (`Batch.notes`): which messages were accepted, and how each attempt ended. An attempt that fails has sent a
proper beginning of the batch (`Batch.Try.Failed`), and one that succeeds has sent all of it (`Batch.accepted_of_result`).
No call of the operation is left out of this account (`Batch.Accounts`): each was to send a message, and was answered
with success if and only if the message counts as accepted, but for a call that was given up when the token fired.
-/

namespace HubDevice

open Wire

/-- The message that a call was to send, with its session, if it was accepted. -/
def PendingCall.accepted? (c : PendingCall) : Option (SessionId × Message) :=
  match c.request, c.answer with
  | .data s (.send m), some (.ok _) => some (s, m)
  | _, _ => none

/-- The message that the call with a number was to send, if its answer says that it was accepted. -/
def Wire.accepted? (w : Wire) (id : CallId) : Option (SessionId × Message) :=
  (w.calls.find? fun c => c.id = id).bind PendingCall.accepted?

theorem Wire.accepted?_of_take {w w' : Wire} {id : CallId} {s : SessionId} {m : Message} {o : Outcome}
    (h : w.take? id = some (w', o)) (ha : w.Asks id (.data s (.send m))) :
    w.accepted? id = if o.isOk then some (s, m) else none := by
  unfold take? at h
  simp only [Option.bind_eq_bind, Option.bind_eq_some_iff] at h
  obtain ⟨c, hc, o', ho, he⟩ := h
  cases he
  have hreq := ha.request c (List.mem_of_find?_eq_some hc) (by simpa using List.find?_some hc)
  rw [accepted?, hc, Option.bind_some, PendingCall.accepted?, hreq, ho]
  cases o with
  | error e => rfl
  | ok r => rfl

namespace Kernel.Batch

/-! ## What is noted of an operation -/

/-- What is noted of an operation: a message was accepted, and an attempt has ended. -/
inductive Note where
  | accepted (call : CallId) (session : SessionId) (message : Message)
  | ended (outcome : Except ClientError Reply)

/-- The messages of notes, one for each acceptance. -/
def Note.message? : Note → Option Message
  | .accepted _ _ m => some m
  | .ended _ => none

/-- The note that the message was accepted which an attempt waits for, if it was. -/
def acceptance (w : Wire) : Guarded → List Note
  | .admission _ => []
  | .calling f => (f.call?.bind fun id => (w.accepted? id).map fun q => Note.accepted id q.1 q.2).toList

/-- The note that an attempt ends, when it does. -/
def ending : Progress Guarded (Except ClientError Reply) → List Note
  | .more _ => []
  | .done r => [.ended r]

/-- What is noted of an operation in a step of a run: a message is accepted when its send returns with success to the
attempt that made it. -/
def noted (i : Nat) (x : Kernel × Happening) : List Note :=
  match x.2, x.1.tasks[i]? with
  | .stepTask j, some ⟨token, .running y ⟨_, _, .acting a⟩⟩ =>
    if j ≠ i then []
    else if x.1.tokenFired token then [.ended (.error .cancelled)]
    else match a.step y (.task i) x.1 with
      | none => []
      | some (_, pr) => acceptance x.1.handler.wire a ++ ending pr
  | _, _ => []

/-- What is noted of an operation over a run; the oldest comes first. -/
def notes (i : Nat) (l : List (Kernel × Happening)) : List Note := l.reverse.flatMap (noted i)

/-- The messages that were accepted of an operation over a run; the oldest comes first. -/
def messages (i : Nat) (l : List (Kernel × Happening)) : List Message := (notes i l).filterMap Note.message?

/-- The notes that a session accepted messages, each with its call. -/
def accepted (s : SessionId) (sent : List (CallId × Message)) : List Note := sent.map fun q => .accepted q.1 s q.2

/-- An attempt that has failed: the messages that its session had accepted, each with its call, and the failure. -/
structure Try where
  session : SessionId
  sent : List (CallId × Message)
  failure : ClientError

namespace Try

def messages (t : Try) : List Message := t.sent.map Prod.snd

def notes (t : Try) : List Note := accepted t.session t.sent ++ [.ended (.error t.failure)]

/-- The messages that were accepted are the first ones of a batch, in order, but not all of them. -/
structure Failed (ms : List Message) (t : Try) : Prop where
  beginning : t.messages <+: ms
  proper : ms ≠ [] → t.messages ≠ ms

end Try

variable {p : Party} {k k' : Kernel} {e : Happening} {i token : Nat} {l : List (Kernel × Happening)}
  {interval : Option Span} {policy : Retry.Policy} {w w' : Wire} {ms : List Message} {s : SessionId}
  {sent : List (CallId × Message)} {ns : List Note} {made : CallId → HubDevice.Request → Prop} {last? : Option CallId}

theorem notes_cons (x : Kernel × Happening) : notes i (x :: l) = notes i l ++ noted i x := by
  simp [notes, List.flatMap_append]

theorem noted_of_ne (h : e ≠ .stepTask i) : noted i (k, e) = [] := by
  unfold noted
  split
  · rename_i j _ _ _ _ _ he _
    have hj : j ≠ i := fun hj => h (hj ▸ he)
    rw [if_pos hj]
  · rfl

theorem noted_of_fired {y : Exchange} {P : Retry.Policy} {n : Nat} {a : Guarded}
    (ht : k.tasks[i]? = some ⟨token, .running y ⟨P, n, .acting a⟩⟩) (hf : k.tokenFired token = true) :
    noted i (k, .stepTask i) = [.ended (.error .cancelled)] := by
  simp [noted, ht, hf]

theorem noted_of_step {y : Exchange} {P : Retry.Policy} {n : Nat} {a : Guarded}
    {pr : Progress Guarded (Except ClientError Reply)}
    (ht : k.tasks[i]? = some ⟨token, .running y ⟨P, n, .acting a⟩⟩) (hf : k.tokenFired token = false)
    (hs : a.step y (.task i) k = some (k', pr)) :
    noted i (k, .stepTask i) = acceptance k.handler.wire a ++ ending pr := by
  simp [noted, ht, hf, hs]

theorem noted_of_tasks {t : Task} (ht : k.tasks[i]? = some ⟨token, t⟩)
    (hn : ∀ y P n a, t ≠ .running y ⟨P, n, .acting a⟩) : noted i (k, e) = [] := by
  unfold noted
  split
  · rename_i _ token' y P n a _ ht'
    cases ht.symm.trans ht'
    exact absurd rfl (hn y P n a)
  · rfl

theorem acceptance_of_take {id : CallId} {o : Outcome} {m : Message} (ht : w.take? id = some (w', o))
    (ha : w.Asks id (.data s (.send m))) (rest : List Message) :
    acceptance w (.calling (.sending s id rest)) = if o.isOk then [.accepted id s m] else [] := by
  rw [acceptance, Forward.call?, Option.bind_some, accepted?_of_take ht ha]
  split <;> rfl

theorem filterMap_accepted : (accepted s sent).filterMap Note.message? = sent.map Prod.snd := by
  rw [accepted, List.filterMap_map]
  exact List.filterMap_eq_map_iff_forall_eq_some.mpr fun _ _ => rfl

theorem Try.filterMap_notes (t : Try) : t.notes.filterMap Note.message? = t.messages := by
  rw [notes, List.filterMap_append, filterMap_accepted]
  exact List.append_nil _

/-! ## The calls of an operation -/

/-- The calls that an operation has made, beside what was noted of it: each was to send a message, and each but the last
one, if this is open, has its only answer, which is a success just when the message was noted as accepted. -/
structure Accounts (w : Wire) (made : CallId → HubDevice.Request → Prop) (ns : List Note) (last? : Option CallId) :
    Prop where
  asks : ∀ id r, made id r → w.Asks id r ∧ ∃ s m, r = .data s (.send m)
  settled : ∀ id s m, made id (.data s (.send m)) → last? = some id ∨ .accepted id s m ∈ ns ∨
    ∃ e, w.Answered id (.error e)
  accepted : ∀ id s m, .accepted id s m ∈ ns → made id (.data s (.send m)) ∧ ∃ r, w.Answered id (.ok r)
  awaited : ∀ id, last? = some id → w.Awaited id

namespace Accounts

theorem mono {A : Scope} (h : Accounts w made ns last?) (hw : w.Touches A w') : Accounts w' made ns last? where
  asks id r hr := ⟨hw.asks (h.asks id r hr).1, (h.asks id r hr).2⟩
  settled id s m hm := by
    rcases h.settled id s m hm with hl | ha | ⟨e, he⟩
    · exact .inl hl
    · exact .inr (.inl ha)
    · exact .inr (.inr ⟨e, hw.answered_of he⟩)
  accepted id s m hm := by
    obtain ⟨hmade, r, hr⟩ := h.accepted id s m hm
    exact ⟨hmade, r, hw.answered_of hr⟩
  awaited id hid := hw.awaited (h.awaited id hid)

/-- What matters of the calls is which they are, and of the notes only the messages that were accepted. -/
theorem congr {made' : CallId → HubDevice.Request → Prop} {ns' : List Note} (h : Accounts w made ns last?)
    (hm : ∀ id r, made' id r ↔ made id r)
    (hn : ∀ id s m, Note.accepted id s m ∈ ns' ↔ Note.accepted id s m ∈ ns) : Accounts w made' ns' last? where
  asks id r hr := h.asks id r ((hm id r).mp hr)
  settled id s m hr := by
    rw [hn]
    exact h.settled id s m ((hm id _).mp hr)
  accepted id s m hr := by
    rw [hm]
    exact h.accepted id s m ((hn id s m).mp hr)
  awaited := h.awaited

/-- Of the end of an attempt nothing is seen in the calls. -/
theorem ended (h : Accounts w made ns last?) (r : Except ClientError Reply) : Accounts w made (ns ++ [.ended r]) last? :=
  h.congr (fun _ _ => .rfl) (by simp)

/-- Another message is sent. -/
theorem call (h : Accounts w made ns none) (hn : w.Numbered) (hd : w.Dated) (s : SessionId) (m : Message) :
    Accounts (w.call (.data s (.send m))).1 (fun id r => made id r ∨ id = w.issued ∧ r = .data s (.send m)) ns
      (some w.issued) where
  asks id r hr := by
    rcases hr with hr | ⟨rfl, rfl⟩
    · obtain ⟨ha, hs⟩ := h.asks id r hr
      exact ⟨(Touch.called (A := { calls := fun _ => True }) trivial).asks ha, hs⟩
    · exact ⟨asks_call hn _, s, m, rfl⟩
  settled id s' m' hr := by
    rcases hr with hr | ⟨rfl, -⟩
    · rcases h.settled id s' m' hr with hl | ha | ⟨e, he⟩
      · cases hl
      · exact .inr (.inl ha)
      · exact .inr (.inr ⟨e, (Touch.called (A := { calls := fun _ => True }) trivial).answered_of he⟩)
    · exact .inl rfl
  accepted id s' m' hm := by
    obtain ⟨hmade, r, hr⟩ := h.accepted id s' m' hm
    exact ⟨.inl hmade, r, (Touch.called (A := { calls := fun _ => True }) trivial).answered_of hr⟩
  awaited id hid := by
    cases hid
    exact awaited_call hn hd _

/-- The answer to the open call is taken: it is a success, and the message counts as accepted, or an error. -/
theorem take {id : CallId} {o : Outcome} {m : Message} (h : Accounts w made ns (some id))
    (hm : made id (.data s (.send m))) (ht : w.take? id = some (w', o)) :
    Accounts w' made (ns ++ if o.isOk then [.accepted id s m] else []) none := by
  obtain ⟨rfl, d, hd, hid, ha⟩ := take?_eq_some ht
  have hans := (h.awaited id rfl).taken hd hid ha
  have habandon : w.Touches .nothing (w.abandon id) := (Touch.abandoned id).touches
  have hall := h.mono habandon
  have hother : ∀ {id' s' m'}, made id' (.data s' (.send m')) → some id = some id' →
      .data s' (.send m') = HubDevice.Request.data s (.send m) := by
    rintro _ s' m' hr ⟨⟩
    exact (((h.asks id _ hr).1.request d hd hid).symm.trans ((h.asks id _ hm).1.request d hd hid))
  cases o with
  | error e =>
    refine ⟨hall.asks, fun id' s' m' hr => .inr ?_, fun id' s' m' hn => ?_, nofun⟩
    · rcases hall.settled id' s' m' hr with hl | hn | he
      · cases hl
        exact .inr ⟨e, hans⟩
      · exact .inl (List.mem_append_left _ hn)
      · exact .inr he
    · exact hall.accepted id' s' m' ((List.mem_append.mp hn).resolve_right nofun)
  | ok r =>
    refine ⟨hall.asks, fun id' s' m' hr => .inr ?_, fun id' s' m' hn => ?_, nofun⟩
    · rcases hall.settled id' s' m' hr with hl | hn | he
      · have hsame := hother hr hl
        cases hl
        cases hsame
        exact .inl (List.mem_append_right _ List.mem_cons_self)
      · exact .inl (List.mem_append_left _ hn)
      · exact .inr he
    · rcases List.mem_append.mp hn with hn | hn
      · exact hall.accepted id' s' m' hn
      · cases List.mem_singleton.mp hn
        exact ⟨hm, r, hans⟩

end Accounts

/-! ## Attempts -/

/-- How far an attempt has come to send a batch: to no message yet, or to one after those that its session accepted. -/
inductive Attempt (made : CallId → HubDevice.Request → Prop) (ms : List Message) :
    Guarded → SessionId → List (CallId × Message) → Option CallId → Prop where
  | admission {a : Admission} {s : SessionId} : Attempt made ms (.admission a) s [] none
  | start {s : SessionId} : Attempt made ms (.calling (.start (.sendMany ms))) s [] none
  | sending {s : SessionId} {id : CallId} {sent : List (CallId × Message)} {m : Message} {rest : List Message} :
      made id (.data s (.send m)) → sent.map Prod.snd ++ m :: rest = ms →
      Attempt made ms (.calling (.sending s id rest)) s sent (some id)

/-- What a step makes of an attempt: it goes on, or it ends, with success when the whole batch was accepted. -/
def Attempt.Leaves (made : CallId → HubDevice.Request → Prop) (ms : List Message) (s : SessionId)
    (sent : List (CallId × Message)) (last? : Option CallId) : Progress Guarded (Except ClientError Reply) → Prop
  | .more a => Attempt made ms a s sent last?
  | .done (.ok r) => r = .done ∧ sent.map Prod.snd = ms ∧ last? = none
  | .done (.error e) => Try.Failed ms ⟨s, sent, e⟩ ∧ last? = none

theorem Attempt.mono {made' : CallId → HubDevice.Request → Prop} {a : Guarded} (h : Attempt made ms a s sent last?)
    (hm : ∀ id r, made id r → made' id r) : Attempt made' ms a s sent last? := by
  cases h with
  | admission => exact .admission
  | start => exact .start
  | sending hmade hms => exact .sending (hm _ _ hmade) hms

/-- An attempt that is not over has not sent all of its batch. -/
theorem Attempt.failed {a : Guarded} (h : Attempt made ms a s sent last?) (e : ClientError) :
    Try.Failed ms ⟨s, sent, e⟩ := by
  cases h with
  | admission | start => exact ⟨List.nil_prefix, fun hne => Ne.symm hne⟩
  | sending _ hms =>
    subst hms
    refine ⟨List.prefix_append _ _, fun _ heq => ?_⟩
    have hlen := congrArg List.length heq
    simp [Try.messages] at hlen

/-- The calls that were made, and those that are among the events that have happened since. -/
def since (made : CallId → HubDevice.Request → Prop) (new : List Event) (id : CallId) (r : HubDevice.Request) : Prop :=
  made id r ∨ .called id r ∈ new

/-- What is known after a step of an attempt: the calls are accounted for, those included that were made in the step,
and what the step has noted continues what was accepted. -/
def Continues (made : CallId → HubDevice.Request → Prop) (ms : List Message) (ns : List Note) (s : SessionId)
    (sent : List (CallId × Message)) (w w' : Wire) (noted : List Note)
    (pr : Progress Guarded (Except ClientError Reply)) : Prop :=
  ∃ s' sent' last? new, accepted s sent ++ noted = accepted s' sent' ∧ w'.trace = new ++ w.trace ∧
    Accounts w' (since made new) (ns ++ noted) last? ∧ Attempt.Leaves (since made new) ms s' sent' last? pr

/-- A step that makes no call, and in which nothing is accepted. -/
theorem continues_of_quiet {pr : Progress Guarded (Except ClientError Reply)}
    (hacc : Accounts w made ns last?) (hpr : ∀ made', (∀ id r, made id r → made' id r) →
      Attempt.Leaves made' ms s sent last? pr) : Continues made ms ns s sent w w [] pr :=
  ⟨s, sent, last?, [], by rw [List.append_nil], rfl,
    hacc.congr (fun _ _ => or_iff_left List.not_mem_nil) (by simp), hpr _ fun _ _ => .inl⟩

/-- The next message is sent, or there is none. -/
theorem continues_of_sendNext {h h' : Handler} {s₀ : SessionId} {rest : List Message} {noted : List Note}
    {before sent : List (CallId × Message)} {pr : Progress Forward (Except ClientError Reply)}
    (hacc : Accounts h.wire made (ns ++ noted) none) (hn : h.wire.Numbered) (hd : h.wire.Dated)
    (hw : h.wire.trace = w.trace) (hsent : accepted s₀ before ++ noted = accepted s sent)
    (hms : sent.map Prod.snd ++ rest = ms) (hs : Forward.sendNext h s rest = some (h', pr)) :
    Continues made ms ns s₀ before w h'.wire noted (pr.map .calling) := by
  cases rest with
  | nil =>
    cases hs
    exact ⟨s, sent, none, [], hsent, hw, hacc.congr (fun _ _ => or_iff_left List.not_mem_nil) fun _ _ _ => .rfl,
      rfl, by rw [← hms, List.append_nil], rfl⟩
  | cons m rest =>
    have hs : some ((h.call (.data s (.send m))).1, Progress.more (Forward.sending s h.wire.issued rest)) =
        some (h', pr) := hs
    cases hs
    have hmade : ∀ id r, since made [.called h.wire.issued (.data s (.send m))] id r ↔
        made id r ∨ id = h.wire.issued ∧ r = .data s (.send m) := by
      simp [since]
    refine ⟨s, sent, some h.wire.issued, [.called h.wire.issued (.data s (.send m))], hsent, ?_,
      (hacc.call hn hd s m).congr hmade fun _ _ _ => .rfl, ?_⟩
    · rw [← hw]
      exact trace_call h.wire (.data s (.send m))
    · exact .sending (.inr List.mem_cons_self) hms

theorem Attempt.forward {h h' : Handler} {f : Forward} {pr : Progress Forward (Except ClientError Reply)}
    (ha : Attempt made ms (.calling f) s sent last?) (hacc : Accounts h.wire made ns last?) (hn : h.wire.Numbered)
    (hd : h.wire.Dated) (ht : f.Turn h h' pr) :
    Continues made ms ns s sent h.wire h'.wire (acceptance h.wire (.calling f)) (pr.map .calling) := by
  have hfailed := ha.failed
  cases ha with
  | start =>
    cases ht with
    | vacant => exact continues_of_quiet hacc fun _ _ => ⟨hfailed _, rfl⟩
    | @began _ s' _ _ _ hs =>
      have hacc : Accounts h.wire made (ns ++ []) none := by rwa [List.append_nil]
      have hsent : accepted s [] ++ [] = accepted s' [] := rfl
      exact continues_of_sendNext hacc hn hd rfl hsent rfl hs
    | refused hcall => cases hcall
  | @sending _ id _ m rest hmade hms =>
    have hasks := (hacc.asks id _ hmade).1
    cases ht with
    | @accepted _ _ _ h₁ _ r _ htake hs =>
      have hw := Handler.wire_take? htake
      have hnoted : acceptance h.wire (.calling (.sending s id rest)) = [.accepted id s m] :=
        acceptance_of_take hw hasks rest
      have hacc' : Accounts h₁.wire made (ns ++ [.accepted id s m]) none := hacc.take hmade hw
      obtain ⟨rfl, -⟩ := Handler.take?_eq_some htake
      have habandon : h.wire.Touches .nothing (h.abandon id).wire := (Touch.abandoned id).touches
      have hsent : accepted s sent ++ [.accepted id s m] = accepted s (sent ++ [(id, m)]) := by simp [accepted]
      rw [hnoted]
      refine continues_of_sendNext hacc' (habandon.numbered hn) (habandon.dated hd hn) rfl hsent ?_ hs
      rw [← hms]
      simp
    | refused hcall htake =>
      cases hcall
      have hw := Handler.wire_take? htake
      have hnoted : acceptance h.wire (.calling (.sending s id rest)) = [] := acceptance_of_take hw hasks rest
      have hacc' : Accounts h'.wire made (ns ++ []) none := hacc.take hmade hw
      obtain ⟨rfl, -⟩ := Handler.take?_eq_some htake
      rw [hnoted]
      exact ⟨s, sent, none, [], List.append_nil _, rfl,
        hacc'.congr (fun _ _ => or_iff_left List.not_mem_nil) fun _ _ _ => .rfl, hfailed _, rfl⟩

/-- A step of an attempt continues what is noted of it. -/
theorem Attempt.step {a : Guarded} {pr : Progress Guarded (Except ClientError Reply)}
    (h : Attempt made ms a s sent last?) (hacc : Accounts k.handler.wire made ns last?) (hn : k.handler.wire.Numbered)
    (hd : k.handler.wire.Dated) (ht : a.Turn (.sendMany ms) p k k' pr) :
    Continues made ms ns s sent k.handler.wire k'.handler.wire (acceptance k.handler.wire a) pr := by
  have hfailed := h.failed
  cases ht with
  | admitting hta =>
    cases h with
    | admission =>
      rw [hta.handler]
      exact continues_of_quiet hacc fun _ _ => .admission
  | admitted hta =>
    cases h with
    | admission =>
      rw [hta.handler]
      exact continues_of_quiet hacc fun _ _ => .start
  | refused hta =>
    cases h with
    | admission =>
      rw [hta.handler]
      exact continues_of_quiet hacc fun _ _ => ⟨hfailed _, rfl⟩
  | calling hf => exact h.forward hacc hn hd (Forward.turn_of_step hf)
  | returned hf => exact h.forward hacc hn hd (Forward.turn_of_step hf)

/-! ## Batches -/

/-- Where an operation stands that sends a batch: what is noted of it are attempts that have failed, and what the
attempt after them has sent. -/
inductive Stands (made : CallId → HubDevice.Request → Prop) (ms : List Message) :
    Task → List Note → Option CallId → Prop where
  | ready : Stands made ms (.ready (.run (.sendMany ms))) [] none
  | acting {tries : List Try} {P : Retry.Policy} {n : Nat} {a : Guarded} {s : SessionId} {sent : List (CallId × Message)}
      {last? : Option CallId} : (∀ t ∈ tries, t.Failed ms) → Attempt made ms a s sent last? →
      Stands made ms (.running (.sendMany ms) ⟨P, n, .acting a⟩) (tries.flatMap Try.notes ++ accepted s sent) last?
  | pausing {tries : List Try} {P : Retry.Policy} {n t : Nat} : (∀ t ∈ tries, t.Failed ms) →
      Stands made ms (.running (.sendMany ms) ⟨P, n, .pausing t⟩) (tries.flatMap Try.notes) none
  | succeeded {tries : List Try} {s : SessionId} {sent : List (CallId × Message)} : (∀ t ∈ tries, t.Failed ms) →
      sent.map Prod.snd = ms →
      Stands made ms (.ended (.ok .done)) (tries.flatMap Try.notes ++ accepted s sent ++ [.ended (.ok .done)]) none
  | failed {tries : List Try} {e : ClientError} {last? : Option CallId} : (∀ t ∈ tries, t.Failed ms) →
      (last? ≠ none → e = .cancelled) → Stands made ms (.ended (.error e)) (tries.flatMap Try.notes) last?

theorem Stands.mono {made' : CallId → HubDevice.Request → Prop} {t : Task} (h : Stands made ms t ns last?)
    (hm : ∀ id r, made id r → made' id r) : Stands made' ms t ns last? := by
  cases h with
  | ready => exact .ready
  | acting ht ha => exact .acting ht (ha.mono hm)
  | pausing ht => exact .pausing ht
  | succeeded ht hms => exact .succeeded ht hms
  | failed ht hl => exact .failed ht hl

/-- Between two attempts, and before the first. -/
theorem stands_between {tries : List Try} {P : Retry.Policy} {n : Nat} {ph : Retry.Phase Guarded}
    (htries : ∀ t ∈ tries, t.Failed ms) (hph : ph = .acting (.admission .checkDisposed) ∨ ∃ t, ph = .pausing t) :
    Stands made ms (.running (.sendMany ms) ⟨P, n, ph⟩) (tries.flatMap Try.notes) none := by
  rcases hph with rfl | ⟨t, rfl⟩
  · have hidle : Attempt made ms (.admission .checkDisposed) 0 [] none := .admission
    have hstands := Stands.acting (P := P) (n := n) htries hidle
    rwa [accepted, List.map_nil, List.append_nil] at hstands
  · exact .pausing htries

theorem trace_abandon (a : Guarded) : (a.abandon p k).handler.wire.trace = k.handler.wire.trace := by
  cases a with
  | admission a => cases a <;> rfl
  | calling f => cases f <;> rfl

/-- An attempt that has failed adds to the attempts that have. -/
theorem tries_concat {tries : List Try} {t : Try} (h : ∀ t ∈ tries, t.Failed ms) (ht : t.Failed ms) :
    ∀ t' ∈ tries ++ [t], t'.Failed ms := by
  intro t' ht'
  rcases List.mem_append.mp ht' with ht' | ht'
  · exact h t' ht'
  · rwa [List.mem_singleton.mp ht']

theorem notes_concat {tries : List Try} (e : ClientError) : tries.flatMap Try.notes ++ accepted s sent ++
    [.ended (.error e)] = (tries ++ [Try.mk s sent e]).flatMap Try.notes := by
  simp [List.flatMap_append, Try.notes]

/-- A step of the operation, after which the calls are accounted for that were made up to it. -/
def Steps (made : CallId → HubDevice.Request → Prop) (ms : List Message) (k k' : Kernel) (t : Task) (ns : List Note) :
    Prop :=
  ∃ last? new, k'.handler.wire.trace = new ++ k.handler.wire.trace ∧
    Accounts k'.handler.wire (since made new) ns last? ∧ Stands (since made new) ms t ns last?

theorem steps_of_quiet {t : Task} (hacc : Accounts k.handler.wire made ns last?) (hw : k'.handler.wire = k.handler.wire)
    (hs : Stands made ms t ns last?) : Steps made ms k k' t ns := by
  refine ⟨last?, [], congrArg Wire.trace hw, ?_, hs.mono fun _ _ => .inl⟩
  rw [hw]
  exact hacc.congr (fun _ _ => or_iff_left List.not_mem_nil) fun _ _ _ => .rfl

/-- The token has fired. -/
theorem Stands.cancelled {y : Exchange} {run : Retry.Run Guarded} (h : Stands made ms (.running y run) ns last?)
    (hacc : Accounts k.handler.wire made ns last?) (ht : k.tasks[i]? = some ⟨token, .running y run⟩)
    (hf : k.tokenFired token = true) : Steps made ms k (run.abandon (guarded y p) k) (.ended (.error .cancelled))
      (ns ++ noted i (k, .stepTask i)) := by
  cases h with
  | @acting tries P n a s sent last? htries ha =>
    rw [noted_of_fired ht hf, notes_concat]
    refine ⟨last?, [], trace_abandon a, ?_, .failed (tries_concat htries (ha.failed _)) fun _ => rfl⟩
    rw [← notes_concat]
    exact ((hacc.mono (Guarded.aside_abandon (p := p) a).wire).ended _).congr
      (fun _ _ => or_iff_left List.not_mem_nil) fun _ _ _ => .rfl
  | pausing htries =>
    rw [noted_of_tasks ht (by simp), List.append_nil]
    exact steps_of_quiet hacc rfl (.failed htries fun hl => absurd rfl hl)

/-- A step of an attempt, seen from the operation: what is noted of the attempt continues, and ends with its outcome. -/
theorem Attempt.noted {tries : List Try} {P : Retry.Policy} {n : Nat} {a : Guarded}
    {pr : Progress Guarded (Except ClientError Reply)} (h : Attempt made ms a s sent last?)
    (hacc : Accounts k.handler.wire made (tries.flatMap Try.notes ++ accepted s sent) last?)
    (hr : k.Reachable) (ht : k.tasks[i]? = some ⟨token, .running (.sendMany ms) ⟨P, n, .acting a⟩⟩)
    (hf : k.tokenFired token = false) (hs : a.step (.sendMany ms) (.task i) k = some (k', pr)) :
    ∃ s' sent' last? new, k'.handler.wire.trace = new ++ k.handler.wire.trace ∧
      tries.flatMap Try.notes ++ accepted s sent ++ Batch.noted i (k, .stepTask i) =
        tries.flatMap Try.notes ++ accepted s' sent' ++ ending pr ∧
      Accounts k'.handler.wire (since made new) (tries.flatMap Try.notes ++ accepted s' sent' ++ ending pr) last? ∧
      Attempt.Leaves (since made new) ms s' sent' last? pr := by
  obtain ⟨s', sent', last', new, hnoted, htrace, hacc', hl⟩ := h.step hacc (orderly_of_reachable hr).numbered
    (dated_of_reachable hr) (Guarded.turn_of_step hs)
  refine ⟨s', sent', last', new, htrace, ?_, ?_, hl⟩
  · rw [noted_of_step ht hf hs, ← hnoted]
    simp only [List.append_assoc]
  · rw [List.append_assoc, hnoted] at hacc'
    cases pr with
    | more a' =>
      rw [ending, List.append_nil]
      exact hacc'
    | done r => exact hacc'.ended r

/-- What becomes of the operation after a step of its run. -/
def continued (ms : List Message) : Progress (Retry.Run Guarded) (Except ClientError Reply) → Task
  | .more run => .running (.sendMany ms) run
  | .done r => .ended r

/-- The token has not fired. -/
theorem Stands.turn {run : Retry.Run Guarded} {pr : Progress (Retry.Run Guarded) (Except ClientError Reply)}
    (h : Stands made ms (.running (.sendMany ms) run) ns last?) (hacc : Accounts k.handler.wire made ns last?)
    (hr : k.Reachable) (ht : k.tasks[i]? = some ⟨token, .running (.sendMany ms) run⟩)
    (hf : k.tokenFired token = false)
    (hturn : Retry.Run.Turn (guarded (.sendMany ms) (.task i)) false k run k' pr) :
    Steps made ms k k' (continued ms pr) (ns ++ Batch.noted i (k, .stepTask i)) := by
  cases h with
  | @pausing tries P n t htries =>
    rw [noted_of_tasks ht (by simp), List.append_nil]
    cases hturn with
    | resumed => exact steps_of_quiet hacc rfl (stands_between htries (.inl rfl))
    | cancelledActing hc | cancelledPausing hc => cases hc
    | advanced hph | succeeded _ hph | failed hph | retried hph => cases hph
  | @acting tries P n a s sent last? htries ha =>
    cases hturn with
    | cancelledActing hc | cancelledPausing hc => cases hc
    | resumed hph => cases hph
    | advanced hph hs =>
      cases hph
      obtain ⟨s', sent', last', new, htrace, hns, hacc', hl⟩ := ha.noted hacc hr ht hf hs
      rw [hns]
      refine ⟨last', new, htrace, hacc', ?_⟩
      rw [ending, List.append_nil]
      exact .acting htries hl
    | succeeded _ hph hs =>
      cases hph
      obtain ⟨s', sent', last', new, htrace, hns, hacc', rfl, hsent, rfl⟩ := ha.noted hacc hr ht hf hs
      rw [hns]
      exact ⟨none, new, htrace, hacc', .succeeded htries hsent⟩
    | failed hph hs =>
      cases hph
      obtain ⟨s', sent', last', new, htrace, hns, hacc', hl, rfl⟩ := ha.noted hacc hr ht hf hs
      rw [hns]
      refine ⟨none, new, htrace, hacc', ?_⟩
      rw [ending, notes_concat]
      exact .failed (tries_concat htries hl) fun hne => absurd rfl hne
    | @retried _ e k₁ delay hph hs =>
      cases hph
      obtain ⟨s', sent', last', new, htrace, hns, hacc', hl, rfl⟩ := ha.noted hacc hr ht hf hs
      rw [hns]
      refine ⟨none, new, htrace, hacc', ?_⟩
      rw [ending, notes_concat]
      exact stands_between (tries_concat htries hl) (Retry.Run.awaiting_cases _ _ delay)

theorem Stands.step {t t' : Task} (h : Stands made ms t ns last?) (hacc : Accounts k.handler.wire made ns last?)
    (hr : k.Reachable) (ht : k.tasks[i]? = some ⟨token, t⟩) (hs : t.step token (.task i) k = some (k', t')) :
    Steps made ms k k' t' (ns ++ noted i (k, .stepTask i)) := by
  cases t with
  | ready request =>
    rw [noted_of_tasks ht (by simp), List.append_nil]
    cases h
    cases hs
    exact steps_of_quiet hacc rfl (stands_between (List.forall_mem_nil _) (.inl rfl))
  | opening | closing | toggling => cases h
  | ended r => cases hs
  | running y run =>
    have hy : y = .sendMany ms := by
      cases h <;> rfl
    subst hy
    obtain ⟨pr, hrun, rfl⟩ := ofPart_eq_some hs
    cases hf : k.tokenFired token with
    | true =>
      rw [hf] at hrun
      obtain ⟨rfl, rfl⟩ := Retry.Run.step_of_fired hrun
      exact h.cancelled hacc ht hf
    | false =>
      rw [hf] at hrun
      have hsteps := h.turn hacc hr ht hf (Retry.Run.turn_of_step hrun)
      cases pr with
      | more run' => exact hsteps
      | done r => cases r <;> exact hsteps

/-! ## Histories -/

/-- The calls that were made up to a step of the operation. -/
theorem madeBy_stepTask {new : List Event} (he : k.after (.stepTask i) = some k')
    (ht : k'.handler.wire.trace = new ++ k.handler.wire.trace) (id : CallId) (r : HubDevice.Request) :
    MadeBy i ((k, .stepTask i) :: l) id r ↔ since (MadeBy i l) new id r := by
  constructor
  · exact fun h => h.of_trace he ht
  · rintro (h | h)
    · exact h.cons
    · exact ⟨_, List.mem_cons_self, rfl, k', new, he, ht, h⟩

/-- Of an operation that is not there yet nothing was noted, and it has made no call. -/
theorem unnoted_of_path (hp : Path (initial interval policy) l k) (hn : k.tasks[i]? = none) :
    notes i l = [] ∧ ∀ id r, ¬ MadeBy i l id r := by
  have hmade := account_of_path hp i
  unfold Account at hmade
  rw [hn] at hmade
  refine ⟨?_, hmade⟩
  clear hmade
  induction hp with
  | refl => rfl
  | @tail l k k' e hp he ih =>
    have hord := orderly_of_reachable (hp.reachable (reachable_initial interval policy))
    rcases tasks_after hord he i with hs | ⟨-, _, _, hs⟩ | ⟨_, _, _, -, -, -, -, hs⟩
    · have hk : k.tasks[i]? = none := hs.symm.trans hn
      have hei : e ≠ .stepTask i := by
        rintro rfl
        obtain ⟨o, _, _, ho, -⟩ := stepTask_eq_some he
        rw [hk] at ho
        cases ho
      rw [notes_cons, noted_of_ne hei, ih hk]
      rfl
    · rw [hn] at hs
      cases hs
    · rw [hn] at hs
      cases hs

/-- The operation with a number sends a batch, and all its calls are accounted for. -/
def Sends (i : Nat) (ms : List Message) (l : List (Kernel × Happening)) (k : Kernel) : Prop :=
  ∃ token t last?, k.tasks[i]? = some ⟨token, t⟩ ∧ Stands (MadeBy i l) ms t (notes i l) last? ∧
    Accounts k.handler.wire (MadeBy i l) (notes i l) last?

theorem Sends.after (h : Sends i ms l k) (hr : k.Reachable) (he : k.after e = some k') :
    Sends i ms ((k, e) :: l) k' := by
  have hord := orderly_of_reachable hr
  obtain ⟨token, t, last?, ht, hst, hacc⟩ := h
  by_cases hei : e = .stepTask i
  · subst hei
    obtain ⟨_, k₁, t', ht', hs, rfl⟩ := stepTask_eq_some he
    cases ht.symm.trans ht'
    have hi : i < k₁.tasks.length := by
      rw [(Task.movement (hord.lifetimeOver ht) hs).tasks]
      exact (List.getElem?_eq_some_iff.mp ht).1
    obtain ⟨last', new, htrace, hacc', hst'⟩ := hst.step hacc hr ht hs
    rw [← notes_cons] at hacc' hst'
    have hmade := madeBy_stepTask (l := l) he htrace
    exact ⟨token, t', last', List.getElem?_set_self hi, hst'.mono fun id r hr => (hmade id r).mpr hr,
      hacc'.congr hmade fun _ _ _ => .rfl⟩
  · obtain ⟨A, hw⟩ := wire_after hord he
    have hmade : ∀ id r, MadeBy i ((k, e) :: l) id r ↔ MadeBy i l id r :=
      fun id r => ⟨fun h => h.of_ne hei, fun h => h.cons⟩
    have hns : notes i ((k, e) :: l) = notes i l := by rw [notes_cons, noted_of_ne hei, List.append_nil]
    rcases tasks_after hord he i with hs | ⟨hnone, -⟩ | ⟨_, _, _, hei', -⟩
    · rw [Sends, hns]
      exact ⟨token, t, last?, hs.trans ht, hst.mono fun id r hr => (hmade id r).mpr hr,
        (hacc.mono hw).congr hmade fun _ _ _ => .rfl⟩
    · rw [ht] at hnone
      cases hnone
    · exact absurd hei' hei

/-- In a step of a run an operation is started, which is to send a batch and gets a number. -/
def Begins (x : Kernel × Happening) (i : Nat) (ms : List Message) : Prop :=
  i = x.1.tasks.length ∧ ∃ token, x.2 = .start token (.run (.sendMany ms))

theorem sends_of_begins (hp : Path (initial interval policy) l k) (hb : Begins (k, e) i ms) (he : k.after e = some k') :
    Sends i ms ((k, e) :: l) k' := by
  obtain ⟨rfl, token, rfl⟩ := hb
  cases he
  have hne : Happening.start token (.run (.sendMany ms)) ≠ .stepTask k.tasks.length := by simp
  obtain ⟨hns, hmade⟩ := unnoted_of_path hp (i := k.tasks.length) (List.getElem?_eq_none (Nat.le_refl _))
  have hmade : ∀ id r, ¬ MadeBy k.tasks.length ((k, .start token (.run (.sendMany ms))) :: l) id r :=
    fun id r h => hmade id r (h.of_ne hne)
  have hns : notes k.tasks.length ((k, .start token (.run (.sendMany ms))) :: l) = [] := by
    rw [notes_cons, hns, noted_of_ne hne]
    rfl
  refine ⟨token, _, none, List.getElem?_concat_length, ?_, ?_⟩
  · rw [hns]
    exact .ready
  · rw [hns]
    exact ⟨fun id r h => absurd h (hmade id r), fun id s m h => absurd h (hmade id _), nofun, nofun⟩

theorem sends_of_path {x : Kernel × Happening} (hp : Path (initial interval policy) l k) (hx : x ∈ l)
    (hb : Begins x i ms) : Sends i ms l k := by
  induction hp with
  | refl => cases hx
  | tail e hp he ih =>
    rcases List.mem_cons.mp hx with rfl | hx
    · exact sends_of_begins hp hb he
    · exact (ih hx).after (hp.reachable (reachable_initial interval policy)) he

/-- Whatever the transport answers, whichever sessions come and go and whoever else uses the client: once an operation
that was to send a batch has returned, the messages that were accepted are those of its failed attempts, one after
another, each of which is a proper beginning of the batch that one session accepted in order, and after them, if the
operation has succeeded, the whole batch, which one session has accepted in order. No call of the operation is left out:
each was answered once, with success just when its message counts as accepted, but for the one that was given up when
the token fired. -/
theorem accepted_of_result {x : Kernel × Happening} {r : Except ClientError Reply}
    (hp : Path (initial interval policy) l k) (hx : x ∈ l) (hb : Begins x i ms) (hr : k.result? i = some r) :
    ∃ tries : List Try, (∀ t ∈ tries, t.Failed ms) ∧
      (∀ e, r = .error e → notes i l = tries.flatMap Try.notes ∧ messages i l = tries.flatMap Try.messages) ∧
      (∀ v, r = .ok v → messages i l = tries.flatMap Try.messages ++ ms ∧ ∃ s sent, sent.map Prod.snd = ms ∧
        notes i l = tries.flatMap Try.notes ++ accepted s sent ++ [.ended (.ok .done)]) ∧
      ∃ last?, (last? ≠ none → r = .error .cancelled) ∧ Accounts k.handler.wire (MadeBy i l) (notes i l) last? := by
  obtain ⟨token, t, last?, ht, hst, hacc⟩ := sends_of_path hp hx hb
  obtain ⟨_, ht'⟩ := result?_eq_some.mp hr
  cases ht.symm.trans ht'
  have hmessages : ∀ tries : List Try,
      (tries.flatMap Try.notes).filterMap Note.message? = tries.flatMap Try.messages := by
    intro tries
    rw [List.filterMap_flatMap]
    exact congrArg (List.flatMap · tries) (funext Try.filterMap_notes)
  generalize hns : notes i l = ns at hst hacc ⊢
  unfold messages
  rw [hns]
  cases hst with
  | @failed tries e last? htries hlast =>
    refine ⟨tries, htries, fun _ _ => ⟨rfl, hmessages tries⟩, nofun, last?, fun hne => ?_, hacc⟩
    rw [hlast hne]
  | @succeeded tries s sent htries hsent =>
    refine ⟨tries, htries, nofun, fun _ _ => ⟨?_, s, sent, hsent, rfl⟩, none, fun hne => absurd rfl hne, hacc⟩
    rw [List.filterMap_append, List.filterMap_append, hmessages, filterMap_accepted, hsent]
    exact List.append_nil _

/-- Two messages of one octet each. -/
def pair : List Message := [{ payload := [1] }, { payload := [2] }]

/-- Two messages are to be sent, and the first is accepted. Then the session ends, and the second is not accepted by it;
the watcher restores the connection with another session, which accepts both. -/
def pairResent : List Happening :=
  List.flatten [firstOpening, [.start 0 (.run (.sendMany pair))], List.replicate 4 (.stepTask 1),
    [.answer 2 (.ok .done), .stepTask 1, .endSession 0 (.remote "reset"), .answer 3 (.error (.network "reset")),
      .stepTask 1], List.replicate 6 (.stepWatcher 0), [.pass 60000], List.replicate 2 (.stepWatcher 0),
    [.answer 4 (.ok .done), .stepWatcher 0, .answer 5 (.ok .done), .stepWatcher 0, .answer 6 (.ok .done)],
    List.replicate 4 (.stepWatcher 0), List.replicate 4 (.stepTask 1),
    [.answer 7 (.ok .done), .stepTask 1, .answer 8 (.ok .done), .stepTask 1]]

/-- The first message is accepted twice, once by each session. -/
theorem accepted_of_result_pairResent : ∃ l k x, Path (initial none .standard) l k ∧ x ∈ l ∧ Begins x 1 pair ∧
    k.result? 1 = some (.ok .done) ∧
    notes 1 l = [.accepted 2 0 { payload := [1] }, .ended (.error (.transport (.network "reset"))),
      .accepted 7 1 { payload := [1] }, .accepted 8 1 { payload := [2] }, .ended (.ok .done)] ∧
    ∃ tries : List Try, (∀ t ∈ tries, t.Failed pair) ∧ messages 1 l = tries.flatMap Try.messages ++ pair := by
  obtain ⟨l, k, hc, hres, hns, x, hx, hb⟩ : ∃ l k, replay Kernel.after (initial none .standard) pairResent = some (l, k) ∧
      k.result? 1 = some (.ok .done) ∧
      notes 1 l = [.accepted 2 0 { payload := [1] }, .ended (.error (.transport (.network "reset"))),
        .accepted 7 1 { payload := [1] }, .accepted 8 1 { payload := [2] }, .ended (.ok .done)] ∧
      ∃ x, l[35]? = some x ∧ Begins x 1 pair :=
    ⟨_, _, rfl, rfl, rfl, _, rfl, rfl, 0, rfl⟩
  have hp := History.of_replay hc
  have hx := List.mem_of_getElem? hx
  obtain ⟨tries, hfailed, -, hok, -⟩ := accepted_of_result hp hx hb hres
  exact ⟨l, k, x, hp, hx, hb, hres, hns, tries, hfailed, (hok _ rfl).1⟩

end Kernel.Batch

end HubDevice
