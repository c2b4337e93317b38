import HubDevice.Mqtt.Session
import HubDevice.Proofs.Concurrent.Inbox

/-!
# What a call does to its station

In one step a call does a single thing to its session (`Session.Touched`), or takes a message from the cloud, or leaves
the sessions and the queues alone and at most asks for its turn to receive or gives it back. `Phase.Turn` says so of
every step, and what calls do to sessions, to routers, to the queues and to the settings is read off it.
-/

namespace HubDevice.Mqtt

/-- The message that a call has ended with, if it has. -/
def Phase.returned : Phase → List Message
  | .finished (.ok (.message m)) => [m]
  | _ => []

/-- An answer about the twin brings no message. -/
theorem Phase.returned_outcome (id : String) (r : TwinReply) (c : TwinCall) :
    (Phase.finished (c.outcome id r)).returned = [] := by
  unfold TwinCall.outcome
  split
  · rfl
  · cases c with
    | get =>
      dsimp only
      split <;> rfl
    | patch =>
      dsimp only
      split <;> rfl

/-- What a call does to its session. -/
inductive Session.Touched (s : Session) : Session → Prop where
  | opened : s.driving = .idle → Touched s { s with driving := .running, joinable := true }
  | joined : Touched s { s with joinable := false }
  | stopped : Touched s { s with stop := true }
  | left : Touched s { s with stop := true, router := s.router.close .closedLocally }
  | filled (o : Outgoing) : Touched s { s with outbox := s.outbox ++ [o] }
  | registered (id : String) (request : Nat) : Touched s { s with router := s.router.register id request }
  | forgot (id : String) : Touched s { s with router := s.router.forget id }

variable {i : Nat} {st st' : Station} {s s' : Session} {ph ph' : Phase}

namespace Phase

theorem touched_of_put {o : Outgoing} (h : put st s o = some (.ok s')) : s.Touched s' := by
  unfold put at h
  split at h
  · cases h
  · split at h <;> cases h
    exact .filled o

/-- What a step of a call on the session `i` does to the station, and the phase that it leads to. -/
inductive Turn (i : Nat) (st : Station) (s : Session) : Station → Phase → Prop where
  | stood {ph : Phase} (turn : FairLock Nat) : ph.returned = [] → Turn i st s { st with turn } ph
  | touched {s' : Session} {ph : Phase} (requests : Nat) : s.Touched s' → ph.returned = [] →
      Turn i st s { st.setSession i s' with twinRequests := requests } ph
  | took {c2d : Inbox Message} {m : Message} : st.queues.c2d.take? = some (c2d, some m) →
      Turn i st s { st with queues := { st.queues with c2d }, turn := st.turn.release } (.finished (.ok (.message m)))

/-- Nothing is done. -/
theorem Turn.idle (h : ph.returned = []) : Turn i st s st ph := .stood st.turn h

/-- Something is done to the session alone. -/
theorem Turn.set (ht : s.Touched s') (h : ph.returned = []) : Turn i st s (st.setSession i s') ph :=
  .touched st.twinRequests ht h

theorem turn_of_step {cancelled : Bool} {n : Nat} (h : ph.step cancelled n i st s = some (st', ph')) :
    Turn i st s st' ph' := by
  cases ph with
  | opening =>
    simp only [step] at h
    split at h <;> cases h
    · exact .set (.opened ‹_›) rfl
    · exact .idle rfl
  | awaiting deadline =>
    simp only [step] at h
    repeat' split at h
    all_goals cases h
    all_goals first
      | exact .idle rfl
      | exact .set .stopped rfl
  | closing =>
    simp only [step] at h
    split at h <;> cases h
    · exact .set .stopped rfl
    · exact .idle rfl
  | takingDriver =>
    simp only [step] at h
    split at h <;> cases h
    · exact .set .joined rfl
    · exact .idle rfl
  | leaving =>
    cases h
    exact .set .left rfl
  | checking =>
    cases h
    refine .idle ?_
    split <;> rfl
  | disconnecting | putting =>
    simp only [step] at h
    split at h <;> cases h
    · exact .set (touched_of_put ‹_›) rfl
    · exact .idle rfl
  | joining | sending =>
    simp only [step] at h
    repeat' split at h
    all_goals cases h
    all_goals exact .idle rfl
  | askTurn =>
    simp only [step] at h
    split at h <;> cases h
    · exact .idle rfl
    · exact .stood _ rfl
  | awaitTurn =>
    simp only [step] at h
    split at h <;> cases h
    exact .idle rfl
  | receiving =>
    simp only [step] at h
    split at h
    · cases h
      exact .stood _ rfl
    · cases ht : st.queues.c2d.take? with
      | none =>
        rw [ht] at h
        cases h
      | some p =>
        obtain ⟨c2d, m⟩ := p
        rw [ht] at h
        cases m with
        | none =>
          cases h
          -- The queue is over, and stays as it is.
          cases Inbox.eq_of_take?_none ht
          exact .stood _ rfl
        | some m =>
          cases h
          exact .took ht
  | askingTwin id c =>
    simp only [step] at h
    split at h <;> cases h
    · exact .idle rfl
    · exact .touched _ (.registered id st.twinRequests) rfl
  | puttingTwin id request c =>
    simp only [step] at h
    split at h <;> cases h
    · exact .set (touched_of_put ‹_›) rfl
    · exact .set (.forgot id) rfl
  | awaitingTwin id request c deadline =>
    simp only [step] at h
    split at h
    · cases h
      exact .idle (returned_outcome _ _ _)
    · cases h
      exact .idle rfl
    · split at h <;> cases h
      exact .set (.forgot id) rfl
  | finished => cases h

end Phase

end HubDevice.Mqtt
