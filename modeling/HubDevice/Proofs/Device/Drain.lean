import HubDevice.Proofs.Concurrent.History
import HubDevice.Proofs.Device.Happening

/-!
# Shutting down gracefully

A send holds a guard from the moment it enters the count until it gives the guard back, with whatever result, or when
its caller lets go of it. Every move of an operation changes the count as it changes the guards (`Turn.passage`), so the
count is the number of guards in every run (`counts_after`), and a shutdown that sees it at zero finds no guard.
-/

namespace HubDevice.Device

variable {d d' d₀ : Device} {x : Happening} {t t' : Task} {token i : Nat} {l : List (Device × Happening)}

/-- Whether an operation holds a guard of the count. -/
def Task.holdsGuard : Task → Bool
  | .send _ (.sending _) | .send _ (.leaving .leave _) => true
  | _ => false

/-- How many guards there are. -/
def guards (d : Device) : Nat := d.tasks.countP (·.task.holdsGuard)

/-- A send that has entered the count, or one that has ended. -/
def Task.Entered : Task → Prop
  | .send _ ph => ph ≠ .enter
  | .ended r => ∃ r' : Except ClientError Reply, r = r'.map .reply
  | _ => False

namespace Task.Turn

/-- The count goes up and down with the guards. -/
theorem passage (h : Task.Turn token d t d' t') : d.drain.Passage t.holdsGuard d'.drain t'.holdsGuard := by
  cases h
  case entered => exact .entered
  case left | leftLast => exact .left
  case noticed => exact .kept _ _
  all_goals exact .idle _ _

theorem stays_entered (h : Task.Turn token d t d' t') (ht : t.Entered) : t'.Entered := by
  cases h
  case entered | unbegun => exact absurd rfl ht
  case queued | refused | received | watched | closes | closing | closed => exact ht.elim
  case worked | settled | leftLast => simp [Task.Entered]
  case left m r _ => exact ⟨r, rfl⟩
  case noticed m r => exact ⟨r, rfl⟩

end Task.Turn

/-- The count is the number of guards. -/
abbrev Counts (d : Device) : Prop := d.drain.Counts (·.task.holdsGuard) d.tasks

/-- The count stays the number of guards. -/
theorem counts_after (h : d.after x = some d') (hc : d.Counts) : d'.Counts := by
  cases change_of_after h with
  | @started token t ht =>
    have hnew : t.holdsGuard = false := by rcases ht with ⟨m, rfl⟩ | rfl | rfl <;> rfl
    exact hc.concat (hnew ▸ .idle d.drain false)
  | moved ho ht =>
    unfold Counts
    dsimp only
    rw [ht.tasks]
    exact hc.set ho ht.passage
  | aside htasks hdrain =>
    unfold Counts
    rw [htasks, hdrain]
    exact hc

/-- An operation stays one, with its token, and has entered the count for good. -/
theorem operation_after (h : d.after x = some d') (ht : d.tasks[i]? = some ⟨token, t⟩) :
    ∃ t', d'.tasks[i]? = some ⟨token, t'⟩ ∧ (t.Entered → t'.Entered) := by
  have hlt := (List.getElem?_eq_some_iff.mp ht).1
  cases change_of_after h with
  | started => exact ⟨t, by rw [List.getElem?_append_left hlt, ht], id⟩
  | @moved j o d₁ t' ho hturn =>
    dsimp only
    rw [hturn.tasks]
    by_cases hij : j = i
    · subst hij
      rw [ht] at ho
      cases ho
      exact ⟨t', List.getElem?_set_self hlt, hturn.stays_entered⟩
    · exact ⟨t, by rw [List.getElem?_set_ne hij, ht], id⟩
  | aside htasks _ => exact ⟨t, by rw [htasks, ht], id⟩

theorem token_of_history (h : History after d l d') (ht : d.tasks[i]? = some ⟨token, t⟩) :
    ∃ t', d'.tasks[i]? = some ⟨token, t'⟩ := by
  refine h.keeps (P := fun d => ∃ t', d.tasks[i]? = some ⟨token, t'⟩) ⟨t, ht⟩ ?_
  rintro d d' x hx ⟨t', ht'⟩
  obtain ⟨t'', ht'', -⟩ := operation_after hx ht'
  exact ⟨t'', ht''⟩

theorem entered_of_history (h : History after d l d') (ht : d.tasks[i]? = some ⟨token, t⟩) (hentered : t.Entered) :
    ∃ t', d'.tasks[i]? = some ⟨token, t'⟩ ∧ t'.Entered := by
  refine h.keeps (P := fun d => ∃ t', d.tasks[i]? = some ⟨token, t'⟩ ∧ t'.Entered) ⟨t, ht, hentered⟩ ?_
  rintro d d' x hx ⟨t', ht', hentered'⟩
  obtain ⟨t'', ht'', hkeeps⟩ := operation_after hx ht'
  exact ⟨t'', ht'', hkeeps hentered'⟩

/-- A send that has entered the count and holds no guard has its result. -/
theorem Task.Entered.result (h : t.Entered) (hg : t.holdsGuard = false) :
    ∃ m r, t = .ended (r.map .reply) ∨ t = .send m (.leaving .notify r) := by
  match t, h with
  | .ended _, ⟨r, rfl⟩ => exact ⟨default, r, .inl rfl⟩
  | .send m .enter, h => exact absurd rfl h
  | .send m (.sending _), _ | .send m (.leaving .leave _), _ => cases hg
  | .send m (.leaving .notify r), _ => exact ⟨m, r, .inr rfl⟩

/-- A shutdown calls for the closing in its next step. -/
def Closes (d : Device) (j : Nat) : Prop :=
  ∃ token w d' task, d.tasks[j]? = some ⟨token, .shutdown (.draining w)⟩ ∧ d.stepTask j = some d' ∧
    d'.tasks[j]? = some ⟨token, .shutdown (.closing task)⟩

theorem closes_cases {j token : Nat} {t : Task} (h : d.Closes j) (ht : d.tasks[j]? = some ⟨token, t⟩)
    (hcalm : d.kernel.tokenFired token = false) : d.drain.inflight = 0 := by
  obtain ⟨token', w, d', task, hw, hs, hd'⟩ := h
  rw [hw] at ht
  cases ht
  obtain ⟨o, d₁, t, ho, hturn, rfl⟩ := stepTask_eq_some hs
  rw [hw] at ho
  cases ho
  have hj := (List.getElem?_eq_some_iff.mp hw).1
  dsimp only at hd'
  rw [hturn.tasks, List.getElem?_set_self hj] at hd'
  cases hd'
  cases hturn with
  | closes _ _ _ hwhy =>
    rcases hwhy with hfired | hidle
    · rw [hcalm] at hfired
      cases hfired
    · exact hidle

/-- In every run of a device on which nothing was done before, the count of the sends in flight is the number of sends
that hold a guard. So it is not zero when a guard is given back, and it is zero when no send is on its way. When a
shutdown whose token has not fired calls for the closing, every send that had entered the count before it was called
has its result: it has ended, or giving its guard back has taken the count to zero, and the notice of that is all that
it still has to give. -/
theorem graceful (h : History after d₀ l d) (htasks : d₀.tasks = []) (hidle : d₀.drain.inflight = 0) :
    d.drain.inflight = d.guards ∧
    (∀ (i token : Nat) m r, d.tasks[i]? = some ⟨token, .send m (.leaving .leave r)⟩ → 0 < d.drain.inflight) ∧
    ((∀ (i token : Nat) m ph, d.tasks[i]? ≠ some ⟨token, .send m ph⟩) → d.drain.inflight = 0) ∧
    ∀ d₁ token, (d₁, .shutdown token) ∈ l → d.Closes d₁.tasks.length → d.kernel.tokenFired token = false →
      ∀ (i token' : Nat) m ph, d₁.tasks[i]? = some ⟨token', .send m ph⟩ → ph ≠ .enter →
        ∃ token m r, d.tasks[i]? = some ⟨token, .ended (r.map .reply)⟩ ∨
          d.tasks[i]? = some ⟨token, .send m (.leaving .notify r)⟩ := by
  have hcounts : d.Counts := by
    refine h.keeps ?_ counts_after
    rw [Counts, Drain.Counts, hidle, htasks]
    rfl
  refine ⟨hcounts, fun i token m r hi => hcounts.pos hi rfl, ?_, ?_⟩
  · intro hnone
    have hzero : ∀ o ∈ d.tasks, o.task.holdsGuard ≠ true := by
      rintro ⟨token, t⟩ ho hg
      obtain ⟨i, hi⟩ := List.getElem?_of_mem ho
      cases t with
      | send m ph => exact hnone i token m ph hi
      | next | shutdown | ended => cases hg
    exact hcounts.trans (List.countP_eq_zero.mpr hzero)
  · intro d₁ token hcalled hcloses hcalm i token' m ph hi hph
    obtain ⟨_, newer, d₂, -, hstart, hnewer⟩ := h.of_mem hcalled
    -- The shutdown is still the operation with this number, and the send has still entered.
    have hshutdown : d₂.tasks[d₁.tasks.length]? = some ⟨token, .shutdown (.draining .register)⟩ := by
      cases hstart
      exact List.getElem?_concat_length
    obtain ⟨_, hshutdown⟩ := token_of_history hnewer hshutdown
    have hzero := closes_cases hcloses hshutdown hcalm
    obtain ⟨t₂, ht₂, hkeeps⟩ := operation_after hstart hi
    obtain ⟨t, ht, hentered⟩ := entered_of_history hnewer ht₂ (hkeeps hph)
    have hguard : t.holdsGuard = false := by
      by_contra hg
      have := hcounts.pos ht (by simpa using hg)
      omega
    obtain ⟨m, r, rfl | rfl⟩ := hentered.result hguard
    · exact ⟨token', m, r, .inl ht⟩
    · exact ⟨token', m, r, .inr ht⟩

/-- A send on a client that was never opened is refused and gives its guard back, after a shutdown was called. The
shutdown looks at the count before the send gives its notice. -/
def overtakenParting : List Happening :=
  [.send 0 {}, .step 0, .shutdown 1] ++ List.replicate 8 (.step 0) ++ [.step 1]

/-- A shutdown whose token has not fired can call for the closing before a send has returned that had entered the count
when it was called. -/
theorem closes_before_return : ∃ l d d₁, History after {} l d ∧ (d₁, .shutdown 1) ∈ l ∧
    d₁.tasks[0]? = some ⟨0, .send {} (.sending 0)⟩ ∧ d.Closes d₁.tasks.length ∧ d.kernel.tokenFired 1 = false ∧
    d.result? 0 = none := by
  obtain ⟨l, d, hrun, d₁, hcalled, hsend, hcloses, hcalm, hnone⟩ :
      ∃ l d, replay after {} overtakenParting = some (l, d) ∧ ∃ d₁, (d₁, .shutdown 1) ∈ l ∧
        d₁.tasks[0]? = some ⟨0, .send {} (.sending 0)⟩ ∧ d.Closes d₁.tasks.length ∧
        d.kernel.tokenFired 1 = false ∧ d.result? 0 = none := by
    refine ⟨_, _, rfl, _, List.mem_iff_getElem?.mpr ⟨9, rfl⟩, rfl, ⟨1, .look 0, _, _, rfl, rfl, rfl⟩, rfl, rfl⟩
  exact ⟨l, d, d₁, History.of_replay hrun, hcalled, hsend, hcloses, hcalm, hnone⟩

/-- A send on a client that was never opened is refused, while a shutdown waits for it. -/
def parting : List Happening :=
  [.send 0 {}, .step 0, .shutdown 1, .step 1, .step 1, .step 0, .step 0, .step 0, .step 0, .step 0, .step 0, .step 0,
    .step 0, .step 0, .step 1, .step 1]

theorem graceful_parting : ∃ l d, History after {} l d ∧
    d.drain.inflight = d.guards ∧ ∃ d₁, (d₁, .shutdown 1) ∈ l ∧ d₁.drain.inflight = 1 ∧ d.Closes d₁.tasks.length ∧
      ∃ (token : Nat) (m : Message) (r : Except ClientError Reply), d.tasks[0]? = some ⟨token, .ended (r.map .reply)⟩ ∨
        d.tasks[0]? = some ⟨token, .send m (.leaving .notify r)⟩ := by
  obtain ⟨l, d, hrun, d₁, hcalled, hcloses, hcalm, hsend, hone⟩ :
      ∃ l d, replay after {} parting = some (l, d) ∧ ∃ d₁, (d₁, .shutdown 1) ∈ l ∧ d.Closes d₁.tasks.length ∧
        d.kernel.tokenFired 1 = false ∧ d₁.tasks[0]? = some ⟨0, .send {} (.sending 0)⟩ ∧ d₁.drain.inflight = 1 := by
    refine ⟨_, _, rfl, _, List.mem_iff_getElem?.mpr ⟨13, rfl⟩, ⟨1, .look 1, _, _, rfl, rfl, rfl⟩, rfl, rfl, rfl⟩
  have hrun := History.of_replay hrun
  obtain ⟨hcounted, -, -, hshutdown⟩ := graceful hrun rfl rfl
  exact ⟨l, d, hrun, hcounted, d₁, hcalled, hone, hcloses, hshutdown d₁ 1 hcalled hcloses hcalm 0 0 {} _ hsend (by simp)⟩

end HubDevice.Device
