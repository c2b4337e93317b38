import HubDevice.Proofs.Concurrent.History
import HubDevice.Proofs.Kernel.Order

/-!
# Runs with their history

`Path k l k'` is a run from one kernel to another that remembers every kernel on the way and what happened to
it. What a run has done is read off its history: which calls have returned, and with what. An operation is as
it was, has just been started, or has taken the step that happened (`tasks_after`).
-/

namespace HubDevice

namespace Kernel

/-- What led from one kernel to another: each kernel on the way with what happened to it, the newest first. -/
abbrev Path : Kernel → List (Kernel × Happening) → Kernel → Prop := History Kernel.after

end Kernel

namespace History

open Kernel

variable {k k' : Kernel} {l : List (Kernel × Happening)}

theorem reaches (h : Path k l k') : k.Reaches k' := by
  induction h with
  | refl => exact .refl k
  | tail e _ he ih => exact ih.tail e he

theorem of_reaches (h : k.Reaches k') : ∃ l, Path k l k' := by
  induction h with
  | refl => exact ⟨[], .refl⟩
  | tail e _ he ih =>
    obtain ⟨l, hl⟩ := ih
    exact ⟨_, hl.tail e he⟩

theorem reachable (h : Path k l k') (hk : k.Reachable) : k'.Reachable := hk.reaches h.reaches

/-- Every kernel that a run meets is reachable. -/
theorem reachable_of_mem (h : Path k l k') (hk : k.Reachable) {x : Kernel × Happening} (hx : x ∈ l) :
    x.1.Reachable := by
  obtain ⟨_, _, _, hbefore, -, -⟩ := h.of_mem hx
  exact hbefore.reachable hk

end History

namespace Kernel

variable {k k' : Kernel} {l : List (Kernel × Happening)}

theorem reachable_initial (interval : Option Span) (policy : Retry.Policy) :
    (initial interval policy).Reachable := ⟨interval, policy, .refl _⟩

/-- The kernels that a course starts its steps from. -/
def visited (k : Kernel) : List Happening → List Kernel
  | [] => []
  | e :: es => k :: match k.after e with
    | some k' => visited k' es
    | none => []

/-- A course is a run that meets no other kernels. -/
theorem path_of_course {es : List Happening} (h : k.course es = some k') :
    ∃ l, Path k l k' ∧ ∀ x ∈ l, x.1 ∈ k.visited es := by
  induction es generalizing k with
  | nil => exact ⟨[], Option.some.inj h ▸ .refl, by simp⟩
  | cons e es ih =>
    obtain ⟨k₁, he, hc⟩ := Option.bind_eq_some_iff.mp h
    obtain ⟨l, hl, hv⟩ := ih hc
    refine ⟨l ++ [(k, e)], (History.refl.tail e he).trans hl, fun x hx => ?_⟩
    simp only [visited, he, List.mem_cons]
    rcases List.mem_append.mp hx with hx | hx
    · exact .inr (hv x hx)
    · exact .inl (List.mem_singleton.mp hx ▸ rfl)

/-- An operation afterwards: it is as before, it is new, or it has taken the step that happened. -/
theorem tasks_after (h : k.Orderly) {e : Happening} (he : k.after e = some k') (i : Nat) :
    k'.tasks[i]? = k.tasks[i]? ∨
      (k.tasks[i]? = none ∧ ∃ token r, k'.tasks[i]? = some (⟨token, .ready r⟩ : Operating)) ∨
      ∃ o k₁ t, e = .stepTask i ∧ k.tasks[i]? = some o ∧
        o.task.step o.token (.task i) k = some (k₁, t) ∧
        k' = { k₁ with tasks := k₁.tasks.set i { o with task := t } } ∧
        k'.tasks[i]? = some { o with task := t } := by
  rcases after_cases he with ⟨j, rfl, hs⟩ | ⟨j, -, hs⟩ | hb
  · by_cases hij : i = j
    · subst hij
      obtain ⟨o, k₁, t, ho, ht, rfl⟩ := stepTask_eq_some hs
      have hi : i < k₁.tasks.length := by
        rw [(Task.movement (h.lifetimeOver ho) ht).tasks]
        exact (List.getElem?_eq_some_iff.mp ho).1
      exact .inr (.inr ⟨o, k₁, t, rfl, ho, ht, rfl, List.getElem?_set_self hi⟩)
    · exact .inl ((others_stepTask h hs).1 i hij)
  · exact .inl (congrArg (·[i]?) (others_stepWatcher hs).1)
  · rcases hb.tasks i with ht | ht
    · exact .inl ht
    · exact .inr (.inl ht)

/-- An operation whose part goes on goes on with that part. -/
theorem ofPart_ne {α β : Type} {wrap : α → Task} {value : β → Reply} {st : Step Kernel α (Except ClientError β)}
    {t : Task} (hw : ∀ a, wrap a ≠ t) (ht : ∀ r, .ended r ≠ t) : ofPart wrap value st ≠ some (k', t) := by
  intro h
  obtain ⟨pr, -, he⟩ := ofPart_eq_some h
  cases pr with
  | more a => exact hw a he.symm
  | done r => exact ht _ he.symm

/-- How an open call comes to a phase. -/
theorem Task.opening_of_step {p : Party} {token : Nat} {t : Task} {ph' : OpenPhase}
    (h : t.step token p k = some (k', .opening ph')) :
    (t = .ready .open ∧ ph' = .checkDisposed) ∨
      ∃ ph, t = .opening ph ∧ ph.step token p k = some (k', .more ph') := by
  cases t with
  | ready request =>
    cases request <;> cases h
    exact .inl ⟨rfl, rfl⟩
  | opening ph =>
    obtain ⟨pr, hp, he⟩ := ofPart_eq_some h
    cases pr with
    | more ph₁ =>
      cases he
      exact .inr ⟨ph, rfl, hp⟩
    | done r => cases he
  | closing | running | toggling => exact absurd h (ofPart_ne (fun _ => by simp) fun _ => by simp)
  | ended r => cases h

/-- How a close call comes to a phase. -/
theorem Task.closing_of_step {p : Party} {token : Nat} {t : Task} {ph' : ClosePhase}
    (h : t.step token p k = some (k', .closing ph')) :
    (t = .ready .close ∧ ph' = .dispose) ∨
      ∃ ph, t = .closing ph ∧ ph.step p k = some (k', .more ph') := by
  cases t with
  | ready request =>
    cases request <;> cases h
    exact .inl ⟨rfl, rfl⟩
  | closing ph =>
    obtain ⟨pr, hp, he⟩ := ofPart_eq_some h
    cases pr with
    | more ph₁ =>
      cases he
      exact .inr ⟨ph, rfl, hp⟩
    | done r => cases he
  | opening | running | toggling => exact absurd h (ofPart_ne (fun _ => by simp) fun _ => by simp)
  | ended r => cases h

theorem result?_eq_some {i : Nat} {r : Except ClientError Reply} :
    k.result? i = some r ↔ ∃ token, k.tasks[i]? = some ⟨token, .ended r⟩ := by
  unfold result?
  constructor
  · intro h
    split at h
    · rename_i token r' ht
      cases h
      exact ⟨token, ht⟩
    · cases h
  · rintro ⟨token, ht⟩
    rw [ht]

theorem stepTask_of_step {i token : Nat} {t t' : Task} (ht : k.tasks[i]? = some ⟨token, t⟩)
    (hs : t.step token (.task i) k = some (k', t')) :
    k.stepTask i = some { k' with tasks := k'.tasks.set i ⟨token, t'⟩ } := by
  simp [stepTask, ht, hs]

theorem result?_set {i token : Nat} {t : Task} (hi : i < k.tasks.length) {r : Except ClientError Reply} :
    result? { k with tasks := k.tasks.set i ⟨token, t⟩ } i = some r ↔ t = .ended r := by
  rw [result?_eq_some]
  dsimp only
  rw [List.getElem?_set_self hi]
  constructor
  · rintro ⟨token', ht⟩
    cases ht
    rfl
  · rintro rfl
    exact ⟨token, rfl⟩

/-- An operation that has ended stays so. -/
theorem result?_after (h : k.Orderly) {e : Happening} (he : k.after e = some k') {i : Nat}
    {r : Except ClientError Reply} (hr : k.result? i = some r) : k'.result? i = some r := by
  obtain ⟨token, ht⟩ := result?_eq_some.mp hr
  refine result?_eq_some.mpr ⟨token, ?_⟩
  rcases tasks_after h he i with hs | ⟨hn, -⟩ | ⟨o, k₁, t, -, ho, hs, -⟩
  · exact hs.trans ht
  · rw [hn] at ht
    cases ht
  · rw [ho] at ht
    cases ht
    cases hs

/-- An operation keeps its token. -/
theorem token_of_path (h : Path k l k') (hk : k.Reachable) {i : Nat} {o : Operating} (ht : k.tasks[i]? = some o) :
    ∃ t, k'.tasks[i]? = some { o with task := t } := by
  induction h with
  | refl => exact ⟨o.task, ht⟩
  | tail e hp he ih =>
    obtain ⟨t, ht'⟩ := ih
    rcases tasks_after (orderly_of_reachable (hp.reachable hk)) he i with
      hs | ⟨hn, -⟩ | ⟨o', _, t', -, ho, -, -, hs⟩
    · exact ⟨t, hs.trans ht'⟩
    · rw [hn] at ht'
      cases ht'
    · rw [ho] at ht'
      cases ht'
      exact ⟨t', hs⟩

/-! ## Calls that return -/

/-- The operation with a number returns in a step of a run. -/
def Returns (x : Kernel × Happening) (i : Nat) (r : Except ClientError Reply) : Prop :=
  x.2 = .stepTask i ∧ ∃ k', x.1.stepTask i = some k' ∧ k'.result? i = some r

/-- The operation with a number is an open call on its way. -/
def InOpen (k : Kernel) (i : Nat) : Prop := ∃ token ph, k.tasks[i]? = some ⟨token, .opening ph⟩

/-- Why an open call returns in a phase: the client was closed, its token has fired, the connection is up, an
attempt that others made meanwhile is shared, or it has made one. -/
inductive OpenPhase.Returned (k : Kernel) (token : Nat) : OpenPhase → Except ClientError Unit → Prop where
  | refused {ph : OpenPhase} : k.disposed = true → Returned k token ph (.error .disposed)
  | cancelled {ph : OpenPhase} : k.tokenFired token = true → Returned k token ph (.error .cancelled)
  | connected : k.connected = true → Returned k token .checkConnected (.ok ())
  | found {epoch : Nat} : k.link = .connected → Returned k token (.consider epoch) (.ok ())
  | shared {epoch : Nat} {r : Except ClientError Unit} : k.link ≠ .connected →
      k.sharedOutcome epoch = some r → Returned k token (.consider epoch) r
  | concluded (r : Except ClientError Unit) : Returned k token (.conclude r) r

theorem OpenPhase.returned_of_step {p : Party} {token : Nat} {ph : OpenPhase} {r : Except ClientError Unit}
    (h : ph.step token p k = some (k', .done r)) : ph.Returned k token r := by
  cases turn_of_step h with
  | refused hd | refusedInside hd => exact .refused hd
  | cancelled hf | gaveUp hf => exact .cancelled hf
  | connected hc => exact .connected hc
  | found hl => exact .found hl
  | shared hl hs => exact .shared hl hs
  | concluded => exact .concluded _

/-- An open call on its way that returns. -/
theorem InOpen.returned {x : Kernel × Happening} {i : Nat} {r : Except ClientError Reply}
    (h : x.1.InOpen i) (ho : x.1.Orderly) (hr : Returns x i r) :
    ∃ token ph r', x.1.tasks[i]? = some ⟨token, .opening ph⟩ ∧ ph.Returned x.1 token r' ∧
      r = r'.map fun _ => .done := by
  obtain ⟨token, ph, ht⟩ := h
  obtain ⟨-, k', hs, hres⟩ := hr
  obtain ⟨token', hres⟩ := result?_eq_some.mp hres
  obtain ⟨o, k₁, t, ht', hstep, rfl⟩ := stepTask_eq_some hs
  rw [ht] at ht'
  cases ht'
  have hi : i < k₁.tasks.length := by
    rw [(Task.movement (ho.lifetimeOver ht) hstep).tasks]
    exact (List.getElem?_eq_some_iff.mp ht).1
  dsimp only at hres
  rw [List.getElem?_set_self hi] at hres
  cases hres
  obtain ⟨pr, hp, he⟩ := ofPart_eq_some hstep
  cases pr with
  | more ph' => cases he
  | done r' =>
    cases he
    exact ⟨token, ph, r', ht, OpenPhase.returned_of_step hp, rfl⟩

end Kernel

end HubDevice
