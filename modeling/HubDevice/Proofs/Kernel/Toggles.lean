import HubDevice.Proofs.Kernel.Closure
import HubDevice.Proofs.Kernel.Subscriptions
import HubDevice.Proofs.Session.Answers
import Mathlib.Data.List.Chain

/-!
# Changes of subscriptions one after another

A change of a subscription that returns with success takes effect in the step in which it returns, while it
holds the gate (`flip?`), and no other step changes the recorded features (`features_after`). Of one feature
these changes alternate (`alternating_of_path`), since a change looks at the feature under the same hold of the
gate (`Spell`). The transport calls that a change makes over all its attempts are read off the history
(`MadeBy`): each of them but the last was answered with an error (`account_of_path`).
-/

namespace HubDevice.Kernel

open FairLock Retry Wire

variable {p : Party} {k k' : Kernel} {e : Happening} {i : Nat} {l : List (Kernel × Happening)}
  {f : Feature} {enable edge : Bool} {interval : Option Span} {policy : Policy}

/-! ## Changes that take effect -/

/-- A change of a subscription that took effect: which operation made it, and what it changed. -/
structure Flip where
  task : Nat
  feature : Feature
  enable : Bool
  edge : Bool

/-- The change of a subscription that returns with success in a step of a run. -/
def flip? (x : Kernel × Happening) : Option Flip :=
  match x.2 with
  | .stepTask i =>
    match x.1.tasks[i]?, (x.1.stepTask i).bind fun k' => k'.result? i with
    | some ⟨_, .toggling f enable edge _⟩, some (.ok _) => some ⟨i, f, enable, edge⟩
    | _, _ => none
  | _ => none

/-- The changes of subscriptions that took effect; the oldest comes first. -/
def flips (l : List (Kernel × Happening)) : List Flip := (l.filterMap flip?).reverse

/-- Whether each change of a feature that took effect turned it on; the oldest comes first. -/
def switches (f : Feature) (l : List (Kernel × Happening)) : List Bool :=
  ((flips l).filter fun c => c.feature = f).map Flip.enable

/-- The features after a change took effect. -/
def Flip.apply (fs : Features) (c : Flip) : Features := toggled fs c.feature c.enable c.edge

theorem flip?_eq_some {x : Kernel × Happening} {c : Flip} : flip? x = some c ↔
    (∃ token run, x.1.tasks[c.task]? = some ⟨token, .toggling c.feature c.enable c.edge run⟩) ∧
      ∃ r, Returns x c.task (.ok r) := by
  unfold flip?
  constructor
  · intro h
    split at h
    · rename_i i hx
      split at h
      · rename_i token f enable edge run r ht hr
        obtain ⟨k', hs, hres⟩ := Option.bind_eq_some_iff.mp hr
        cases h
        exact ⟨⟨token, run, ht⟩, r, hx, k', hs, hres⟩
      · cases h
    · cases h
  · rintro ⟨⟨token, run, ht⟩, r, hx, k', hs, hres⟩
    simp [hx, ht, hs, hres]

/-- A change takes effect while it holds the gate. -/
theorem holder_of_flip {x : Kernel × Happening} {c : Flip} (ho : x.1.Orderly) (h : flip? x = some c) :
    x.1.gate.holder = some (.task c.task) := by
  obtain ⟨⟨token, run, ht⟩, r, -, k', hs, hres⟩ := flip?_eq_some.mp h
  obtain ⟨g, k₁, hp, -⟩ := Toggling.changed_of_result ho ht hs hres
  refine ho.holder (p := .task c.task) ?_
  rw [stance_of_tasks ht]
  simp [Task.stance, runStance, hp, Toggling.stance]

/-! ## What changes the features -/

theorem ClosePhase.features_step {ph : ClosePhase} {pr : Progress ClosePhase (Except ClientError Unit)}
    (h : ph.step p k = some (k', pr)) : k'.features = k.features := by
  cases turn_of_step h with
  | dismissed => exact (aside_dismissWatcher k).features
  | _ => rfl

theorem Toggling.features_step {a : Toggling} {pr : Progress Toggling (Except ClientError Reply)}
    (h : a.step f enable edge p k = some (k', pr)) (hpr : ∀ v, pr ≠ .done (.ok v)) :
    k'.features = k.features := by
  cases turn_of_step h with
  | admitting ht | admitted ht | refused ht => exact (Admission.aside ht).features
  | changed => exact absurd rfl (hpr _)
  | _ => rfl

theorem Toggling.features_turn {c : Bool} {run : Run Toggling}
    {pr : Progress (Run Toggling) (Except ClientError Reply)}
    (h : Run.Turn (Kernel.toggling f enable edge p) c k run k' pr) (hpr : ∀ v, pr ≠ .done (.ok v)) :
    k'.features = k.features := by
  cases h with
  | cancelledActing => exact (Toggling.aside_abandon _).features
  | cancelledPausing | resumed => rfl
  | advanced _ hs | failed _ hs | retried _ hs => exact Toggling.features_step hs (fun v => by simp)
  | succeeded => exact absurd rfl (hpr _)

/-- A step of an operation leaves the features as they are, unless a change of a subscription succeeds. -/
theorem features_stepTask (ho : k.Orderly) (hs : k.stepTask i = some k')
    (hn : flip? (k, .stepTask i) = none) : k'.features = k.features := by
  obtain ⟨⟨token, t⟩, k₁, t', ht, hstep, rfl⟩ := stepTask_eq_some hs
  show k₁.features = k.features
  cases t with
  | ready request => cases request <;> cases hstep <;> rfl
  | opening ph =>
    obtain ⟨pr, hp, -⟩ := ofPart_eq_some hstep
    exact OpenPhase.features_step hp
  | closing ph =>
    obtain ⟨pr, hp, -⟩ := ofPart_eq_some hstep
    exact ClosePhase.features_step hp
  | running x run =>
    obtain ⟨pr, hp, -⟩ := ofPart_eq_some hstep
    exact (Guarded.aside_turn (Run.turn_of_step hp)).features
  | toggling f enable edge run =>
    have hi : i < k₁.tasks.length := by
      rw [(Task.movement (ho.lifetimeOver ht) hstep).tasks]
      exact (List.getElem?_eq_some_iff.mp ht).1
    obtain ⟨pr, hp, rfl⟩ := ofPart_eq_some hstep
    refine Toggling.features_turn (Run.turn_of_step hp) fun v hv => ?_
    subst hv
    have hflip : flip? (k, .stepTask i) = some ⟨i, f, enable, edge⟩ :=
      flip?_eq_some.mpr ⟨⟨token, run, ht⟩, v, rfl, _, hs, (result?_set hi).mpr rfl⟩
    rw [hn] at hflip
    cases hflip
  | ended r => cases hstep

/-- What happens leaves the features as they are, but for a change of a subscription that takes effect. -/
theorem features_after (ho : k.Orderly) (he : k.after e = some k') :
    k'.features = match flip? (k, e) with
      | some c => Flip.apply k.features c
      | none => k.features := by
  split
  · rename_i c hc
    obtain ⟨⟨token, run, ht⟩, r, hx, k'', hs, hres⟩ := flip?_eq_some.mp hc
    obtain ⟨g, k₁, -, -, hft, -, -, hfs⟩ := Toggling.changed_of_result ho ht hs hres
    have hk : k' = k'' := by
      have hx : e = .stepTask c.task := hx
      subst hx
      exact Option.some.inj (he.symm.trans hs)
    rw [hk, hfs, hft]
    rfl
  · rename_i hn
    rcases after_cases he with ⟨i, rfl, hs⟩ | ⟨i, -, hs⟩ | hb
    · exact features_stepTask ho hs hn
    · obtain ⟨w, k₁, ph, -, hstep, rfl⟩ := stepWatcher_eq_some hs
      have hf := WatchPhase.features_step hstep
      exact hf
    · exact hb.features

/-! ## From the check to the change -/

/-- The change of a subscription with a number looks at the feature, and finds that it is the other way. -/
def Finds (x : Kernel × Happening) (i : Nat) (f : Feature) (enable : Bool) : Prop :=
  x.2 = .stepTask i ∧ x.1.link = .connected ∧ x.1.features.has f ≠ enable

/-- What has happened `since` a change of a subscription looked at the feature: it has held the gate, and the
features have been as they are. -/
structure Spell (l : List (Kernel × Happening)) (i : Nat) (f : Feature) (enable : Bool) (fs : Features)
    (since : List (Kernel × Happening)) : Prop where
  finds : ∃ x before, l = since ++ x :: before ∧ Finds x i f enable ∧
    x.1.gate.holder = some (.task i) ∧ x.1.features = fs
  holds : ∀ y ∈ since, y.1.gate.holder = some (.task i) ∧ y.1.features = fs

theorem Spell.cons {fs : Features} {since : List (Kernel × Happening)} (h : Spell l i f enable fs since)
    (hg : k.gate.holder = some (.task i)) (hf : k.features = fs) :
    Spell ((k, e) :: l) i f enable fs ((k, e) :: since) := by
  obtain ⟨⟨x, before, rfl, hx⟩, hs⟩ := h
  refine ⟨⟨x, before, rfl, hx⟩, fun y hy => ?_⟩
  rcases List.mem_cons.mp hy with rfl | hy
  · exact ⟨hg, hf⟩
  · exact hs y hy

theorem Toggling.calling_of_turn {c : Bool} {run run' : Run Toggling} {g : Subscribing}
    (h : Run.Turn (Kernel.toggling f enable edge p) c k run k' (.more run'))
    (hg : run'.phase = .acting (.calling g)) :
    ∃ a, run.phase = .acting a ∧ a.step f enable edge p k = some (k', .more (.calling g)) := by
  cases h with
  | advanced hp hs =>
    cases hg
    exact ⟨_, hp, hs⟩
  | @retried _ e k₁ delay =>
    have hph := Run.awaiting_cases (Kernel.toggling f enable edge p)
      ((Kernel.toggling f enable edge p).granted k₁ e run.attempt delay) delay
    rcases hph with hph | ⟨t, hph⟩ <;> rw [hph] at hg <;> cases hg
  | resumed => cases hg

theorem Task.toggling_of_step {token : Nat} {t : Task} {run' : Run Toggling}
    (h : t.step token p k = some (k', .toggling f enable edge run')) :
    (t = .ready (.toggle f enable edge) ∧ k' = k ∧
        run' = .ofPolicy (Kernel.toggling f enable edge p) k.policy 0) ∨
      ∃ run, t = .toggling f enable edge run ∧
        Run.Turn (Kernel.toggling f enable edge p) (k.tokenFired token) k run k' (.more run') := by
  cases t with
  | ready request =>
    cases request <;> cases h
    exact .inl ⟨rfl, rfl, rfl⟩
  | toggling f₁ enable₁ edge₁ run =>
    obtain ⟨pr, hp, he⟩ := ofPart_eq_some h
    cases pr with
    | more run₁ =>
      cases he
      exact .inr ⟨run, rfl, Run.turn_of_step hp⟩
    | done r => cases he
  | opening | closing | running => exact absurd h (ofPart_ne (fun _ => by simp) fun _ => by simp)
  | ended r => cases h

/-- A change of a subscription that asks the transport has looked at the feature, and has held the gate since. -/
theorem spell_of_path (hp : Path (initial interval policy) l k) {token : Nat} {run : Run Toggling}
    {g : Subscribing} (ht : k.tasks[i]? = some ⟨token, .toggling f enable edge run⟩)
    (hg : run.phase = .acting (.calling g)) : ∃ since, Spell l i f enable k.features since := by
  induction hp generalizing run g with
  | refl => cases ht
  | @tail l k k' e hp he ih =>
    have hord := orderly_of_reachable (hp.reachable (reachable_initial interval policy))
    have held : ∀ {run : Run Toggling} {a : Toggling}, k.tasks[i]? = some ⟨token, .toggling f enable edge run⟩ →
        run.phase = .acting a → a.stance = .inside → k.gate.holder = some (.task i) := by
      intro run a ht hr ha
      refine hord.holder (p := .task i) ?_
      rw [stance_of_tasks ht]
      simp only [Task.stance, runStance, hr]
      exact ha
    rcases tasks_after hord he i with hs | ⟨-, _, _, hn⟩ | ⟨⟨token', t₀⟩, k₁, t, rfl, ht₀, hs, rfl, hn⟩
    · rw [hs] at ht
      obtain ⟨since, h⟩ := ih ht hg
      have hh := held ht hg rfl
      have hf : k'.features = k.features := by
        rw [features_after hord he]
        split
        · -- A change that takes effect is that of whoever holds the gate, and it returns.
          rename_i c hc
          have hi := (holder_of_flip hord hc).symm.trans hh
          cases hi
          obtain ⟨-, r, he', k'', hs', hres⟩ := flip?_eq_some.mp hc
          cases he'
          cases he.symm.trans hs'
          obtain ⟨_, hend⟩ := result?_eq_some.mp hres
          cases hend.symm.trans (hs.trans ht)
        · rfl
      rw [hf]
      exact ⟨_, h.cons hh rfl⟩
    · rw [hn] at ht
      cases ht
    · rw [hn] at ht
      cases ht
      show ∃ since, Spell _ i f enable k₁.features since
      rcases Task.toggling_of_step hs with ⟨-, -, rfl⟩ | ⟨run₀, rfl, hturn⟩
      · cases hg
      · obtain ⟨a, hr, ha⟩ := Toggling.calling_of_turn hturn hg
        have hf : k₁.features = k.features := Toggling.features_step ha (fun v => by simp)
        rw [hf]
        cases Toggling.turn_of_step ha with
        | began hl hd =>
          exact ⟨[], ⟨_, l, rfl, ⟨rfl, hl, hd⟩, held ht₀ hr rfl, rfl⟩, by simp⟩
        | calling =>
          obtain ⟨since, h⟩ := ih ht₀ hr
          exact ⟨_, h.cons (held ht₀ hr rfl) rfl⟩

/-! ## Alternation -/

/-- Starts with on, and changes each time. -/
structure Alternating (bs : List Bool) : Prop where
  starts : ∀ b ∈ bs.head?, b = true
  changes : bs.IsChain (· ≠ ·)

theorem Alternating.append {bs : List Bool} {b : Bool} (h : Alternating bs) (hb : bs.getLast?.getD false ≠ b) :
    Alternating (bs ++ [b]) := by
  cases hl : bs.getLast? with
  | none =>
    obtain rfl := List.getLast?_eq_none_iff.mp hl
    rw [hl] at hb
    exact ⟨fun c hc => by cases hc; exact eq_true_of_ne_false hb.symm, .singleton b⟩
  | some a =>
    rw [hl] at hb
    refine ⟨fun c hc => h.starts c ?_, List.isChain_append.mpr ⟨h.changes, .singleton b, ?_⟩⟩
    · cases bs with
      | nil => cases hl
      | cons => exact hc
    · intro x hx y hy
      rw [hl] at hx
      cases hx
      cases hy
      exact hb

theorem flips_cons_of_none {x : Kernel × Happening} (h : flip? x = none) : flips (x :: l) = flips l := by
  unfold flips
  rw [List.filterMap_cons_none h]

theorem flips_cons_of_some {x : Kernel × Happening} {c : Flip} (h : flip? x = some c) :
    flips (x :: l) = flips l ++ [c] := by
  unfold flips
  rw [List.filterMap_cons_some h, List.reverse_cons]

/-- The recorded features are what the changes that took effect make of none, one after another. -/
theorem features_of_path (hp : Path (initial interval policy) l k) :
    k.features = (flips l).foldl Flip.apply {} := by
  induction hp with
  | refl => rfl
  | @tail l k k' e hp he ih =>
    rw [features_after (orderly_of_reachable (hp.reachable (reachable_initial interval policy))) he]
    cases hc : flip? (k, e) with
    | none => rw [flips_cons_of_none hc, ← ih]
    | some c => rw [flips_cons_of_some hc, List.foldl_append, ← ih]; rfl

/-- The changes of a feature that took effect alternate, and the feature is as the last of them left it. -/
theorem alternating_of_path (hp : Path (initial interval policy) l k) (f : Feature) :
    Alternating (switches f l) ∧ k.features.has f = (switches f l).getLast?.getD false := by
  induction hp with
  | refl => exact ⟨⟨by simp [switches, flips], .nil⟩, by cases f <;> rfl⟩
  | @tail l k k' e hp he ih =>
    have hord := orderly_of_reachable (hp.reachable (reachable_initial interval policy))
    have hf := features_after hord he
    cases hc : flip? (k, e) with
    | none =>
      rw [hc] at hf
      unfold switches at ih ⊢
      rw [flips_cons_of_none hc, hf]
      exact ih
    | some c =>
      rw [hc] at hf
      have hsw : switches f ((k, e) :: l) = if c.feature = f then switches f l ++ [c.enable] else switches f l := by
        unfold switches
        rw [flips_cons_of_some hc, List.filter_append, List.map_append]
        split <;> simp [*]
      have hhas : k'.features.has f = if f = c.feature then c.enable else k.features.has f := by
        rw [hf]
        exact has_toggled f
      rw [hsw, hhas]
      by_cases hcf : c.feature = f
      · subst hcf
        obtain ⟨⟨token, run, ht⟩, r, -, k'', hs, hres⟩ := flip?_eq_some.mp hc
        obtain ⟨g, -, hg, -⟩ := Toggling.changed_of_result hord ht hs hres
        obtain ⟨since, ⟨⟨x, before, -, hx, -, hfs⟩, -⟩⟩ := spell_of_path hp ht hg
        rw [if_pos rfl, if_pos rfl]
        refine ⟨ih.1.append ?_, by simp⟩
        rw [← ih.2, ← hfs]
        exact hx.2.2
      · rw [if_neg hcf, if_neg (Ne.symm hcf)]
        exact ih

/-! ## The calls that an operation makes -/

/-- A call of the transport that is made in a step of a run. -/
def Makes (x : Kernel × Happening) (id : CallId) (r : HubDevice.Request) : Prop :=
  ∃ k' new, x.1.after x.2 = some k' ∧ k'.handler.wire.trace = new ++ x.1.handler.wire.trace ∧
    .called id r ∈ new

/-- A call of the transport that the operation with a number has made. -/
def MadeBy (i : Nat) (l : List (Kernel × Happening)) (id : CallId) (r : HubDevice.Request) : Prop :=
  ∃ x ∈ l, x.2 = .stepTask i ∧ Makes x id r

theorem MadeBy.cons {x : Kernel × Happening} {id : CallId} {r : HubDevice.Request} (h : MadeBy i l id r) :
    MadeBy i (x :: l) id r := by
  obtain ⟨y, hy, hm⟩ := h
  exact ⟨y, List.mem_cons_of_mem _ hy, hm⟩

/-- What others do makes no call of the operation. -/
theorem MadeBy.of_ne {id : CallId} {r : HubDevice.Request} (h : MadeBy i ((k, e) :: l) id r)
    (he : e ≠ .stepTask i) : MadeBy i l id r := by
  obtain ⟨y, hy, hx, hm⟩ := h
  rcases List.mem_cons.mp hy with rfl | hy
  · exact absurd hx he
  · exact ⟨y, hy, hx, hm⟩

/-- A call that was made up to a step was made before it, or is among what the step has added to the record. -/
theorem MadeBy.of_trace {id : CallId} {r : HubDevice.Request} {new : List Event}
    (h : MadeBy i ((k, e) :: l) id r) (he : k.after e = some k')
    (ht : k'.handler.wire.trace = new ++ k.handler.wire.trace) : MadeBy i l id r ∨ .called id r ∈ new := by
  obtain ⟨y, hy, hx, k'', new', hk, ht', hm⟩ := h
  rcases List.mem_cons.mp hy with rfl | hy
  · cases he.symm.trans hk
    have hnew : new = new' := List.append_cancel_right (ht.symm.trans ht')
    exact .inr (hnew ▸ hm)
  · exact .inl ⟨y, hy, hx, k'', new', hk, ht', hm⟩

theorem MadeBy.of_trace_eq {id : CallId} {r : HubDevice.Request} (h : MadeBy i ((k, e) :: l) id r)
    (he : k.after e = some k') (ht : k'.handler.wire.trace = k.handler.wire.trace) : MadeBy i l id r := by
  have ht : k'.handler.wire.trace = [] ++ k.handler.wire.trace := ht
  exact (h.of_trace he ht).resolve_right List.not_mem_nil

/-- The call that a change of a subscription waits for. -/
def awaits? : Phase Toggling → Option CallId
  | .acting (.calling (.waiting id)) => some id
  | _ => none

/-- A call that opens or closes the channel of a feature. -/
def Toward (f : Feature) (enable edge : Bool) (r : HubDevice.Request) : Prop :=
  ∃ s, r = Subscribing.request enable s (f.channel edge)

/-- The calls that a change of a subscription on its way has made: all are about its channel, and all but the
one that it waits for were answered with an error. -/
structure Accounted (i : Nat) (f : Feature) (enable edge : Bool) (ph : Phase Toggling)
    (l : List (Kernel × Happening)) (k : Kernel) : Prop where
  starts : ∀ on c, ph = .acting (.calling (.start on c)) → on = enable ∧ c = f.channel edge
  made : ∀ id r, MadeBy i l id r → Toward f enable edge r ∧
    (awaits? ph = some id ∨ ∃ e, k.handler.wire.Answered id (.error e))
  awaited : ∀ id, awaits? ph = some id → (∃ r, MadeBy i l id r) ∧ k.handler.wire.Awaited id

/-- The calls of a change that took effect: all are about its channel, one was answered with success, and all
others were answered with an error. -/
structure Confirmed (c : Flip) (l : List (Kernel × Happening)) (k : Kernel) : Prop where
  made : ∀ id r, MadeBy c.task l id r → Toward c.feature c.enable c.edge r
  once : ∃ id r reply, MadeBy c.task l id r ∧ k.handler.wire.Answered id (.ok reply) ∧
    ∀ id' r', MadeBy c.task l id' r' → id' ≠ id → ∃ e, k.handler.wire.Answered id' (.error e)

variable {ph ph' : Phase Toggling}

theorem Accounted.mono {A : Scope} (h : Accounted i f enable edge ph l k) (he : e ≠ .stepTask i)
    (hw : k.handler.wire.Touches A k'.handler.wire) : Accounted i f enable edge ph ((k, e) :: l) k' where
  starts := h.starts
  made id r hr := by
    obtain ⟨ht, hor⟩ := h.made id r (hr.of_ne he)
    refine ⟨ht, hor.imp_right fun ⟨x, hx⟩ => ⟨x, hw.answered_of hx⟩⟩
  awaited id ha := by
    obtain ⟨⟨r, hr⟩, hid⟩ := h.awaited id ha
    exact ⟨⟨r, hr.cons⟩, hw.awaited hid⟩

theorem Confirmed.mono {c : Flip} {A : Scope} (h : Confirmed c l k) (he : e ≠ .stepTask c.task)
    (hw : k.handler.wire.Touches A k'.handler.wire) : Confirmed c ((k, e) :: l) k' := by
  obtain ⟨id, r, reply, hid, hans, hothers⟩ := h.once
  refine ⟨fun id r hr => h.made id r (hr.of_ne he), id, r, reply, hid.cons, hw.answered_of hans,
    fun id' r' hr' hne => ?_⟩
  obtain ⟨x, hx⟩ := hothers id' r' (hr'.of_ne he) hne
  exact ⟨x, hw.answered_of hx⟩

theorem Admission.Turn.handler {a : Admission} {pr : Progress Admission (Except ClientError Unit)}
    (h : a.Turn p k k' pr) : k'.handler = k.handler := by
  cases h <;> rfl

/-! Each step of a change makes no call, makes one, or takes the answer to the one that it waits for. -/

theorem Accounted.quiet (h : Accounted i f enable edge ph l k) (he : k.after e = some k')
    (hw : k'.handler.wire = k.handler.wire) (ha : awaits? ph = none) (ha' : awaits? ph' = none)
    (hs : ∀ on c, ph' = .acting (.calling (.start on c)) → on = enable ∧ c = f.channel edge) :
    Accounted i f enable edge ph' ((k, e) :: l) k' where
  starts := hs
  made id r hr := by
    rw [hw, ha', ← ha]
    exact h.made id r (hr.of_trace_eq he (congrArg Wire.trace hw))
  awaited id hid := by
    rw [ha'] at hid
    cases hid

theorem Accounted.asked {s : SessionId} (h : Accounted i f enable edge ph l k) (hn : k.handler.wire.Numbered)
    (hd : k.handler.wire.Dated) (ha : awaits? ph = none) (ha' : awaits? ph' = some k.handler.wire.issued)
    (he : k.after (.stepTask i) = some k')
    (hw : k'.handler.wire = (k.handler.wire.call (Subscribing.request enable s (f.channel edge))).1) :
    Accounted i f enable edge ph' ((k, .stepTask i) :: l) k' := by
  have ht : k'.handler.wire.trace =
      [.called k.handler.wire.issued (Subscribing.request enable s (f.channel edge))] ++ k.handler.wire.trace := by
    rw [hw, trace_call]
    rfl
  have htouch : k.handler.wire.Touches { calls := fun _ => True } k'.handler.wire := by
    rw [hw]
    exact (Touch.called trivial).touches
  refine ⟨fun on c hp => ?_, fun id r hr => ?_, fun id hid => ?_⟩
  · simp [awaits?, hp] at ha'
  · rcases hr.of_trace he ht with hr | hr
    · obtain ⟨htw, hor⟩ := h.made id r hr
      rw [ha] at hor
      obtain ⟨x, hx⟩ := hor.resolve_left (by simp)
      exact ⟨htw, .inr ⟨x, htouch.answered_of hx⟩⟩
    · cases List.mem_singleton.mp hr
      exact ⟨⟨s, rfl⟩, .inl ha'⟩
  · cases ha'.symm.trans hid
    refine ⟨⟨_, (k, .stepTask i), List.mem_cons_self, rfl, k', _, he, ht, List.mem_cons_self⟩, ?_⟩
    rw [hw]
    exact awaited_call hn hd _

/-- What is known of the calls once the answer to the one that was waited for is taken. -/
theorem Accounted.taken {id : CallId} {d : PendingCall} {o : Outcome} (h : Accounted i f enable edge ph l k)
    (ha : awaits? ph = some id) (he : k.after e = some k') (hw : k'.handler.wire = k.handler.wire.abandon id)
    (hd : d ∈ k.handler.wire.calls) (hid : d.id = id) (hans : d.answer = some o) :
    (∃ r, MadeBy i ((k, e) :: l) id r) ∧ k'.handler.wire.Answered id o ∧
      ∀ id' r, MadeBy i ((k, e) :: l) id' r → Toward f enable edge r ∧
        (id' ≠ id → ∃ x, k'.handler.wire.Answered id' (.error x)) := by
  obtain ⟨⟨r, hr⟩, hawaited⟩ := h.awaited id ha
  refine ⟨⟨r, hr.cons⟩, hw ▸ hawaited.taken hd hid hans, fun id' r' hr' => ?_⟩
  have ht : k'.handler.wire.trace = k.handler.wire.trace := by
    rw [hw]
    rfl
  obtain ⟨htw, hor⟩ := h.made id' r' (hr'.of_trace_eq he ht)
  refine ⟨htw, fun hne => ?_⟩
  rw [ha] at hor
  obtain ⟨x, hx⟩ := hor.resolve_left fun hid' => hne (Option.some.inj hid').symm
  exact ⟨x, hw ▸ (Touch.abandoned (A := .nothing) id).answered_of hx⟩

/-- What a step of an attempt makes of the account; an attempt that has failed leaves nothing open. -/
theorem Accounted.attempt {a : Toggling} {k₁ : Kernel} {pr : Progress Toggling (Except ClientError Reply)}
    (h : Accounted i f enable edge (.acting a) l k) (hn : k.handler.wire.Numbered) (hd : k.handler.wire.Dated)
    (ht : a.Turn f enable edge (.task i) k k₁ pr) (he : k.after (.stepTask i) = some k')
    (hk : k'.handler = k₁.handler) :
    pr.Leaves (fun a' => Accounted i f enable edge (.acting a') ((k, .stepTask i) :: l) k')
      (Confirmed ⟨i, f, enable, edge⟩ ((k, .stepTask i) :: l) k')
      (∀ ph', (ph' = .acting (Kernel.toggling f enable edge (.task i)).start ∨ ∃ t, ph' = .pausing t) →
        Accounted i f enable edge ph' ((k, .stepTask i) :: l) k') := by
  have still : ∀ ph', k₁.handler = k.handler → awaits? (.acting a) = none → awaits? ph' = none →
      (∀ on c, ph' ≠ .acting (.calling (.start on c))) →
      Accounted i f enable edge ph' ((k, .stepTask i) :: l) k' := by
    intro ph' hk₁ ha ha' hs
    exact h.quiet he (by rw [hk, hk₁]) ha ha' fun on c hp => absurd hp (hs on c)
  have idle : k₁.handler = k.handler → awaits? (.acting a) = none → ∀ ph',
      (ph' = .acting (Kernel.toggling f enable edge (.task i)).start ∨ ∃ t, ph' = .pausing t) →
      Accounted i f enable edge ph' ((k, .stepTask i) :: l) k' := by
    intro hk₁ ha ph' hph
    rcases hph with rfl | ⟨t, rfl⟩ <;> exact still _ hk₁ ha rfl (by simp [Kernel.toggling])
  cases ht with
  | admitting hta | admitted hta => exact still _ hta.handler rfl rfl (by simp)
  | refused hta => exact idle hta.handler rfl
  | asked | entered => exact still _ rfl rfl rfl (by simp)
  | unusable | pointless => exact idle rfl rfl
  | began =>
    refine h.quiet he (by rw [hk]) rfl rfl fun on c hp => ?_
    cases hp
    exact ⟨rfl, rfl⟩
  | calling hg =>
    cases Subscribing.turn_of_step hg with
    | asked hslot =>
      obtain ⟨rfl, rfl⟩ := h.starts _ _ rfl
      exact h.asked hn hd rfl rfl he (by rw [hk]; rfl)
  | changed hg =>
    cases Subscribing.turn_of_step hg with
    | @confirmed id d r hm hid hans =>
      obtain ⟨⟨r', hr'⟩, hid', hmade⟩ := h.taken rfl he (by rw [hk]; rfl) hm hid hans
      exact ⟨fun id' r hr => (hmade id' r hr).1, id, r', r, hr', hid',
        fun id' r hr hne => (hmade id' r hr).2 hne⟩
  | failed hg =>
    cases Subscribing.turn_of_step hg with
    | vacant => exact idle rfl rfl
    | @refused id d x hm hid hans =>
      obtain ⟨-, hid', hmade⟩ := h.taken rfl he (by rw [hk]; rfl) hm hid hans
      intro ph' hph
      have ha : awaits? ph' = none := by rcases hph with rfl | ⟨t, rfl⟩ <;> rfl
      refine ⟨fun on c hp => ?_, fun id' r hr => ?_, fun id' hid' => ?_⟩
      · rcases hph with rfl | ⟨t, rfl⟩ <;> cases hp
      · obtain ⟨htw, hne⟩ := hmade id' r hr
        by_cases he' : id' = id
        · exact ⟨htw, .inr ⟨x, he' ▸ hid'⟩⟩
        · exact ⟨htw, .inr (hne he')⟩
      · rw [ha] at hid'
        cases hid'

theorem Accounted.step {c : Bool} {run : Run Toggling} {k₁ : Kernel}
    {pr : Progress (Run Toggling) (Except ClientError Reply)} (h : Accounted i f enable edge run.phase l k)
    (hn : k.handler.wire.Numbered) (hd : k.handler.wire.Dated)
    (ht : Run.Turn (Kernel.toggling f enable edge (.task i)) c k run k₁ pr)
    (he : k.after (.stepTask i) = some k') (hk : k'.handler = k₁.handler) :
    pr.Leaves (fun run' => Accounted i f enable edge run'.phase ((k, .stepTask i) :: l) k')
      (Confirmed ⟨i, f, enable, edge⟩ ((k, .stepTask i) :: l) k') True := by
  cases ht with
  | cancelledActing | cancelledPausing | failed => trivial
  | advanced hp hs =>
    rw [hp] at h
    exact h.attempt hn hd (Toggling.turn_of_step hs) he hk
  | succeeded _ hp hs =>
    rw [hp] at h
    exact h.attempt hn hd (Toggling.turn_of_step hs) he hk
  | @retried a e k₂ delay hp hs =>
    rw [hp] at h
    exact h.attempt hn hd (Toggling.turn_of_step hs) he hk _ (Run.awaiting_cases _ _ delay)
  | resumed hp =>
    rw [hp] at h
    exact h.quiet he (by rw [hk]) rfl rfl fun on c hph => by cases hph

theorem dated_of_reachable (h : k.Reachable) : k.handler.wire.Dated :=
  Reachable.induct (P := fun k => k.handler.wire.Dated) (fun _ _ _ _ => rfl)
    (fun hr hd he => by
      obtain ⟨A, ht⟩ := wire_after (orderly_of_reachable hr) he
      exact ht.dated hd (orderly_of_reachable hr).numbered) h

/-- What an operation has asked of the transport: nothing before it begins, and as accounted while it changes a
subscription. -/
def Account (i : Nat) (l : List (Kernel × Happening)) (k : Kernel) : Prop :=
  match k.tasks[i]? with
  | none | some ⟨_, .ready _⟩ => ∀ id r, ¬ MadeBy i l id r
  | some ⟨_, .toggling f enable edge run⟩ => Accounted i f enable edge run.phase l k
  | _ => True

theorem Account.other (h : Account i l k) (ho : k.Orderly) (he : k.after e = some k') (hei : e ≠ .stepTask i) :
    Account i ((k, e) :: l) k' := by
  obtain ⟨A, hw⟩ := wire_after ho he
  unfold Account at h ⊢
  rcases tasks_after ho he i with hs | ⟨hnone, token, r, hnew⟩ | ⟨_, _, _, hei', -⟩
  · rw [hs]
    split at h
    · exact fun id r hr => h id r (hr.of_ne hei)
    · exact fun id r hr => h id r (hr.of_ne hei)
    · exact h.mono hei hw
    · trivial
  · rw [hnone] at h
    rw [hnew]
    exact fun id r hr => h id r (hr.of_ne hei)
  · exact absurd hei' hei

theorem Task.step_ne_ready {token : Nat} {r : Request} (t : Task) : t.step token p k ≠ some (k', .ready r) := by
  cases t with
  | ready request => cases request <;> simp [Task.step]
  | opening | closing | running | toggling => exact ofPart_ne (fun _ => by simp) fun _ => by simp
  | ended result => simp [Task.step]

theorem Account.own (h : Account i l k) (hr : k.Reachable) (hs : k.stepTask i = some k') :
    Account i ((k, .stepTask i) :: l) k' := by
  have hord := orderly_of_reachable hr
  obtain ⟨⟨token, t₀⟩, k₁, t, ht₀, hstep, rfl⟩ := stepTask_eq_some hs
  have hi : i < k₁.tasks.length := by
    rw [(Task.movement (hord.lifetimeOver ht₀) hstep).tasks]
    exact (List.getElem?_eq_some_iff.mp ht₀).1
  unfold Account at h ⊢
  rw [ht₀] at h
  rw [List.getElem?_set_self hi]
  cases t with
  | toggling f enable edge run' =>
    rcases Task.toggling_of_step hstep with ⟨rfl, rfl, rfl⟩ | ⟨run, rfl, hturn⟩
    · -- Nothing was asked before, and this step asks nothing.
      have hnot : ∀ id r, ¬ MadeBy i ((k₁, .stepTask i) :: l) id r :=
        fun id r hm => h id r (hm.of_trace_eq hs rfl)
      refine ⟨fun on c hp => ?_, fun id r hm => absurd hm (hnot id r), fun id ha => ?_⟩
      · cases hp
      · cases ha
    · exact Accounted.step h hord.numbered (dated_of_reachable hr) hturn hs rfl
  | ready r => exact absurd hstep (Task.step_ne_ready t₀)
  | opening | closing | running | ended => trivial

theorem account_of_path (hp : Path (initial interval policy) l k) (i : Nat) : Account i l k := by
  induction hp with
  | refl => exact fun id r ⟨x, hx, _⟩ => by cases hx
  | @tail l k k' e hp he ih =>
    have hr := hp.reachable (reachable_initial interval policy)
    by_cases hei : e = .stepTask i
    · subst hei
      exact ih.own hr he
    · exact ih.other (orderly_of_reachable hr) he hei

/-- A change that takes effect was confirmed, and remains so. -/
theorem confirmed_of_path (hp : Path (initial interval policy) l k) {x : Kernel × Happening} {c : Flip}
    (hx : x ∈ l) (hc : flip? x = some c) : Confirmed c l k ∧ (k.result? c.task).isSome = true := by
  induction hp with
  | refl => cases hx
  | @tail l k k' e hp he ih =>
    have hr := hp.reachable (reachable_initial interval policy)
    have hord := orderly_of_reachable hr
    rcases List.mem_cons.mp hx with rfl | hx
    · obtain ⟨⟨token, run, ht⟩, r, hx, k'', hs, hres⟩ := flip?_eq_some.mp hc
      have hx : e = .stepTask c.task := hx
      subst hx
      cases he.symm.trans hs
      refine ⟨?_, by rw [hres]; rfl⟩
      have hacc := account_of_path hp c.task
      unfold Account at hacc
      rw [ht] at hacc
      obtain ⟨⟨_, t₀⟩, k₁, t, ht₀, hstep, rfl⟩ := stepTask_eq_some hs
      cases ht.symm.trans ht₀
      have hi : c.task < k₁.tasks.length := by
        rw [(Task.movement (hord.lifetimeOver ht) hstep).tasks]
        exact (List.getElem?_eq_some_iff.mp ht).1
      obtain rfl := (result?_set hi).mp hres
      obtain ⟨pr, hrun, hpr⟩ := ofPart_eq_some hstep
      cases pr with
      | more run' => cases hpr
      | done res =>
        cases res with
        | error x => cases hpr
        | ok v => exact hacc.step hord.numbered (dated_of_reachable hr) (Run.turn_of_step hrun) hs rfl
    · obtain ⟨hconf, hres⟩ := ih hx
      obtain ⟨A, hw⟩ := wire_after hord he
      refine ⟨hconf.mono (fun hei => ?_) hw, isSome_result?_after hord he hres⟩
      subst hei
      rw [result?_of_stepTask he] at hres
      cases hres

/-! ## One after another -/

/-- A call that has returned with an error has not changed the features in any of its steps. -/
theorem features_of_failed (hp : Path (initial interval policy) l k) {x : ClientError}
    (hres : k.result? i = some (.error x)) {y : Kernel × Happening} (hy : y ∈ l) (hi : y.2 = .stepTask i)
    (he : y.1.after y.2 = some k') : k'.features = y.1.features := by
  obtain ⟨newer, older, rfl⟩ := List.append_of_mem hy
  obtain ⟨hp', k₁, he', hn⟩ := hp.cut
  cases he.symm.trans he'
  have hr := hp'.reachable (reachable_initial interval policy)
  have hord := orderly_of_reachable hr
  rw [features_after hord he]
  split
  · -- A change that took effect has returned with success, and that is its result for good.
    rename_i c hc
    obtain ⟨-, r, hx, k₂, hs, hok⟩ := flip?_eq_some.mp hc
    have hic : c.task = i := by
      cases hx.symm.trans hi
      rfl
    rw [hx] at he
    cases he.symm.trans hs
    have hkept : ∀ {l' k₂}, Path k' l' k₂ → k₂.result? c.task = some (.ok r) := by
      intro l' k₂ hl
      induction hl with
      | refl => exact hok
      | tail e hl he₂ ih =>
        exact result?_after (orderly_of_reachable (hl.reachable (hr.after (hx ▸ he)))) he₂ ih
    have hfinal := hkept hn
    rw [hic, hres] at hfinal
    cases hfinal
  · rfl

/-- In every run, whatever changes of subscriptions it mixes with whatever else: the changes of a feature that
succeed alternate, in the order in which they hold the gate, beginning with one that turns it on, and the
feature is on just when the last of them turned it on; the features are what all of them make of none, one after
another. Each holds the gate from the step in which it finds the feature to be the other way to the step in which
it takes effect and returns; nothing changes the features meanwhile, and of the transport calls it has made over
all its attempts, each of which opens or closes its channel, exactly one was answered with success. Nothing else
changes the features, and a call that returns with an error does not. -/
theorem toggles_serialized (hp : Path (initial interval policy) l k) :
    (∀ f, Alternating (switches f l) ∧ k.features.has f = (switches f l).getLast?.getD false) ∧
    k.features = (flips l).foldl Flip.apply {} ∧
    (∀ newer x older c, l = newer ++ x :: older → flip? x = some c →
      x.1.gate.holder = some (.task c.task) ∧
      (∃ since, Spell older c.task c.feature c.enable x.1.features since) ∧ Confirmed c l k) ∧
    (∀ x ∈ l, ∀ k', x.1.after x.2 = some k' → k'.features = match flip? x with
      | some c => c.apply x.1.features
      | none => x.1.features) ∧
    (∀ i e, k.result? i = some (.error e) → ∀ x ∈ l, x.2 = .stepTask i →
      ∀ k', x.1.after x.2 = some k' → k'.features = x.1.features) := by
  refine ⟨alternating_of_path hp, features_of_path hp, fun newer x older c hl hc => ?_, fun x hx k' he => ?_,
    fun i e hres x hx hi k' he => features_of_failed hp hres hx hi he⟩
  · subst hl
    obtain ⟨hp', -⟩ := hp.cut
    have hord := orderly_of_reachable (hp'.reachable (reachable_initial interval policy))
    obtain ⟨⟨token, run, ht⟩, r, -, k'', hs, hres⟩ := flip?_eq_some.mp hc
    obtain ⟨g, -, hg, -⟩ := Toggling.changed_of_result hord ht hs hres
    exact ⟨holder_of_flip hord hc, spell_of_path hp' ht hg, (confirmed_of_path hp (by simp) hc).1⟩
  · have hord := orderly_of_reachable (hp.reachable_of_mem (reachable_initial interval policy) hx)
    exact features_after hord he

/-- Two calls turn direct methods on. The transport refuses the first, so that the second gets the gate and
succeeds; the first tries again later. -/
def contestedToggles : List Happening :=
  List.flatten [firstOpening, [.start 0 (.toggle .methods true false), .start 0 (.toggle .methods true false)],
    List.replicate 7 (.stepTask 1), List.replicate 4 (.stepTask 2),
    [.answer 2 (.error (.network "reset")), .stepTask 1], List.replicate 3 (.stepTask 2),
    [.answer 3 (.ok .done), .stepTask 2, .pass 60000], List.replicate 6 (.stepTask 1)]

/-- On this run the last change that succeeds turns methods on, and the call that finds them on already does not
change any feature. -/
theorem toggles_serialized_contested : ∃ l k, (initial none .standard).course contestedToggles = some k ∧
    Path (initial none .standard) l k ∧ k.result? 2 = some (.ok .done) ∧
    k.result? 1 = some (.error (.featureState .methods true)) ∧ (switches .methods l).getLast? = some true ∧
    ∀ x ∈ l, x.2 = .stepTask 1 → ∀ k', x.1.after x.2 = some k' → k'.features = x.1.features := by
  obtain ⟨k, hc, hok, herr, hf⟩ : ∃ k, (initial none .standard).course contestedToggles = some k ∧
      k.result? 2 = some (.ok .done) ∧ k.result? 1 = some (.error (.featureState .methods true)) ∧
      k.features.has .methods = true := ⟨_, rfl, rfl, rfl, rfl⟩
  obtain ⟨l, hp, -⟩ := path_of_course hc
  obtain ⟨halt, -, -, -, hfailed⟩ := toggles_serialized hp
  refine ⟨l, k, hc, hp, hok, herr, ?_, hfailed 1 _ herr⟩
  have hlast := (halt .methods).2
  rw [hf] at hlast
  cases hl : (switches .methods l).getLast? with
  | none =>
    rw [hl] at hlast
    cases hlast
  | some b =>
    rw [hl] at hlast
    cases hlast
    rfl

end HubDevice.Kernel
