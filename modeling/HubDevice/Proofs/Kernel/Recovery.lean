import HubDevice.Kernel.Recovery
import HubDevice.Proofs.Handler

/-!
# What an attempt to bring the connection up does to the session slot

`Recovery.Turn` are the steps of an attempt, and every law of a step is a case analysis of them. An attempt makes
only calls that replace the session or open its channels (`Recovery.touches_step`).
`Recovery.Fresh` is what an attempt knows of the session it brings: whatever sessions were known before,
the one that an attempt leaves in the slot when it succeeds is newer than all of them
(`Recovery.fresh_step`).
-/

namespace HubDevice.Kernel.Recovery

open Wire Handler

variable {h h' : Handler} {old : List SessionId}

/-- The calls of an attempt. -/
def scope : Scope := { calls := fun r => r.Replacing ∨ r.OnChannel }

theorem uses_stepFirst {pending : List (Option Subscribing)} {r : Replayed}
    (hs : stepFirst h pending = some r) : Uses .onChannel h r.handler := by
  induction pending generalizing r with
  | nil => cases hs
  | cons g rest ih =>
    cases g with
    | none =>
      obtain ⟨r', hr', rfl⟩ := Option.map_eq_some_iff.mp hs
      exact ih (r := r') hr'
    | some g =>
      simp only [stepFirst] at hs
      split at hs
      · cases hs
        rename_i hg
        exact Subscribing.uses_step hg
      · cases hs
        rename_i hg
        exact Subscribing.uses_step hg
      · cases hs
        rename_i hg
        exact Subscribing.uses_step hg
      · obtain ⟨r', hr', rfl⟩ := Option.map_eq_some_iff.mp hs
        exact ih (r := r') hr'

theorem uses_abandonAll {A : Scope} (h : Handler) (pending : List (Option Subscribing)) :
    Uses A h (abandonAll h pending) := by
  unfold abandonAll
  induction pending generalizing h with
  | nil => exact Uses.refl h
  | cons g rest ih =>
    cases g with
    | none => exact ih h
    | some g => exact (g.uses_abandon h).trans (ih _)

theorem uses_abandon {A : Scope} (a : Recovery) (h : Handler) :
    Uses A h (a.abandon h) := by
  cases a with
  | opening o => exact o.uses_abandon h
  | replaying pending => exact uses_abandonAll h pending

/-! ## Steps -/

inductive Turn (fs : Features) (c : Bool) (h : Handler) :
    Recovery → Handler → Progress Recovery (Except ClientError Unit) → Prop where
  | opening {o o' : Opening} {h' : Handler} : o.step c h = some (h', .more o') →
      Turn fs c h (.opening o) h' (.more (.opening o'))
  | opened {o : Opening} {h' : Handler} {pr : Progress Recovery (Except ClientError Unit)} :
      o.step c h = some (h', .done (.ok ())) → pr = settle (replay fs) → Turn fs c h (.opening o) h' pr
  | unopened {o : Opening} {h' : Handler} {e : ClientError} : o.step c h = some (h', .done (.error e)) →
      Turn fs c h (.opening o) h' (.done (.error e))
  | replayed {pending pending' : List (Option Subscribing)} {h' : Handler}
      {pr : Progress Recovery (Except ClientError Unit)} :
      stepFirst h pending = some ⟨h', pending', none⟩ → pr = settle pending' → Turn fs c h (.replaying pending) h' pr
  /-- A subscription has failed, and those that are left are given up. -/
  | refused {pending pending' : List (Option Subscribing)} {h' : Handler} {e : ClientError} :
      stepFirst h pending = some ⟨h', pending', some e⟩ →
      Turn fs c h (.replaying pending) (abandonAll h' pending') (.done (.error e))

variable {fs : Features} {c : Bool} {a : Recovery} {pr : Progress Recovery (Except ClientError Unit)}

theorem turn_of_step (hs : a.step fs c h = some (h', pr)) : Turn fs c h a h' pr := by
  cases a with
  | opening o =>
    simp only [step] at hs
    split at hs <;> cases hs <;> rename_i ho
    · exact .opening ho
    · exact .opened ho rfl
    · exact .unopened ho
  | replaying pending =>
    simp only [step] at hs
    split at hs <;> cases hs <;> rename_i he
    · exact .replayed he rfl
    · exact .refused he

theorem touches_step (hs : a.step fs c h = some (h', pr)) : h.wire.Touches scope h'.wire := by
  have onChannel : ∀ {h₁ h₂ : Handler}, Uses .onChannel h₁ h₂ → h₁.wire.Touches scope h₂.wire :=
    fun hu => hu.touches.mono ⟨fun _ => .inr, fun _ => id⟩
  cases turn_of_step hs with
  | opening ho | opened ho | unopened ho => exact (Opening.touches_step ho).mono ⟨fun _ => .inl, fun _ => id⟩
  | replayed he => exact onChannel (uses_stepFirst he)
  | refused he => exact onChannel ((uses_stepFirst he).trans (uses_abandonAll _ _))

/-- An attempt takes no time by itself. -/
theorem now_step (hs : a.step fs c h = some (h', pr)) : h'.now = h.now := by
  cases turn_of_step hs with
  | opening ho | opened ho | unopened ho => exact Opening.now_step ho
  | replayed he => exact (uses_stepFirst he).now
  | refused he => exact ((uses_stepFirst he).trans (uses_abandonAll _ _)).now

theorem error_of_stepFirst {pending : List (Option Subscribing)} {r : Replayed} {e : ClientError}
    (hs : stepFirst h pending = some r) (he : r.failure = some e) : ∃ t, e = .transport t := by
  induction pending generalizing r with
  | nil => cases hs
  | cons g rest ih =>
    cases g with
    | none =>
      obtain ⟨r', hr', rfl⟩ := Option.map_eq_some_iff.mp hs
      exact ih hr' he
    | some g =>
      simp only [stepFirst] at hs
      split at hs
      · cases hs
        cases he
      · cases hs
        cases he
      · cases hs
        cases he
        rename_i hg
        exact Subscribing.error_eq hg
      · obtain ⟨r', hr', rfl⟩ := Option.map_eq_some_iff.mp hs
        exact ih hr' he

/-- Subscriptions that are left, or none, are no failure. -/
theorem settle_ne_error {pending : List (Option Subscribing)} {e : ClientError} :
    settle pending ≠ .done (.error e) := by
  intro hp
  unfold settle at hp
  split at hp <;> cases hp

/-- An attempt fails with a failure of the transport. -/
theorem error_eq {e : ClientError} (hs : a.step fs c h = some (h', .done (.error e))) : ∃ t, e = .transport t := by
  cases turn_of_step hs with
  | opened _ hpr | replayed _ hpr => exact absurd hpr.symm settle_ne_error
  | unopened ho => exact Opening.error_eq ho
  | refused he => exact error_of_stepFirst he rfl

/-- What an attempt knows of the session that it brings. -/
def Fresh (old : List SessionId) (h : Handler) : Recovery → Prop
  | .opening o => o.Fresh old h
  | .replaying _ => h.SlotNewer old

theorem slotNewer_of_touches {A : Scope} (hs : h.SlotNewer old)
    (he : h'.slot = h.slot) (ht : h.wire.Touches A h'.wire) : h'.SlotNewer old := by
  obtain ⟨s, hslot, hlt, hex⟩ := hs
  exact ⟨s, he.trans hslot, hlt, Nat.lt_of_lt_of_le hex ht.grows.sessions⟩

/-- What others do beside the attempt does not hurt. -/
theorem Fresh.touched {A : Scope} (ha : a.Fresh old h)
    (hold : ∀ t ∈ old, t < h.wire.sessions.length) (he : h'.slot = h.slot)
    (ht : h.wire.Touches A h'.wire) : a.Fresh old h' := by
  cases a with
  | opening o => exact Opening.Fresh.touched ha hold ht
  | replaying pending => exact slotNewer_of_touches ha he ht

theorem fresh_settle {pending : List (Option Subscribing)} (hs : h.SlotNewer old) :
    (settle pending).Leaves (Fresh old h) (h.SlotNewer old) True := by
  unfold settle
  split <;> exact hs

theorem fresh_step (hn : h.wire.Numbered) (ha : a.Fresh old h) (hs : a.step fs c h = some (h', pr)) :
    pr.Leaves (Fresh old h') (h'.SlotNewer old) True := by
  cases turn_of_step hs with
  | opening ho => exact Opening.fresh_step hn ha ho
  | opened ho hpr => exact hpr ▸ fresh_settle (Opening.fresh_step hn ha ho)
  | replayed he hpr =>
    have hu := uses_stepFirst he
    exact hpr ▸ fresh_settle (slotNewer_of_touches ha hu.slot hu.touches)
  | unopened | refused => trivial

end HubDevice.Kernel.Recovery
