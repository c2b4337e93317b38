import HubDevice.Concurrent.FairLock

/-!
# Who holds a fair lock and who waits for it

A sound lock has no queue while it is free, and every party is at most once its holder or in its queue.
`FairLock.Passage` lists what a single party can do to a lock, together with its own stance before and
after: ask for it, notice that it has been handed over, give a wait up, or let go. Each of these keeps
the lock sound (`Passage.sound`), fits the party's new stance (`Passage.posted`), and leaves every other
party where it stood (`Passage.posted_of_ne`).
-/

namespace HubDevice.FairLock

variable {α : Type}

/-- Whether a party holds the lock or waits for it. -/
def Involves (l : FairLock α) (p : α) : Prop := l.holder = some p ∨ p ∈ l.queue

/-- Nobody waits for a free lock, and nobody stands in line twice. -/
structure Sound (l : FairLock α) : Prop where
  free : l.holder = none → l.queue = []
  nodup : (l.holder.toList ++ l.queue).Nodup

theorem sound_empty : Sound ({} : FairLock α) := ⟨fun _ => rfl, by simp⟩

theorem Sound.holder_notMem {l : FairLock α} (h : l.Sound) {p : α} (hp : l.holder = some p) :
    p ∉ l.queue := by
  have hn := h.nodup
  rw [hp] at hn
  simp only [Option.toList_some, List.singleton_append, List.nodup_cons] at hn
  exact hn.1

theorem Sound.queue_nodup {l : FairLock α} (h : l.Sound) : l.queue.Nodup :=
  (List.nodup_append.mp h.nodup).2.1

theorem involves_request {l : FairLock α} {p q : α} :
    (l.request p).Involves q ↔ l.Involves q ∨ q = p := by
  unfold request
  cases hh : l.holder with
  | none => simp [Involves, hh, or_comm, eq_comm]
  | some r => simp [Involves, hh, or_assoc]

theorem sound_request {l : FairLock α} (h : l.Sound) {p : α} (hp : ¬ l.Involves p) :
    (l.request p).Sound := by
  have hq : p ∉ l.queue := fun hm => hp (.inr hm)
  unfold request
  cases hh : l.holder with
  | none => exact ⟨by simp, by simp [h.free hh]⟩
  | some r =>
    have hn := h.nodup
    have hr : r ≠ p := fun e => hp (.inl (e ▸ hh))
    rw [hh] at hn
    refine ⟨by simp, ?_⟩
    simp only [Option.toList_some, List.singleton_append, List.nodup_cons, List.mem_append,
      List.mem_singleton, not_or] at hn ⊢
    refine ⟨⟨hn.1, hr⟩, List.nodup_append.mpr ⟨hn.2, by simp, ?_⟩⟩
    rintro a ha b hb rfl
    exact hq (List.mem_singleton.mp hb ▸ ha)

theorem involves_release {l : FairLock α} {q : α} : l.release.Involves q ↔ q ∈ l.queue := by
  unfold release
  cases hq : l.queue with
  | nil => simp [Involves]
  | cons r rest => simp [Involves, eq_comm]

theorem sound_release {l : FairLock α} (h : l.Sound) : l.release.Sound := by
  have hn := h.queue_nodup
  unfold release
  cases hq : l.queue with
  | nil => exact sound_empty
  | cons r rest =>
    rw [hq] at hn
    exact ⟨by simp, by simpa using hn⟩

variable [DecidableEq α]

theorem withdraw_of_holder {l : FairLock α} {p : α} (h : l.holder = some p) :
    l.withdraw p = l.release := by
  simp [withdraw, h]

theorem withdraw_of_ne {l : FairLock α} {p : α} (h : l.holder ≠ some p) :
    l.withdraw p = { l with queue := l.queue.erase p } := by
  simp [withdraw, h]

theorem involves_withdraw {l : FairLock α} (h : l.Sound) {p q : α} :
    (l.withdraw p).Involves q ↔ l.Involves q ∧ q ≠ p := by
  by_cases hp : l.holder = some p
  · rw [withdraw_of_holder hp, involves_release]
    have hm := h.holder_notMem hp
    constructor
    · intro hq
      exact ⟨.inr hq, fun e => hm (e ▸ hq)⟩
    · rintro ⟨hq | hq, hne⟩
      · rw [hp] at hq
        exact absurd (Option.some.inj hq).symm hne
      · exact hq
  · rw [withdraw_of_ne hp]
    simp only [Involves, h.queue_nodup.mem_erase_iff]
    constructor
    · rintro (hq | ⟨hne, hq⟩)
      · exact ⟨.inl hq, fun e => hp (e ▸ hq)⟩
      · exact ⟨.inr hq, hne⟩
    · rintro ⟨hq | hq, hne⟩
      · exact .inl hq
      · exact .inr ⟨hne, hq⟩

theorem sound_withdraw {l : FairLock α} (h : l.Sound) (p : α) : (l.withdraw p).Sound := by
  by_cases hp : l.holder = some p
  · rw [withdraw_of_holder hp]
    exact sound_release h
  · rw [withdraw_of_ne hp]
    refine ⟨fun hf => by simp [h.free hf], ?_⟩
    exact h.nodup.sublist (List.Sublist.append_left (List.erase_sublist) _)

/-! ## Stances -/

/-- What a party does about a lock. -/
inductive Stance where
  | outside
  | waiting
  /-- Holds the lock and knows it. -/
  | inside
  deriving DecidableEq

/-- One thing inside, another elsewhere. -/
def Stance.choose (s : Stance) (inside otherwise : Prop) : Prop :=
  match s with
  | .inside => inside
  | _ => otherwise

theorem Stance.choose_of_ne {s : Stance} (h : s ≠ .inside) (inside otherwise : Prop) :
    s.choose inside otherwise ↔ otherwise := by
  cases s with
  | inside => exact absurd rfl h
  | _ => exact Iff.rfl

/-- A party's stance fits its place at the lock. A waiting party may have been handed the lock already. -/
def Posted (l : FairLock α) (p : α) : Stance → Prop
  | .outside => ¬ l.Involves p
  | .waiting => l.Involves p
  | .inside => l.holder = some p

/-- What one party can do to a lock: the lock and the party's stance, before and after. -/
inductive Passage (p : α) (l : FairLock α) : Stance → FairLock α → Stance → Prop where
  | stay (s : Stance) : Passage p l s l s
  | ask : Passage p l .outside (l.request p) .waiting
  | enter : l.holder = some p → Passage p l .waiting l .inside
  | giveUp : Passage p l .waiting (l.withdraw p) .outside
  | leave : Passage p l .inside l.release .outside
  | breakOff : Passage p l .inside (l.withdraw p) .outside

namespace Passage

variable {p : α} {l l' : FairLock α} {s s' : Stance}

theorem sound (h : Passage p l s l' s') (hl : l.Sound) (hp : Posted l p s) : l'.Sound := by
  cases h with
  | stay | enter => exact hl
  | ask => exact sound_request hl hp
  | giveUp | breakOff => exact sound_withdraw hl p
  | leave => exact sound_release hl

theorem posted (h : Passage p l s l' s') (hl : l.Sound) (hp : Posted l p s) : Posted l' p s' := by
  cases h with
  | stay => exact hp
  | ask => exact involves_request.mpr (.inr rfl)
  | enter hh => exact hh
  | giveUp | breakOff => exact fun hi => ((involves_withdraw hl).mp hi).2 rfl
  | leave => exact fun hi => hl.holder_notMem hp (involves_release.mp hi)

/-- A passage of one party leaves every other party where it stood. -/
theorem posted_of_ne (h : Passage p l s l' s') (hl : l.Sound) (hp : Posted l p s) {q : α}
    (hne : q ≠ p) {t : Stance} (hq : Posted l q t) : Posted l' q t := by
  have inside : ∀ {r : α}, l.holder = some r → r ≠ q → t ≠ .inside := by
    rintro r hr hrq rfl
    exact hrq (Option.some.inj (hr.symm.trans hq))
  have fits : (l'.Involves q ↔ l.Involves q) → (t = .inside → l'.holder = some q) → Posted l' q t := by
    intro hi hh
    cases t with
    | outside => exact fun hc => hq (hi.mp hc)
    | waiting => exact hi.mpr hq
    | inside => exact hh rfl
  cases h with
  | stay | enter => exact hq
  | ask =>
    refine fits ?_ ?_
    · rw [involves_request]
      simp [hne]
    · rintro rfl
      have hh : l.holder = some q := hq
      simp [request, hh]
  | giveUp | breakOff =>
    refine fits ?_ ?_
    · rw [involves_withdraw hl]
      simp [hne]
    · rintro rfl
      have hh : l.holder = some q := hq
      rw [withdraw_of_ne (by rw [hh]; exact fun e => hne (Option.some.inj e))]
      exact hh
  | leave =>
    have hh : l.holder = some p := hp
    refine fits ?_ (fun ht => absurd ht (inside hh hne.symm))
    rw [involves_release, Involves, hh]
    simp [Ne.symm hne]

/-- A passage that lets go of the lock, or never had it, keeps whoever else holds it. -/
theorem holder_of_ne (h : Passage p l s l' s') {q : α} (hq : l.holder = some q) (hne : q ≠ p)
    (hp : Posted l p s) : l'.holder = some q := by
  cases h with
  | stay | enter => exact hq
  | ask => simp [request, hq]
  | giveUp => rw [withdraw_of_ne (by rw [hq]; exact fun e => hne (Option.some.inj e))]; exact hq
  | leave | breakOff =>
    have hh : l.holder = some p := hp
    rw [hq] at hh
    exact absurd (Option.some.inj hh) hne

end Passage

end HubDevice.FairLock
