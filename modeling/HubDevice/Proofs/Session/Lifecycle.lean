import HubDevice.Proofs.Handler

/-!
# The life of a session

A session is asked to open once and to close once, in this order, and the one in the slot has not been asked to
close (`Handler.Tidy`). An opening knows in addition that the slot is empty and that the session it brings is
none of those before (`Opening.Tidy`). Whatever is done to the slot is one of four moves (`Handler.SlotMoves`);
`Opening.moves_step` and `Closing.moves_step` say so of a step. `Handler.Refreshing` is the invariant of the
refreshers: only the session in the slot is renewed.
-/

namespace HubDevice

open Wire

/-- The session that is asked to open. -/
def Event.connect? : Event → Option SessionId
  | .called _ (.connect s _) => some s
  | _ => none

/-- The session that is asked to close. -/
def Event.close? : Event → Option SessionId
  | .called _ (.close s) => some s
  | _ => none

namespace Wire

/-- The sessions that were asked to open; the newest comes first. -/
def connects (w : Wire) : List SessionId := w.trace.filterMap Event.connect?

/-- The sessions that were asked to close; the newest comes first. -/
def closes (w : Wire) : List SessionId := w.trace.filterMap Event.close?

variable {A : Scope} {w w' : Wire}

theorem connects_call (w : Wire) (r : Request) :
    (w.call r).1.connects = (Event.connect? (.called w.issued r)).toList ++ w.connects := by
  unfold connects
  rw [trace_call, List.filterMap_cons]
  split <;> rename_i he <;> rw [he] <;> rfl

theorem closes_call (w : Wire) (r : Request) :
    (w.call r).1.closes = (Event.close? (.called w.issued r)).toList ++ w.closes := by
  unfold closes
  rw [trace_call, List.filterMap_cons]
  split <;> rename_i he <;> rw [he] <;> rfl

/-- Within a scope without such calls no session is asked to open. -/
theorem Touches.connects (h : w.Touches A w') (hA : ∀ s c, ¬ A.calls (.connect s c)) :
    w'.connects = w.connects := by
  obtain ⟨new, hn, hall⟩ := h.trace
  unfold Wire.connects
  rw [hn, List.filterMap_append, List.filterMap_eq_nil_iff.mpr, List.nil_append]
  intro e he
  have hadmitted := hall e he
  unfold Event.connect?
  split
  · exact absurd hadmitted (hA _ _)
  · rfl

/-- Within a scope without such calls no session is asked to close. -/
theorem Touches.closes (h : w.Touches A w') (hA : ∀ s, ¬ A.calls (.close s)) : w'.closes = w.closes := by
  obtain ⟨new, hn, hall⟩ := h.trace
  unfold Wire.closes
  rw [hn, List.filterMap_append, List.filterMap_eq_nil_iff.mpr, List.nil_append]
  intro e he
  have hadmitted := hall e he
  unfold Event.close?
  split
  · exact absurd hadmitted (hA _)
  · rfl

end Wire

/-! ## Moves -/

namespace Handler

variable {A : Scope} {h h' h'' : Handler}

/-- Each session was asked to open and to close at most once, and the one in the slot was asked to open and not
to close. -/
structure Tidy (h : Handler) : Prop where
  numbered : h.wire.Numbered
  connects : h.wire.connects.Nodup
  closes : h.wire.closes.Nodup
  known : ∀ s ∈ h.wire.connects, s < h.wire.sessions.length
  closed : ∀ s ∈ h.wire.closes, s ∈ h.wire.connects
  slot : ∀ s, h.slot = some s → s ∈ h.wire.connects ∧ s ∉ h.wire.closes

/-- No session is moved. -/
structure Spares (h h' : Handler) : Prop where
  slot : h'.slot = h.slot
  connects : h'.wire.connects = h.wire.connects
  closes : h'.wire.closes = h.wire.closes
  sessions : h.wire.sessions.length ≤ h'.wire.sessions.length
  numbered : h.wire.Numbered → h'.wire.Numbered

theorem spares_of_touches (ht : h.wire.Touches A h'.wire) (hs : h'.slot = h.slot)
    (hconnect : ∀ s c, ¬ A.calls (.connect s c)) (hclose : ∀ s, ¬ A.calls (.close s)) : h.Spares h' :=
  ⟨hs, ht.connects hconnect, ht.closes hclose, ht.grows.sessions, ht.numbered⟩

/-- Nobody waits for a call any more. -/
theorem spares_abandon (h : Handler) (id : CallId) : h.Spares (h.abandon id) :=
  spares_of_touches (uses_abandon (A := .nothing) h id).touches rfl (fun _ _ => False.elim) fun _ => False.elim

theorem spares_stop (h : Handler) : h.Spares h.stopRefresher :=
  spares_of_touches (A := .nothing) (stopRefresher_wire h ▸ Touches.refl _) (stopRefresher_slot h)
    (fun _ _ => False.elim) fun _ => False.elim

theorem Spares.trans (h₁ : h.Spares h') (h₂ : h'.Spares h'') : h.Spares h'' where
  slot := h₂.slot.trans h₁.slot
  connects := h₂.connects.trans h₁.connects
  closes := h₂.closes.trans h₁.closes
  sessions := Nat.le_trans h₁.sessions h₂.sessions
  numbered hn := h₂.numbered (h₁.numbered hn)

theorem Spares.tidy (hs : h.Spares h') (ht : h.Tidy) : h'.Tidy where
  numbered := hs.numbered ht.numbered
  connects := hs.connects.symm ▸ ht.connects
  closes := hs.closes.symm ▸ ht.closes
  known s hm := Nat.lt_of_lt_of_le (ht.known s (hs.connects ▸ hm)) hs.sessions
  closed s hm := by
    rw [hs.connects]
    exact ht.closed s (hs.closes ▸ hm)
  slot s hm := by
    rw [hs.connects, hs.closes]
    exact ht.slot s (hs.slot.symm.trans hm)

/-- What can be done to the session slot at once: nothing, a session is asked to open, one that is open is put
into the empty slot, or the slot is emptied and what was in it asked to close. -/
inductive SlotMoves (h h' : Handler) : Prop where
  | spared : h.Spares h' → SlotMoves h h'
  | dialled (s : SessionId) : h.slot = none → h'.slot = none →
      h'.wire.connects = s :: h.wire.connects → h'.wire.closes = h.wire.closes → SlotMoves h h'
  | filled (s : SessionId) : h.slot = none → h'.slot = some s →
      h'.wire.connects = h.wire.connects → h'.wire.closes = h.wire.closes → SlotMoves h h'
  | emptied (s : SessionId) : h.slot = some s → h'.slot = none →
      h'.wire.connects = h.wire.connects → h'.wire.closes = s :: h.wire.closes → SlotMoves h h'

/-- What moves no session can come first. -/
theorem SlotMoves.after_spared {h₁ : Handler} (hs : h.Spares h₁) (hm : h₁.SlotMoves h') : h.SlotMoves h' := by
  cases hm with
  | spared hs' => exact .spared (hs.trans hs')
  | dialled s hn hn' hc hd => exact .dialled s (hs.slot.symm.trans hn) hn' (hs.connects ▸ hc) (hs.closes ▸ hd)
  | filled s hn hn' hc hd =>
    exact .filled s (hs.slot.symm.trans hn) hn' (hc.trans hs.connects) (hd.trans hs.closes)
  | emptied s hn hn' hc hd =>
    exact .emptied s (hs.slot.symm.trans hn) hn' (hc.trans hs.connects) (hs.closes ▸ hd)

/-- The slot is emptied and its session is asked to close. -/
theorem tidy_release (ht : h.Tidy) {s : SessionId} (hs : h.slot = some s) :
    (call { h.stopRefresher with slot := none } (.close s)).1.Tidy ∧
      h.SlotMoves (call { h.stopRefresher with slot := none } (.close s)).1 := by
  obtain ⟨hopened, hunclosed⟩ := ht.slot s hs
  have hcloses : (h.wire.call (.close s)).1.closes = s :: h.wire.closes := closes_call _ _
  have hconnects : (h.wire.call (.close s)).1.connects = h.wire.connects := connects_call _ _
  have htouch : h.wire.Touches .closing (h.wire.call (.close s)).1 := Touch.touches (.called ⟨_, rfl⟩)
  simp only [call, stopRefresher_wire]
  refine ⟨⟨htouch.numbered ht.numbered, ?_, ?_, ?_, ?_, ?_⟩, .emptied s hs rfl hconnects hcloses⟩
  · rw [hconnects]
    exact ht.connects
  · rw [hcloses]
    exact List.nodup_cons.mpr ⟨hunclosed, ht.closes⟩
  · intro t hm
    exact Nat.lt_of_lt_of_le (ht.known t (hconnects ▸ hm)) htouch.grows.sessions
  · intro t hm
    rw [hcloses] at hm
    rw [hconnects]
    rcases List.mem_cons.mp hm with rfl | hm
    · exact hopened
    · exact ht.closed t hm
  · intro t hm
    cases hm

end Handler

open Handler

variable {h h' : Handler}

/-! ## Openings -/

namespace Opening

/-- The empty slot, and what an opening knows of the session that it brings: it is newer than all that were
asked to open, or it was asked to open and not to close. -/
def Tidy (h : Handler) (o : Opening) : Prop :=
  h.Tidy ∧ match o with
    | .start => True
    | .discarding _ => h.slot = none
    | .creating id => h.slot = none ∧ h.wire.Creates h.wire.connects id
    | .connecting s _ => h.slot = none ∧ s ∈ h.wire.connects ∧ s ∉ h.wire.closes

/-- Others that move no session do not hurt. -/
theorem Tidy.spared {A : Scope} {o : Opening} (ho : o.Tidy h) (hs : h.Spares h')
    (ht : h.wire.Touches A h'.wire) : o.Tidy h' := by
  refine ⟨hs.tidy ho.1, ?_⟩
  have hphase := ho.2
  cases o with
  | start => trivial
  | discarding id => exact hs.slot.trans hphase
  | creating id =>
    refine ⟨hs.slot.trans hphase.1, ?_⟩
    rw [hs.connects]
    exact ht.creates ho.1.known hphase.2
  | connecting s id =>
    refine ⟨hs.slot.trans hphase.1, ?_⟩
    rw [hs.connects, hs.closes]
    exact hphase.2

theorem spares_create (h : Handler) : h.Spares (h.call .create).1 :=
  spares_of_touches (A := { calls := fun r => r = .create }) (touches_call h rfl) rfl nofun nofun

/-- Asking for a new session. -/
theorem tidy_create (ht : h.Tidy) (hs : h.slot = none) :
    Opening.Tidy (h.call .create).1 (.creating (h.call .create).2) := by
  have hspares := spares_create h
  refine ⟨hspares.tidy ht, hs, ?_⟩
  rw [hspares.connects]
  exact creates_call ht.numbered

/-- A new session is asked to open. -/
theorem tidy_connect (ht : h.Tidy) (hn : h.slot = none) {s : SessionId} {c : Bool}
    (hnew : s ∉ h.wire.connects) (hs : s < h.wire.sessions.length) :
    Opening.Tidy (h.call (.connect s c)).1 (.connecting s (h.call (.connect s c)).2) ∧
      h.SlotMoves (h.call (.connect s c)).1 := by
  have hconnects : (h.wire.call (.connect s c)).1.connects = s :: h.wire.connects := connects_call _ _
  have hcloses : (h.wire.call (.connect s c)).1.closes = h.wire.closes := closes_call _ _
  have htouch : h.wire.Touches .replacing (h.wire.call (.connect s c)).1 := (Touch.called trivial).touches
  have hunclosed : s ∉ h.wire.closes := fun hm => hnew (ht.closed s hm)
  refine ⟨⟨⟨htouch.numbered ht.numbered, ?_, ?_, ?_, ?_, ?_⟩, hn, ?_⟩, .dialled s hn hn hconnects hcloses⟩
  all_goals simp only [Handler.call, hconnects, hcloses]
  · exact List.nodup_cons.mpr ⟨hnew, ht.connects⟩
  · exact ht.closes
  · intro t hm
    refine Nat.lt_of_lt_of_le ?_ htouch.grows.sessions
    rcases List.mem_cons.mp hm with rfl | hm
    · exact hs
    · exact ht.known t hm
  · intro t hm
    exact List.mem_cons_of_mem s (ht.closed t hm)
  · intro t hm
    exact absurd (hn.symm.trans hm) (by simp)
  · exact ⟨List.mem_cons_self, hunclosed⟩

/-- A session that was opened is put into the slot. -/
theorem tidy_fill (ht : h.Tidy) (hn : h.slot = none) {s : SessionId} (hs : s ∈ h.wire.connects)
    (hunclosed : s ∉ h.wire.closes) :
    (startRefresher { h with slot := some s } s).Tidy ∧
      h.SlotMoves (startRefresher { h with slot := some s } s) := by
  have hslot : (startRefresher { h with slot := some s } s).slot = some s := startRefresher_slot _ s
  have hwire : (startRefresher { h with slot := some s } s).wire = h.wire := startRefresher_wire _ s
  refine ⟨⟨?_, ?_, ?_, ?_, ?_, ?_⟩, .filled s hn hslot (congrArg Wire.connects hwire) (congrArg Wire.closes hwire)⟩
  all_goals rw [hwire]
  · exact ht.numbered
  · exact ht.connects
  · exact ht.closes
  · exact ht.known
  · exact ht.closed
  · intro t hm
    cases hslot.symm.trans hm
    exact ⟨hs, hunclosed⟩

theorem moves_step {c : Bool} {o : Opening} {pr : Progress Opening (Except ClientError Unit)}
    (ho : o.Tidy h) (hs : o.step c h = some (h', pr)) :
    pr.Leaves (Opening.Tidy h') h'.Tidy h'.Tidy ∧ h.SlotMoves h' := by
  have taken : ∀ id : CallId, (h.abandon id).Tidy := fun id => (spares_abandon h id).tidy ho.1
  have asked : ∀ {h : Handler}, h.Tidy → h.slot = none →
      Opening.Tidy (h.call .create).1 (.creating (h.call .create).2) ∧ h.SlotMoves (h.call .create).1 :=
    fun {h} ht hn => ⟨tidy_create ht hn, .spared (spares_create h)⟩
  obtain ⟨ht, hphase⟩ := ho
  cases o with
  | start =>
    simp only [step, create_eq] at hs
    have hstop := spares_stop h
    split at hs <;> cases hs <;> rename_i hslot
    · obtain ⟨htidy, hmoves⟩ := asked (hstop.tidy ht) hslot
      exact ⟨htidy, hmoves.after_spared hstop⟩
    · obtain ⟨htidy, hmoves⟩ := tidy_release ht ((stopRefresher_slot h).symm.trans hslot)
      exact ⟨⟨htidy, rfl⟩, hmoves⟩
  | discarding id =>
    simp only [step, create_eq] at hs
    split at hs <;> cases hs
    rename_i htake
    obtain ⟨rfl, -⟩ := take?_eq_some htake
    obtain ⟨htidy, hmoves⟩ := asked (taken id) hphase
    exact ⟨htidy, hmoves.after_spared (spares_abandon h id)⟩
  | creating id =>
    obtain ⟨hn, hcreates⟩ := hphase
    simp only [step, create_eq] at hs
    split at hs <;> cases hs <;> rename_i htake <;> obtain ⟨rfl, d, hd, hid, ha⟩ := take?_eq_some htake
    · obtain ⟨hnew, hlt⟩ := (hcreates.calls d hd hid).2 _ ha
      have hfresh : ∀ s, (∀ t ∈ h.wire.connects, t < s) → s ∉ h.wire.connects := fun s hall hm =>
        Nat.lt_irrefl s (hall s hm)
      obtain ⟨htidy, hmoves⟩ := tidy_connect (c := c) (taken id) hn (hfresh _ hnew) hlt
      exact ⟨htidy, hmoves.after_spared (spares_abandon h id)⟩
    · obtain ⟨htidy, hmoves⟩ := asked (taken id) hn
      exact ⟨htidy, hmoves.after_spared (spares_abandon h id)⟩
    · exact ⟨taken id, .spared (spares_abandon h id)⟩
  | connecting s id =>
    obtain ⟨hn, hopened, hunclosed⟩ := hphase
    simp only [step] at hs
    split at hs <;> cases hs <;> rename_i htake <;> obtain ⟨rfl, -⟩ := take?_eq_some htake
    · obtain ⟨htidy, hmoves⟩ := tidy_fill (taken id) hn hopened hunclosed
      exact ⟨htidy, hmoves.after_spared (spares_abandon h id)⟩
    · exact ⟨taken id, .spared (spares_abandon h id)⟩

/-- Whoever is told that the session is open puts it into the slot. -/
theorem step_opened {c : Bool} {s : SessionId} {id : CallId} {w : Wire} {r : Reply}
    (htake : h.wire.take? id = some (w, .ok r)) :
    step c h (.connecting s id) = some (startRefresher { h with wire := w, slot := some s } s, .done (.ok ())) := by
  simp [step, Handler.take?, htake]

end Opening

/-! ## Closings -/

theorem Closing.moves_step {c : Closing} {pr : Progress Closing (Except ClientError Unit)} (ht : h.Tidy)
    (hs : c.step h = some (h', pr)) : h'.Tidy ∧ h.SlotMoves h' := by
  cases c with
  | start =>
    simp only [step] at hs
    split at hs <;> cases hs <;> rename_i hslot
    · have hstop := spares_stop h
      exact ⟨hstop.tidy ht, .spared hstop⟩
    · exact tidy_release ht ((stopRefresher_slot h).symm.trans hslot)
  | closing id =>
    obtain ⟨⟨h₁, o⟩, htake, he⟩ := Option.map_eq_some_iff.mp hs
    cases he
    obtain ⟨rfl, -⟩ := take?_eq_some htake
    exact ⟨(spares_abandon h id).tidy ht, .spared (spares_abandon h id)⟩

/-! ## Refreshers -/

namespace Handler

/-- A refresher that was not stopped is the one that can be, and renews the session in the slot; without an
interval there is none. -/
structure Refreshing (h : Handler) : Prop where
  unstopped : ∀ {i r}, h.refreshers[i]? = some r → r.stopped = false →
    h.refresher = some i ∧ h.slot = some r.session
  idle : h.interval = none → h.refreshers = []

theorem Refreshing.of_eq (hh : h.Refreshing) (hr : h'.refreshers = h.refreshers)
    (hi : h'.refresher = h.refresher) (hs : h'.slot = h.slot) (hv : h'.interval = h.interval) :
    h'.Refreshing := by
  refine ⟨fun hget hun => ?_, fun hnone => hr.trans (hh.idle (hv.symm.trans hnone))⟩
  rw [hi, hs]
  exact hh.unstopped (hr ▸ hget) hun

theorem stopRefresher_interval (h : Handler) : h.stopRefresher.interval = h.interval := by
  unfold stopRefresher
  split <;> rfl

/-- After a stop every refresher is stopped; what is in the slot does not matter. -/
theorem stopped_of_stopRefresher {i : Nat} {r : Refresher}
    (hh : ∀ {i r}, h.refreshers[i]? = some r → r.stopped = false → h.refresher = some i)
    (hget : h.stopRefresher.refreshers[i]? = some r) : r.stopped = true := by
  rw [← Bool.not_eq_false]
  intro hun
  unfold stopRefresher at hget
  split at hget <;> rename_i hnone
  · exact absurd (hnone.symm.trans (hh hget hun)) (by simp)
  · rename_i j
    dsimp only at hget
    rw [List.getElem?_modify] at hget
    obtain ⟨r₀, hr₀, rfl⟩ := Option.map_eq_some_iff.mp hget
    by_cases hij : j = i
    · simp [hij] at hun
    · simp only [hij, if_false] at hun
      have he := hnone.symm.trans (hh hr₀ hun)
      exact hij (Option.some.inj he)

theorem refreshing_stop (hh : h.Refreshing) : h.stopRefresher.Refreshing := by
  refine ⟨fun hget hun => ?_, fun hnone => ?_⟩
  · have hst := stopped_of_stopRefresher (fun hget hun => (hh.unstopped hget hun).1) hget
    exact absurd (hst.symm.trans hun) (by simp)
  · rw [stopRefresher_interval] at hnone
    unfold stopRefresher
    split
    · exact hh.idle hnone
    · simp [hh.idle hnone]

theorem refreshing_release (hh : h.Refreshing) : Refreshing { h.stopRefresher with slot := none } := by
  refine ⟨fun hget hun => ?_, (refreshing_stop hh).idle⟩
  have hst := stopped_of_stopRefresher (fun hget hun => (hh.unstopped hget hun).1) hget
  exact absurd (hst.symm.trans hun) (by simp)

theorem refreshing_fill (hh : h.Refreshing) (s : SessionId) :
    (startRefresher { h with slot := some s } s).Refreshing := by
  unfold startRefresher
  split <;> rename_i hv
  · have hnil : h.refreshers = [] := hh.idle hv
    refine ⟨fun hget _ => ?_, fun _ => hnil⟩
    rw [show ({ h with slot := some s } : Handler).refreshers = [] from hnil] at hget
    cases hget
  · have hslot : (stopRefresher { h with slot := some s }).slot = some s := stopRefresher_slot _
    refine ⟨fun {i r} hget hun => ?_, fun hnone => ?_⟩
    · rw [List.getElem?_append] at hget
      split at hget
      · have hst := stopped_of_stopRefresher (h := { h with slot := some s })
          (fun hget hun => (hh.unstopped hget hun).1) hget
        exact absurd (hst.symm.trans hun) (by simp)
      · rename_i hlen
        rw [List.getElem?_singleton] at hget
        split at hget <;> cases hget
        rename_i hi
        exact ⟨congrArg some (by omega), hslot⟩
    · have hnone : (stopRefresher { h with slot := some s }).interval = none := hnone
      rw [stopRefresher_interval] at hnone
      exact absurd (hv.symm.trans hnone) (by simp)

theorem refreshing_uses {A : Scope} (hu : Uses A h h') (hh : h.Refreshing) : h'.Refreshing := by
  obtain ⟨_, rfl, -⟩ := hu
  exact hh.of_eq rfl rfl rfl rfl

theorem refreshing_opens {c : Bool} {o : Opening} {pr : Progress Opening (Except ClientError Unit)}
    (hs : o.step c h = some (h', pr)) (hh : h.Refreshing) : h'.Refreshing := by
  have taken : ∀ {id h₁ out}, h.take? id = some (h₁, out) → h₁.Refreshing := fun ht =>
    refreshing_uses (uses_take? (A := .nothing) ht) hh
  have called : ∀ {h : Handler} (r : Request), h.Refreshing → (h.call r).1.Refreshing := fun _ hh =>
    hh.of_eq rfl rfl rfl rfl
  cases o with
  | start =>
    simp only [Opening.step, Opening.create_eq] at hs
    split at hs <;> cases hs
    · exact called .create (refreshing_stop hh)
    · exact called _ (refreshing_release hh)
  | discarding id =>
    simp only [Opening.step, Opening.create_eq] at hs
    split at hs <;> cases hs
    rename_i ht
    exact called .create (taken ht)
  | creating id =>
    simp only [Opening.step, Opening.create_eq] at hs
    split at hs <;> cases hs <;> rename_i ht
    · exact called _ (taken ht)
    · exact called .create (taken ht)
    · exact taken ht
  | connecting s id =>
    simp only [Opening.step] at hs
    split at hs <;> cases hs <;> rename_i ht
    · exact refreshing_fill (taken ht) s
    · exact taken ht

theorem refreshing_closes {c : Closing} {pr : Progress Closing (Except ClientError Unit)}
    (hs : c.step h = some (h', pr)) (hh : h.Refreshing) : h'.Refreshing := by
  cases c with
  | start =>
    simp only [Closing.step] at hs
    split at hs <;> cases hs
    · exact refreshing_stop hh
    · exact (refreshing_release hh).of_eq rfl rfl rfl rfl
  | closing id =>
    obtain ⟨⟨h₁, o⟩, ht, he⟩ := Option.map_eq_some_iff.mp hs
    cases he
    exact refreshing_uses (uses_take? (A := .nothing) ht) hh

/-- A refresher that takes a step is as stopped as before and renews the same session. -/
theorem advanceRefresher_same {r r' : Refresher} (ha : h.advanceRefresher r = some (h', r')) :
    r'.stopped = r.stopped ∧ r'.session = r.session := by
  unfold advanceRefresher at ha
  split at ha
  · split at ha <;> cases ha <;> exact ⟨rfl, rfl⟩
  · split at ha
    · cases ha
      exact ⟨rfl, rfl⟩
    · split at ha <;> cases ha
      exact ⟨rfl, rfl⟩
  · split at ha <;> cases ha
    exact ⟨rfl, rfl⟩
  · cases ha

theorem refreshing_refreshes {i : Nat} (hs : h.stepRefresher i = some h') (hh : h.Refreshing) :
    h'.Refreshing := by
  unfold stepRefresher at hs
  simp only [Option.bind_eq_bind, Option.bind_eq_some_iff] at hs
  obtain ⟨r, hr, ⟨h₁, r'⟩, ha, he⟩ := hs
  cases he
  obtain ⟨_, rfl, -⟩ := advanceRefresher_uses ha
  obtain ⟨hstopped, hsession⟩ := advanceRefresher_same ha
  refine ⟨fun {j q} hget hun => ?_, fun hnone => ?_⟩
  · by_cases hij : i = j
    · subst hij
      have hi : i < h.refreshers.length := (List.getElem?_eq_some_iff.mp hr).1
      dsimp only at hget
      rw [List.getElem?_set_self hi] at hget
      cases hget
      rw [hsession]
      exact hh.unstopped hr (hstopped.symm.trans hun)
    · dsimp only at hget
      rw [List.getElem?_set_ne hij] at hget
      exact hh.unstopped hget hun
  · have hnil := hh.idle hnone
    simp [hnil]

end Handler

end HubDevice
