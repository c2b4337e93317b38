import HubDevice.Agent.Readiness
import HubDevice.Proofs.Concurrent.History
import HubDevice.Proofs.Concurrent.Watched
import Mathlib.Tactic.Common

/-!
# Readiness follows the connection

A `Mirror` is a follower between a connection status, which is reported while the follower runs, and the readiness that
it sets. What was reported falls into what the follower has seen and what it has not (`Mirror.Seen`), and the version that
it remembers says which: a status that is reported between its reading and its wait is not seen, and ends the wait. Every
happening keeps this (`Mirror.sound_after`), so whenever the follower rests, the readiness is that of the status reported
last (`Mirror.readiness_followed`).
-/

namespace HubDevice.Readiness

/-- A connection status, the readiness that follows it, and the follower. -/
structure Mirror where
  following : Following
  follower : Follower := .read

namespace Mirror

/-- What can happen to a status and its follower. -/
inductive Happening where
  | report (status : Status)
  /-- The status is not written any more. -/
  | hangUp
  /-- One step of the follower. -/
  | step

/-- What a happening leads to. -/
def after (x : Mirror) : Happening → Option Mirror
  | .report status =>
    if x.following.status.closed then none
    else some { x with following := { x.following with status := x.following.status.set status } }
  | .hangUp =>
    if x.following.status.closed then none
    else some { x with following := { x.following with status := x.following.status.close } }
  | .step => (x.follower.step x.following).map fun p => ⟨p.1, p.2⟩

/-- The status that a happening reports. -/
def Happening.status? : Happening → Option Status
  | .report status => some status
  | _ => none

/-- What was reported, the oldest first. -/
def reports (h : List (Mirror × Happening)) : List Status := h.reverse.filterMap fun y => y.2.status?

/-- The readiness that a happening sets: the one after it, if there is a new version of it. -/
def set? (y : Mirror × Happening) : Option Readiness :=
  (y.1.after y.2).bind fun x =>
    if x.following.readiness.version = y.1.following.readiness.version then none else some x.following.readiness.value

/-- What the readiness was set to, the oldest first. -/
def settings (h : List (Mirror × Happening)) : List Readiness := h.reverse.filterMap set?

/-- The follower reads the status. -/
def Reads (y : Mirror × Happening) : Prop := y.2 = .step ∧ y.1.follower = .read

/-- The follower waits and has seen the status, or has ended. -/
def Rests (x : Mirror) : Prop := x.follower = .parked x.following.status.version ∨ x.follower = .ended

variable {x x' s : Mirror} {e : Happening} {h : List (Mirror × Happening)} {f f' : Following} {p p' : Follower}
  {all shown : List Status} {last : Status} {seen : Nat}

theorem reports_cons (y : Mirror × Happening) (h : List (Mirror × Happening)) :
    reports (y :: h) = reports h ++ y.2.status?.toList :=
  filterMap_reverse_cons (fun y : Mirror × Happening => y.2.status?) y h

theorem settings_cons (y : Mirror × Happening) (h : List (Mirror × Happening)) :
    settings (y :: h) = settings h ++ (set? y).toList :=
  filterMap_reverse_cons set? y h

/-! ## What the follower has seen -/

/-- Of all statuses, some were seen at a version and the others came after it. What was shown is among those that were
seen, whose last one is given. -/
def Seen (all : List Status) (f : Following) (seen : Nat) (shown : List Status) (last : Status) : Prop :=
  ∃ old new, all = old ++ new ∧ seen + new.length = f.status.version ∧ shown.Sublist old ∧ old.getLast? = some last

/-- A status that is reported was not seen. -/
theorem Seen.reported (h : Seen all f seen shown last) (status : Status) :
    Seen (all ++ [status]) { f with status := f.status.set status } seen shown last := by
  obtain ⟨old, new, rfl, hversion, hshown, hlast⟩ := h
  refine ⟨old, new ++ [status], List.append_assoc old new [status], ?_, hshown, hlast⟩
  show seen + (new ++ [status]).length = f.status.version + 1
  rw [List.length_append, List.length_singleton]
  omega

theorem Seen.le_version (h : Seen all f seen shown last) : seen ≤ f.status.version := by
  obtain ⟨_, _, -, hversion, -⟩ := h
  omega

/-- At the version of the status, all statuses were seen. -/
theorem Seen.getLast?_of_version (h : Seen all f seen shown last) (hv : f.status.version = seen) :
    all.getLast? = some last := by
  obtain ⟨old, new, rfl, hversion, -, hlast⟩ := h
  have hnew : new = [] := List.length_eq_zero_iff.mp (by omega)
  rw [hnew, List.append_nil, hlast]

/-- At any other version, the last status was not seen. -/
theorem Seen.sublist_dropLast (h : Seen all f seen shown last) (hv : f.status.version ≠ seen) :
    shown.Sublist all.dropLast := by
  obtain ⟨old, new, rfl, hversion, hshown, -⟩ := h
  have hnew : new ≠ [] := by
    rintro rfl
    exact hv hversion.symm
  rw [List.dropLast_append_of_ne_nil hnew]
  exact hshown.trans (List.sublist_append_left old _)

theorem Seen.sublist (h : Seen all f seen shown last) : shown.Sublist all := by
  obtain ⟨old, new, rfl, -, hshown, -⟩ := h
  exact hshown.trans (List.sublist_append_left old new)

/-- Whoever reads the status that was reported last has seen all. -/
theorem seen_of_read (hshown : shown.Sublist all.dropLast) (hlast : all.getLast? = some f.status.value) :
    Seen all f f.status.version (shown ++ [f.status.value]) f.status.value := by
  refine ⟨all, [], (List.append_nil all).symm, rfl, ?_, hlast⟩
  obtain ⟨older, rfl⟩ := List.getLast?_eq_some_iff.mp hlast
  rw [List.dropLast_concat] at hshown
  exact hshown.append (List.Sublist.refl _)

/-! ## What a follower knows -/

/-- What is known of a follower when some of all statuses were shown. -/
def Follows (all shown : List Status) (f : Following) : Follower → Prop
  | .read => shown.Sublist all.dropLast
  | .publish status seen => Seen all f seen (shown ++ [status]) status
  | .parked seen => ∃ last, Seen all f seen shown last ∧ f.readiness.value = ofStatus last
  | .ended => shown.Sublist all ∧ f.readiness.value = ofStatus f.status.value ∧ f.status.closed = true

theorem Follows.sublist (h : Follows all shown f p) : shown.Sublist all := by
  cases p with
  | read => exact h.trans (List.dropLast_sublist all)
  | publish status seen => exact (List.sublist_append_left shown [status]).trans (Seen.sublist h)
  | parked seen =>
    obtain ⟨last, hseen, -⟩ := h
    exact hseen.sublist
  | ended => exact h.1

theorem Follows.reported (h : Follows all shown f p) (ho : f.status.closed = false) (status : Status) :
    Follows (all ++ [status]) shown { f with status := f.status.set status } p := by
  cases p with
  | read =>
    show shown.Sublist (all ++ [status]).dropLast
    rw [List.dropLast_concat]
    exact h.trans (List.dropLast_sublist all)
  | publish read seen => exact Seen.reported h status
  | parked seen =>
    obtain ⟨last, hseen, hvalue⟩ := h
    exact ⟨last, hseen.reported status, hvalue⟩
  | ended =>
    have hclosed := h.2.2
    rw [ho] at hclosed
    cases hclosed

theorem Follows.hungUp (h : Follows all shown f p) : Follows all shown { f with status := f.status.close } p := by
  cases p with
  | ended => exact ⟨h.1, h.2.1, rfl⟩
  | _ => exact h

/-- A step of a follower sets the readiness to what the status means that it has read, or sets nothing. -/
theorem Follows.step (h : Follows all shown f p) (hlast : all.getLast? = some f.status.value)
    (hs : p.step f = some (f', p')) :
    (f' = f ∧ Follows all shown f p') ∨
      ∃ status, f' = { f with readiness := f.readiness.set (ofStatus status) } ∧
        Follows all (shown ++ [status]) f' p' := by
  cases p with
  | read =>
    cases hs
    exact .inl ⟨rfl, seen_of_read h hlast⟩
  | publish status seen =>
    cases hs
    exact .inr ⟨status, rfl, status, h, rfl⟩
  | parked seen =>
    obtain ⟨last, hseen, hvalue⟩ := h
    simp only [Follower.step] at hs
    split at hs <;> cases hs <;> rename_i hn
    · exact .inl ⟨rfl, hseen.sublist_dropLast (Watched.notice?_eq_changed.mp hn)⟩
    · obtain ⟨hversion, hclosed⟩ := Watched.notice?_eq_gone.mp hn
      have hsame : last = f.status.value := Option.some.inj ((hseen.getLast?_of_version hversion).symm.trans hlast)
      exact .inl ⟨rfl, hseen.sublist, hsame ▸ hvalue, hclosed⟩
  | ended => cases hs

/-! ## What is known from the history -/

/-- What is known of a mirror from its history, when there was a status at first. -/
structure Sound (first : Status) (h : List (Mirror × Happening)) (x : Mirror) : Prop where
  latest : (first :: reports h).getLast? = some x.following.status.value
  follows : ∃ shown, settings h = shown.map ofStatus ∧ Follows (first :: reports h) shown x.following x.follower

theorem sound_start (f : Following) : Sound f.status.value [] ⟨f, .read⟩ := ⟨rfl, [], rfl, List.nil_sublist _⟩

theorem settings_of_same (he : x.after e = some x') (hr : x'.following.readiness = x.following.readiness) :
    settings ((x, e) :: h) = settings h := by
  have hset : set? (x, e) = none := by rw [set?, he, Option.bind_some, hr, if_pos rfl]
  rw [settings_cons, hset, Option.toList_none, List.append_nil]

theorem settings_of_set {r : Readiness} (he : x.after e = some x')
    (hr : x'.following.readiness = x.following.readiness.set r) : settings ((x, e) :: h) = settings h ++ [r] := by
  have hset : set? (x, e) = some r := by
    rw [set?, he, Option.bind_some, hr, if_neg]
    · rfl
    · exact Nat.succ_ne_self _
  rw [settings_cons, hset, Option.toList_some]

theorem sound_after {first : Status} (h' : Sound first h x) (he : x.after e = some x') :
    Sound first ((x, e) :: h) x' := by
  obtain ⟨hlatest, shown, hsettings, hfollows⟩ := h'
  have hreports := reports_cons (x, e) h
  cases e with
  | report status =>
    have hall : first :: reports ((x, .report status) :: h) = first :: reports h ++ [status] := by
      rw [hreports]
      rfl
    have he' := he
    simp only [after] at he
    split at he <;> cases he
    rename_i hopen
    constructor <;> rw [hall]
    · rw [List.getLast?_concat]
      rfl
    · exact ⟨shown, (settings_of_same he' rfl).trans hsettings, hfollows.reported (by simpa using hopen) status⟩
  | hangUp =>
    have hall : reports ((x, .hangUp) :: h) = reports h := hreports.trans (List.append_nil _)
    have he' := he
    simp only [after] at he
    split at he <;> cases he
    constructor <;> rw [hall]
    · exact hlatest
    · exact ⟨shown, (settings_of_same he' rfl).trans hsettings, hfollows.hungUp⟩
  | step =>
    have hall : reports ((x, .step) :: h) = reports h := hreports.trans (List.append_nil _)
    obtain ⟨⟨f', p'⟩, hstep, rfl⟩ := Option.map_eq_some_iff.mp he
    rcases hfollows.step hlatest hstep with ⟨rfl, hfollows'⟩ | ⟨status, rfl, hfollows'⟩
    · constructor <;> rw [hall]
      · exact hlatest
      · exact ⟨shown, (settings_of_same he rfl).trans hsettings, hfollows'⟩
    · constructor <;> rw [hall]
      · exact hlatest
      · refine ⟨shown ++ [status], ?_, hfollows'⟩
        rw [settings_of_set he rfl, hsettings, List.map_append, List.map_singleton]

theorem sound_of_history (hh : History after ⟨f, .read⟩ h s) : Sound f.status.value h s := by
  induction hh with
  | refl => exact sound_start f
  | tail e _ he ih => exact sound_after ih he

/-! ## Rest -/

/-- At rest, the readiness is what the status means. -/
theorem Sound.readiness_of_rests {first : Status} (h' : Sound first h s) (hr : s.Rests) :
    s.following.readiness.value = ofStatus s.following.status.value := by
  obtain ⟨hlatest, shown, -, hfollows⟩ := h'
  rcases hr with hr | hr <;> rw [hr] at hfollows
  · obtain ⟨last, hseen, hvalue⟩ := hfollows
    have hsame : last = s.following.status.value :=
      Option.some.inj ((hseen.getLast?_of_version rfl).symm.trans hlatest)
    rw [hvalue, hsame]
  · exact hfollows.2.1

/-- There is a status that the follower will still read. -/
def Unread (x : Mirror) : Prop :=
  match x.follower with
  | .read => True
  | .publish _ seen | .parked seen => seen < x.following.status.version
  | .ended => False

theorem Unread.not_rests (h : Unread x) : ¬ x.Rests := by
  rintro (hr | hr) <;> unfold Unread at h <;> rw [hr] at h
  · exact Nat.lt_irrefl _ h
  · exact h

/-- A status that is reported is one that the follower will still read. -/
theorem Sound.unread_of_report {first status : Status} (h' : Sound first h x)
    (he : x.after (.report status) = some x') : Unread x' := by
  obtain ⟨-, shown, -, hfollows⟩ := h'
  simp only [after] at he
  split at he <;> cases he
  rename_i hopen
  show Unread ⟨_, x.follower⟩
  cases hp : x.follower <;> rw [hp] at hfollows
  · trivial
  · exact Nat.lt_succ_of_le (Seen.le_version hfollows)
  · obtain ⟨last, hseen, -⟩ := hfollows
    exact Nat.lt_succ_of_le hseen.le_version
  · exact hopen hfollows.2.2

/-- It stays so until the follower reads. -/
theorem Unread.after (h : Unread x) (he : x.after e = some x') : Reads (x, e) ∨ Unread x' := by
  cases e with
  | report status =>
    simp only [Mirror.after] at he
    split at he <;> cases he
    right
    unfold Unread at h ⊢
    dsimp only
    cases hp : x.follower <;> rw [hp] at h
    · trivial
    · exact Nat.lt_succ_of_lt h
    · exact Nat.lt_succ_of_lt h
    · exact h
  | hangUp =>
    simp only [Mirror.after] at he
    split at he <;> cases he
    exact .inr h
  | step =>
    obtain ⟨⟨f', p'⟩, hstep, rfl⟩ := Option.map_eq_some_iff.mp he
    unfold Unread at h ⊢
    dsimp only
    cases hp : x.follower <;> rw [hp] at h hstep
    · exact .inl ⟨rfl, hp⟩
    · cases hstep
      exact .inr h
    · rename_i seen
      have hnotice : x.following.status.notice? seen = some .changed :=
        Watched.notice?_eq_changed.mpr (Nat.ne_of_gt h)
      simp only [Follower.step, hnotice, Option.some.injEq, Prod.mk.injEq] at hstep
      obtain ⟨-, rfl⟩ := hstep
      exact .inr trivial
    · exact absurd h id

theorem Unread.reads_or_unread (h' : Unread x) (hh : History Mirror.after x h s) : (∃ y ∈ h, Reads y) ∨ Unread s := by
  induction hh with
  | refl => exact .inr h'
  | tail e _ he ih =>
    rcases ih with ⟨y, hy, hreads⟩ | hunread
    · exact .inl ⟨y, List.mem_cons_of_mem _ hy, hreads⟩
    · exact (hunread.after he).imp_left fun hreads => ⟨_, List.mem_cons_self, hreads⟩

/-- Left alone, a mirror comes to rest in a number of steps of its follower. -/
def ComesToRest (n : Nat) (x : Mirror) : Prop :=
  ∃ m ≤ n, ∃ l s, replay after x (List.replicate m .step) = some (l, s) ∧ s.Rests

theorem comesToRest_of_rests {n : Nat} (h : x.Rests) : ComesToRest n x := ⟨0, Nat.zero_le n, [], x, rfl, h⟩

theorem ComesToRest.step {n : Nat} (h : ComesToRest n x') (he : x.after .step = some x') : ComesToRest (n + 1) x := by
  obtain ⟨m, hm, l, s, hreplay, hr⟩ := h
  refine ⟨m + 1, Nat.succ_le_succ hm, l ++ [(x, .step)], s, ?_, hr⟩
  rw [List.replicate_succ, replay, he, Option.bind_some, hreplay]
  rfl

theorem comesToRest (x : Mirror) : ComesToRest 4 x := by
  have hpublish : ∀ (f : Following) status, ComesToRest 1 ⟨f, .publish status f.status.version⟩ := by
    intro f status
    exact ComesToRest.step (n := 0) (comesToRest_of_rests (.inl rfl)) rfl
  have hread : ∀ f : Following, ComesToRest 2 ⟨f, .read⟩ := fun f => (hpublish f f.status.value).step rfl
  have hparked : ∀ (f : Following) seen, ComesToRest 3 ⟨f, .parked seen⟩ := by
    intro f seen
    by_cases hv : f.status.version = seen
    · exact comesToRest_of_rests (.inl (by rw [hv]))
    · refine (hread f).step ?_
      have hnotice : f.status.notice? seen = some .changed := Watched.notice?_eq_changed.mpr hv
      simp [Mirror.after, Follower.step, hnotice]
  obtain ⟨f, p⟩ := x
  cases p with
  | read =>
    obtain ⟨m, hm, h⟩ := hread f
    exact ⟨m, by omega, h⟩
  | publish status seen => exact (hparked { f with readiness := f.readiness.set (ofStatus status) } seen).step rfl
  | parked seen =>
    obtain ⟨m, hm, h⟩ := hparked f seen
    exact ⟨m, by omega, h⟩
  | ended => exact comesToRest_of_rests (.inr rfl)

theorem isReady_ofStatus (status : Status) : (ofStatus status).isReady = true ↔ status.state = .connected := by
  obtain ⟨state, reason⟩ := status
  cases state <;> simp [ofStatus, isReady]

/-! ## What holds of every run -/

/-- However statuses are reported while a follower runs: what it sets are the meanings of some of the statuses, in their
order, from the one at first to the one reported last. Whenever it waits and has seen the status, or has ended, which it
does only when the status is not written any more, the readiness is what the last status means, so that the device is
ready just when that status is that it is connected. No status is missed: the follower does not rest before it has read
again after any report. And left alone it rests after at most four steps. -/
theorem readiness_followed (hh : History after ⟨f, .read⟩ h s) :
    (∃ shown : List Status, shown.Sublist (f.status.value :: reports h) ∧ settings h = shown.map ofStatus) ∧
    (f.status.value :: reports h).getLast? = some s.following.status.value ∧
    (s.Rests → s.following.readiness.value = ofStatus s.following.status.value ∧
      (s.following.readiness.value.isReady = true ↔ s.following.status.value.state = .connected)) ∧
    (s.follower = .ended → s.following.status.closed = true) ∧
    (∀ newer x status older, h = newer ++ (x, .report status) :: older → s.Rests → ∃ y ∈ newer, Reads y) ∧
    ∃ n ≤ 4, ∃ l s', replay after s (List.replicate n .step) = some (l, s') ∧ s'.Rests := by
  have hsound := sound_of_history hh
  obtain ⟨shown, hsettings, hfollows⟩ := hsound.follows
  refine ⟨⟨shown, hfollows.sublist, hsettings⟩, hsound.latest, fun hr => ?_, fun hended => ?_, ?_, comesToRest s⟩
  · have hvalue := hsound.readiness_of_rests hr
    exact ⟨hvalue, by rw [hvalue, isReady_ofStatus]⟩
  · rw [hended] at hfollows
    exact hfollows.2.2
  · rintro newer x status older rfl hr
    obtain ⟨hbefore, x', he, hnewer⟩ := hh.cut
    rcases ((sound_of_history hbefore).unread_of_report he).reads_or_unread hnewer with hreads | hunread
    · exact hreads
    · exact absurd hr hunread.not_rests

/-- The connection is lost and restored while the follower is between its first reading and its wait, and then the status
is not written any more. -/
def restoredMeanwhile : List Happening :=
  [.step, .report ⟨.retrying, .communicationError⟩, .step, .report ⟨.connected, .connectionOk⟩, .hangUp, .step, .step,
    .step, .step]

/-- The loss is never shown, but the end is. -/
theorem readiness_followed_restoredMeanwhile : ∃ h s,
    History after ⟨⟨{ value := {} }, { value := .unknown }⟩, .read⟩ h s ∧ s.follower = .ended ∧
    settings h = [.waiting "disconnected (ClientClosed)", .ready] ∧ s.following.readiness.value.isReady = true := by
  obtain ⟨h, s, hc, hended, hsettings, hconnected⟩ : ∃ h s,
      replay after ⟨⟨{ value := {} }, { value := .unknown }⟩, .read⟩ restoredMeanwhile = some (h, s) ∧
      s.follower = .ended ∧ settings h = [.waiting "disconnected (ClientClosed)", .ready] ∧
      s.following.status.value.state = .connected := ⟨_, _, rfl, rfl, rfl, rfl⟩
  have hh := History.of_replay hc
  obtain ⟨-, -, hrest, -⟩ := readiness_followed hh
  exact ⟨h, s, hh, hended, hsettings, (hrest (.inr hended)).2.mpr hconnected⟩

end Mirror

end HubDevice.Readiness
