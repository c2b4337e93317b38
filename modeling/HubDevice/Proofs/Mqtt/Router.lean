import HubDevice.Proofs.Mqtt.Call
import HubDevice.Proofs.Topic.Query
import Mathlib.Data.List.Nodup

/-!
# Answers about the twin

What a router does is read off the steps that were taken on it (`Router.Step`), the newest first. A request waits
on its id from its registration until an answer on that id arrives, the id is forgotten, or the session is closed
(`Waits`), and `mem_pending_past` says that these are the requests that the router knows to be waiting. A letter
was written by the step that ended such a wait (`mem_letters_past`). What an answer is about is read off its topic
(`Topic.Announces`).
-/

namespace HubDevice

namespace Mqtt

/-- The answer about the twin that a message is, with the id of the request that it answers. -/
def answer? (p : Publish) : Option (String × TwinReply) :=
  (Topic.twinResponse? p.topic).map fun t => (t.requestId, ⟨t.status, t.version, p.payload⟩)

namespace Router

/-! ## The steps of a router -/

/-- What is done to a router. -/
inductive Step where
  | register (id : String) (request : Nat)
  | route (p : Publish)
  | forget (id : String)
  | close (cause : CloseCause)

/-- What a step makes of a router and of the queues. -/
def Step.apply (x : Identity) (r : Router) (q : Queues) : Step → Router × Queues
  | .register id request => (r.register id request, q)
  | .route p => Mqtt.route x r q p
  | .forget id => (r.forget id, q)
  | .close cause => (r.close cause, q)

/-- What a new router and the queues have become after steps; the newest comes first. -/
def past (x : Identity) (q : Queues) : List Step → Router × Queues
  | [] => ({}, q)
  | s :: l => s.apply x (past x q l).1 (past x q l).2

/-- What a step tells whoever waits on an id. -/
def Step.tells? (id : String) : Step → Option Letter
  | .route p => ((answer? p).filter fun a => a.1 = id).map fun a => .reply a.2
  | .close _ => some .abandoned
  | .register _ _ | .forget _ => none

/-- A step after which nobody waits on an id any more. -/
def Step.Settles (id : String) (s : Step) : Prop := (s.tells? id).isSome = true ∨ s = .forget id

/-- A request has waited on an id since it was registered. -/
def Waits (l : List Step) (id : String) (request : Nat) : Prop :=
  ∃ newer older, l = newer ++ .register id request :: older ∧ ∀ s ∈ newer, ¬ s.Settles id

/-- A step ended the wait of a request with a letter. -/
def Told (l : List Step) (request : Nat) (letter : Letter) : Prop :=
  ∃ newer s older id, l = newer ++ s :: older ∧ Waits older id request ∧ s.tells? id = some letter

def Step.registered? : Step → Option (String × Nat)
  | .register id request => some (id, request)
  | _ => none

/-- No two requests are registered with the same id or the same number. -/
structure Distinct (l : List Step) : Prop where
  ids : ((l.filterMap Step.registered?).map Prod.fst).Nodup
  requests : ((l.filterMap Step.registered?).map Prod.snd).Nodup

variable {x : Identity} {q : Queues} {r : Router} {l : List Step} {s : Step} {id : String} {n : Nat}
  {p : Publish} {t : TwinReply} {letter : Letter}

theorem mem_registered : (id, n) ∈ l.filterMap Step.registered? ↔ .register id n ∈ l := by
  rw [List.mem_filterMap]
  constructor
  · rintro ⟨s, hs, he⟩
    cases s <;> cases he
    exact hs
  · exact fun h => ⟨_, h, rfl⟩

theorem Distinct.tail (h : Distinct (s :: l)) : Distinct l := by
  have hsub : (l.filterMap Step.registered?).Sublist ((s :: l).filterMap Step.registered?) :=
    (List.sublist_cons_self s l).filterMap _
  exact ⟨h.ids.sublist (hsub.map _), h.requests.sublist (hsub.map _)⟩

theorem Distinct.fresh (h : Distinct (.register id n :: l)) :
    (∀ m, .register id m ∉ l) ∧ ∀ id', .register id' n ∉ l := by
  have hi := h.ids
  have hr := h.requests
  rw [List.filterMap_cons_some (f := Step.registered?) (b := (id, n)) rfl, List.map_cons, List.nodup_cons] at hi hr
  exact ⟨fun m hm => hi.1 (List.mem_map.mpr ⟨(id, m), mem_registered.mpr hm, rfl⟩),
    fun id' hm => hr.1 (List.mem_map.mpr ⟨(id', n), mem_registered.mpr hm, rfl⟩)⟩

theorem tells?_route : (Step.route p).tells? id = some letter ↔ ∃ t, answer? p = some (id, t) ∧ letter = .reply t := by
  cases ha : answer? p with
  | none => simp [Step.tells?, ha]
  | some a =>
    obtain ⟨id', t⟩ := a
    by_cases hid : id' = id
    · simp [Step.tells?, ha, hid, eq_comm (a := letter)]
    · simp [Step.tells?, ha, hid]

@[simp] theorem settles_register (id' : String) : ¬ (Step.register id' n).Settles id := by
  simp [Step.Settles, Step.tells?]

@[simp] theorem settles_route : (Step.route p).Settles id ↔ ∃ t, answer? p = some (id, t) := by
  simp only [Step.Settles, Option.isSome_iff_exists, tells?_route, reduceCtorEq, or_false]
  exact ⟨fun ⟨_, t, ht, _⟩ => ⟨t, ht⟩, fun ⟨t, ht⟩ => ⟨_, t, ht, rfl⟩⟩

@[simp] theorem settles_forget {id' : String} : (Step.forget id').Settles id ↔ id' = id := by
  simp [Step.Settles, Step.tells?]

@[simp] theorem settles_close (cause : CloseCause) : (Step.close cause).Settles id := .inl rfl

/-! ## Waiting -/

theorem waits_cons : Waits (s :: l) id n ↔ s = .register id n ∨ ¬ s.Settles id ∧ Waits l id n := by
  constructor
  · rintro ⟨newer, older, hl, hs⟩
    cases newer with
    | nil =>
      cases hl
      exact .inl rfl
    | cons s' newer =>
      cases hl
      exact .inr ⟨hs s List.mem_cons_self, newer, older, rfl, fun s' hs' => hs s' (List.mem_cons_of_mem _ hs')⟩
  · rintro (rfl | ⟨hs, newer, older, rfl, hn⟩)
    · exact ⟨[], l, rfl, by simp⟩
    · refine ⟨s :: newer, older, rfl, fun s' hs' => ?_⟩
      rcases List.mem_cons.mp hs' with rfl | hs'
      · exact hs
      · exact hn s' hs'

theorem told_cons : Told (s :: l) n letter ↔
    (∃ id, Waits l id n ∧ s.tells? id = some letter) ∨ Told l n letter := by
  constructor
  · rintro ⟨newer, s', older, id, hl, hw, ht⟩
    cases newer with
    | nil =>
      cases hl
      exact .inl ⟨id, hw, ht⟩
    | cons s' newer =>
      cases hl
      exact .inr ⟨newer, _, older, id, rfl, hw, ht⟩
  · rintro (⟨id, hw, ht⟩ | ⟨newer, s', older, id, rfl, hw, ht⟩)
    · exact ⟨[], s, l, id, rfl, hw, ht⟩
    · exact ⟨s :: newer, s', older, id, rfl, hw, ht⟩

theorem Waits.registered (h : Waits l id n) : .register id n ∈ l := by
  obtain ⟨newer, older, rfl, -⟩ := h
  simp

/-! ## What a step does -/

theorem route_of_answer (h : answer? p = some (id, t)) : Mqtt.route x r q p = (r.resolve id t, q) := by
  obtain ⟨a, ha, he⟩ := Option.map_eq_some_iff.mp h
  cases he
  simp [Mqtt.route, Routed.ofPublish, ha, Routed.deliver]

theorem router_of_other (h : answer? p = none) : (Mqtt.route x r q p).1 = r := by
  have ha := Option.map_eq_none_iff.mp h
  have hne : ∀ id t, Routed.ofPublish x p ≠ .twinReply id t := by
    intro id t
    unfold Routed.ofPublish
    rw [ha]
    dsimp only
    repeat' split
    all_goals simp
  unfold Mqtt.route
  cases hp : Routed.ofPublish x p with
  | twinReply id t => exact absurd hp (hne id t)
  | request | c2d | ignored => rfl

theorem mem_of_waiting? (h : r.waiting? id = some n) : (id, n) ∈ r.pending := by
  obtain ⟨⟨id', n'⟩, hf, rfl⟩ := Option.map_eq_some_iff.mp h
  have hid : id' = id := by simpa using List.find?_some hf
  exact hid ▸ List.mem_of_find?_eq_some hf

theorem waiting?_eq_none : r.waiting? id = none ↔ ∀ n, (id, n) ∉ r.pending := by
  unfold waiting?
  rw [Option.map_eq_none_iff, List.find?_eq_none]
  constructor
  · exact fun h n hn => by simpa using h _ hn
  · rintro h ⟨id', n⟩ hn hid
    have hid : id' = id := by simpa using hid
    exact h n (hid ▸ hn)

theorem waiting?_of_mem (hn : (r.pending.map Prod.fst).Nodup) (h : (id, n) ∈ r.pending) :
    r.waiting? id = some n := by
  cases hw : r.waiting? id with
  | none => exact absurd h (waiting?_eq_none.mp hw n)
  | some m =>
    have hm := List.inj_on_of_nodup_map hn (mem_of_waiting? hw) h rfl
    cases hm
    rfl

theorem forget_of_none (h : r.waiting? id = none) : r.forget id = r := by
  have hf : r.pending.filter (fun p => p.1 ≠ id) = r.pending := by
    refine List.filter_eq_self.mpr fun ⟨id', n⟩ hm => ?_
    have hne : id' ≠ id := fun he => waiting?_eq_none.mp h n (he ▸ hm)
    simpa using hne
  unfold forget
  rw [hf]

theorem pending_resolve : (r.resolve id t).pending = r.pending.filter fun p => p.1 ≠ id := by
  unfold resolve
  split
  · rename_i hn
    exact congrArg Router.pending (forget_of_none hn).symm
  · rfl

theorem mem_letters_resolve (hn : (r.pending.map Prod.fst).Nodup) :
    (n, letter) ∈ (r.resolve id t).letters ↔ (n, letter) ∈ r.letters ∨ (id, n) ∈ r.pending ∧ letter = .reply t := by
  unfold resolve
  split
  · rename_i hw
    exact ⟨.inl, fun h => h.resolve_right fun hp => waiting?_eq_none.mp hw n hp.1⟩
  · rename_i m hw
    have hm : (id, n) ∈ r.pending ↔ n = m := by
      constructor
      · intro h
        rw [waiting?_of_mem hn h] at hw
        exact Option.some.inj hw
      · rintro rfl
        exact mem_of_waiting? hw
    simp [tell, forget, hm]

/-- The requests that wait after a step: those that have not been told anything nor forgotten, and a new one. -/
theorem mem_pending_apply (hf : ∀ id n, s = .register id n → r.waiting? id = none) :
    (id, n) ∈ (s.apply x r q).1.pending ↔ s = .register id n ∨ ¬ s.Settles id ∧ (id, n) ∈ r.pending := by
  cases s with
  | register id' n' =>
    have hp : (r.register id' n').pending = r.pending ++ [(id', n')] := by
      unfold register
      rw [hf id' n' rfl]
    simp [Step.apply, hp, or_comm, eq_comm]
  | route p =>
    cases ha : answer? p with
    | none => simp [Step.apply, router_of_other ha, ha]
    | some a =>
      obtain ⟨id', t⟩ := a
      rw [Step.apply, route_of_answer ha, pending_resolve, List.mem_filter]
      simp [ha, and_comm, eq_comm (a := id)]
  | forget id' =>
    show (id, n) ∈ r.pending.filter _ ↔ _
    rw [List.mem_filter]
    simp [and_comm, eq_comm (a := id)]
  | close cause => simp [Step.apply, close]

/-- The letters after a step: those that it writes to the requests that wait are new. -/
theorem mem_letters_apply (hn : (r.pending.map Prod.fst).Nodup)
    (hf : ∀ id n, s = .register id n → r.waiting? id = none) :
    (n, letter) ∈ (s.apply x r q).1.letters ↔
      (n, letter) ∈ r.letters ∨ ∃ id, (id, n) ∈ r.pending ∧ s.tells? id = some letter := by
  cases s with
  | register id' n' =>
    have hnone := hf id' n' rfl
    simp [Step.apply, register, hnone, Step.tells?]
  | route p =>
    cases ha : answer? p with
    | none => simp [Step.apply, router_of_other ha, Step.tells?, ha]
    | some a =>
      obtain ⟨id', t⟩ := a
      rw [Step.apply, route_of_answer ha, mem_letters_resolve hn]
      simp [tells?_route, ha]
  | forget id' => simp [Step.apply, forget, Step.tells?]
  | close cause => simp [Step.apply, close, Step.tells?, eq_comm]

/-! ## Numbers -/

/-- The requests that were told something, and those that wait. -/
def numbers (r : Router) : List Nat := r.letters.map Prod.fst ++ r.pending.map Prod.snd

/-- Of the requests that wait, one waits on the id that is forgotten. -/
theorem pending_forget (hi : (r.pending.map Prod.fst).Nodup) (hw : r.waiting? id = some n) :
    ∃ before after, r.pending = before ++ (id, n) :: after ∧ (r.forget id).pending = before ++ after := by
  obtain ⟨a, b, hab⟩ := List.append_of_mem (mem_of_waiting? hw)
  refine ⟨a, b, hab, ?_⟩
  rw [hab, List.map_append, List.map_cons, List.nodup_middle, ← List.map_append] at hi
  have hother : ∀ p ∈ a ++ b, decide (p.1 ≠ id) = true := by
    intro p hp
    have hne : p.1 ≠ id := fun he => (List.nodup_cons.mp hi).1 (List.mem_map.mpr ⟨p, hp, he⟩)
    simpa using hne
  show r.pending.filter _ = a ++ b
  rw [hab, List.filter_append, List.filter_cons_of_neg (by simp), ← List.filter_append,
    List.filter_eq_self.mpr hother]

/-- An answer moves a number from those that wait to those that were told something. -/
theorem numbers_resolve (hi : (r.pending.map Prod.fst).Nodup) : (r.resolve id t).numbers.Perm r.numbers := by
  unfold resolve
  split
  · exact .refl _
  · rename_i m hw
    obtain ⟨a, b, hab, hrest⟩ := pending_forget hi hw
    show ((r.letters ++ [(m, Letter.reply t)]).map Prod.fst ++ (r.forget id).pending.map Prod.snd).Perm _
    rw [hrest, numbers, hab]
    simp only [List.map_append, List.map_cons, List.map_nil]
    rw [List.append_assoc, List.singleton_append]
    exact List.Perm.append_left _ List.perm_middle.symm

/-- After a step no number is there twice, and none is there that was not registered. -/
theorem nodup_numbers_apply (hi : (r.pending.map Prod.fst).Nodup) (hn : r.numbers.Nodup)
    (hf : ∀ id n, s = .register id n → r.waiting? id = none ∧ n ∉ r.numbers) :
    (s.apply x r q).1.numbers.Nodup ∧
      ∀ n ∈ (s.apply x r q).1.numbers, n ∈ r.numbers ∨ ∃ id, s = .register id n := by
  cases s with
  | register id m =>
    obtain ⟨hnone, hm⟩ := hf id m rfl
    have he : (r.register id m).numbers = r.numbers ++ [m] := by
      simp [numbers, register, hnone]
    show (r.register id m).numbers.Nodup ∧ ∀ n ∈ (r.register id m).numbers, _
    rw [he]
    refine ⟨List.nodup_append.mpr ⟨hn, List.nodup_singleton m, ?_⟩, fun n hn => ?_⟩
    · rintro a ha b hb rfl
      exact hm (List.mem_singleton.mp hb ▸ ha)
    · rcases List.mem_append.mp hn with hn | hn
      · exact .inl hn
      · exact .inr ⟨id, by rw [List.mem_singleton.mp hn]⟩
  | route p =>
    show (Mqtt.route x r q p).1.numbers.Nodup ∧ ∀ n ∈ (Mqtt.route x r q p).1.numbers, _
    cases ha : answer? p with
    | none =>
      rw [router_of_other ha]
      exact ⟨hn, fun n hn => .inl hn⟩
    | some a =>
      rw [route_of_answer ha]
      have hperm : (r.resolve a.1 a.2).numbers.Perm r.numbers := numbers_resolve hi
      exact ⟨hperm.nodup_iff.mpr hn, fun n hn => .inl (hperm.mem_iff.mp hn)⟩
  | forget id =>
    have hsub : (r.forget id).numbers.Sublist r.numbers :=
      (List.Sublist.refl _).append (List.filter_sublist.map _)
    exact ⟨hn.sublist hsub, fun n hn => .inl (hsub.mem hn)⟩
  | close cause =>
    have he : (r.close cause).numbers = r.numbers := by
      simp [numbers, close]
    show (r.close cause).numbers.Nodup ∧ ∀ n ∈ (r.close cause).numbers, _
    rw [he]
    exact ⟨hn, fun n hn => .inl hn⟩

/-! ## Runs -/

theorem pending_sublist : (past x q l).1.pending.Sublist (l.filterMap Step.registered?).reverse := by
  induction l with
  | nil => exact .slnil
  | cons s l ih =>
    cases s with
    | register id n =>
      rw [List.filterMap_cons_some (f := Step.registered?) (b := (id, n)) rfl, List.reverse_cons]
      show ((past x q l).1.register id n).pending.Sublist _
      unfold register
      refine List.Sublist.append ?_ (.refl _)
      split
      · exact ih
      · exact (List.filter_sublist).trans ih
    | route p =>
      rw [List.filterMap_cons_none (f := Step.registered?) rfl]
      show (Mqtt.route x _ _ p).1.pending.Sublist _
      cases ha : answer? p with
      | none => rwa [router_of_other ha]
      | some a =>
        rw [route_of_answer ha, pending_resolve]
        exact (List.filter_sublist).trans ih
    | forget id =>
      rw [List.filterMap_cons_none (f := Step.registered?) rfl]
      exact (List.filter_sublist).trans ih
    | close cause =>
      rw [List.filterMap_cons_none (f := Step.registered?) rfl]
      exact List.nil_sublist _

theorem registered_of_pending (h : (id, n) ∈ (past x q l).1.pending) : .register id n ∈ l :=
  mem_registered.mp (List.mem_reverse.mp (pending_sublist.mem h))

theorem Distinct.pending_ids (h : Distinct l) : ((past x q l).1.pending.map Prod.fst).Nodup := by
  refine List.Nodup.sublist (pending_sublist.map _) ?_
  rw [List.map_reverse, List.nodup_reverse]
  exact h.ids

theorem Distinct.unknown (h : Distinct (s :: l)) (id : String) (n : Nat) (hs : s = .register id n) :
    (past x q l).1.waiting? id = none := by
  subst hs
  exact waiting?_eq_none.mpr fun m hm => h.fresh.1 m (registered_of_pending hm)

/-- The router knows just the requests that wait. -/
theorem mem_pending_past (h : Distinct l) : (id, n) ∈ (past x q l).1.pending ↔ Waits l id n := by
  induction l with
  | nil =>
    refine ⟨fun hm => absurd hm List.not_mem_nil, fun hw => ?_⟩
    have hr := hw.registered
    cases hr
  | cons s l ih => rw [past, mem_pending_apply h.unknown, waits_cons, ih h.tail]

/-- The letters are those that ended a wait. -/
theorem mem_letters_past (h : Distinct l) : (n, letter) ∈ (past x q l).1.letters ↔ Told l n letter := by
  induction l with
  | nil =>
    refine ⟨fun hm => absurd hm List.not_mem_nil, ?_⟩
    rintro ⟨newer, s, older, id, hl, -⟩
    cases newer <;> cases hl
  | cons s l ih =>
    rw [past, mem_letters_apply h.tail.pending_ids h.unknown, told_cons, ih h.tail, or_comm]
    simp only [mem_pending_past h.tail]

theorem nodup_numbers_past (h : Distinct l) : (past x q l).1.numbers.Nodup ∧
    ∀ n ∈ (past x q l).1.numbers, ∃ id, .register id n ∈ l := by
  induction l with
  | nil => exact ⟨.nil, fun n hn => absurd hn List.not_mem_nil⟩
  | cons s l ih =>
    obtain ⟨hn, hr⟩ := ih h.tail
    have hstep := nodup_numbers_apply (x := x) (q := (past x q l).2) h.tail.pending_ids hn fun id n hs => by
      refine ⟨h.unknown id n hs, fun hmem => ?_⟩
      obtain ⟨id', hid'⟩ := hr n hmem
      subst hs
      exact h.fresh.2 id' hid'
    refine ⟨hstep.1, fun n hmem => ?_⟩
    rcases hstep.2 n hmem with hmem | ⟨id, rfl⟩
    · obtain ⟨id, hid⟩ := hr n hmem
      exact ⟨id, List.mem_cons_of_mem _ hid⟩
    · exact ⟨id, List.mem_cons_self⟩

/-! ## Correlation -/

/-- The wait of a request ended because its id was forgotten. -/
def Forgotten (l : List Step) (id : String) (request : Nat) : Prop :=
  ∃ newer older, l = newer ++ .forget id :: older ∧ Waits older id request

/-- A request that was registered waits, was told something, or was forgotten. -/
theorem fate_of_registered (h : .register id n ∈ l) :
    Waits l id n ∨ (∃ letter, Told l n letter) ∨ Forgotten l id n := by
  induction l with
  | nil => cases h
  | cons s l ih =>
    rcases List.mem_cons.mp h with rfl | h
    · exact .inl (waits_cons.mpr (.inl rfl))
    · rcases ih h with hw | ⟨letter, ht⟩ | ⟨newer, older, rfl, hw⟩
      · by_cases hs : s.Settles id
        · rcases hs with ht | rfl
          · obtain ⟨letter, ht⟩ := Option.isSome_iff_exists.mp ht
            exact .inr (.inl ⟨letter, told_cons.mpr (.inl ⟨id, hw, ht⟩)⟩)
          · exact .inr (.inr ⟨[], l, rfl, hw⟩)
        · exact .inl (waits_cons.mpr (.inr ⟨hs, hw⟩))
      · exact .inr (.inl ⟨letter, told_cons.mpr (.inr ht)⟩)
      · exact .inr (.inr ⟨s :: newer, older, rfl, hw⟩)

/-- Once the wait on an id has ended, nobody waits on it again. -/
theorem not_waits_of_settles {newer older : List Step} (h : Distinct (newer ++ s :: older)) (hs : s.Settles id)
    (hr : .register id n ∈ older) (m : Nat) : ¬ Waits (newer ++ s :: older) id m := by
  induction newer with
  | nil =>
    intro hw
    rcases waits_cons.mp hw with rfl | ⟨hns, -⟩
    · exact settles_register id hs
    · exact hns hs
  | cons s' newer ih =>
    intro hw
    rcases waits_cons.mp hw with rfl | ⟨-, hw⟩
    · exact h.fresh.1 n (List.mem_append_right _ (List.mem_cons_of_mem _ hr))
    · exact ih h.tail hw

/-- An answer that nobody waits for changes nothing. -/
theorem route_of_not_waits (h : Distinct l) (ha : answer? p = some (id, t)) (hw : ∀ n, ¬ Waits l id n) :
    Mqtt.route x (past x q l).1 (past x q l).2 p = past x q l := by
  have hnone : (past x q l).1.waiting? id = none :=
    waiting?_eq_none.mpr fun n hn => hw n ((mem_pending_past h).mp hn)
  rw [route_of_answer ha, resolve, hnone]

theorem Distinct.cons (h : Distinct l) (hs : s.registered? = none) : Distinct (s :: l) := by
  constructor
  · rw [List.filterMap_cons_none hs]
    exact h.ids
  · rw [List.filterMap_cons_none hs]
    exact h.requests

theorem nodup_told (h : Distinct l) : ((past x q l).1.letters.map Prod.fst).Nodup :=
  (List.nodup_append.mp (nodup_numbers_past h).1).1

theorem letter?_past (h : Distinct l) : (past x q l).1.letter? n = some letter ↔ Told l n letter := by
  rw [← mem_letters_past (x := x) (q := q) h]
  unfold letter?
  constructor
  · intro hl
    obtain ⟨⟨m, letter'⟩, hf, rfl⟩ := Option.map_eq_some_iff.mp hl
    have hm : m = n := by simpa using List.find?_some hf
    exact hm ▸ List.mem_of_find?_eq_some hf
  · intro hm
    cases hf : (past x q l).1.letters.find? fun p => p.1 = n with
    | none =>
      have hno := List.find?_eq_none.mp hf _ hm
      simp at hno
    | some p =>
      have hp : p.1 = n := by simpa using List.find?_some hf
      have he := List.inj_on_of_nodup_map (nodup_told h) (List.mem_of_find?_eq_some hf) hm hp
      rw [he]
      rfl

/-- For every sequence of steps that registers each request with an id and a number of its own: a request is told
at most one thing. The answer that it is told arrived while it was waiting, on a topic that has its id, and with
the status, the version and the payload of that message. An answer on an id is told to the request that waits on
it; all others wait as before and are told nothing. When nobody has asked for it, or it comes again, it changes
nothing. The end of the session leaves nobody waiting, and has told something to each request that was registered
and not forgotten. -/
theorem twin_replies_correlated (h : Distinct l) :
    ((past x q l).1.letters.map Prod.fst).Nodup ∧
    (∀ n t, (past x q l).1.letter? n = some (.reply t) → ∃ newer p older a status query,
      l = newer ++ .route p :: older ∧ Waits older a.requestId n ∧
      Topic.Announces p.topic a status query ∧ t = ⟨a.status, a.version, p.payload⟩) ∧
    (∀ p id t, answer? p = some (id, t) →
      (∀ n, Waits l id n → (past x q (.route p :: l)).1.letter? n = some (.reply t)) ∧
      (∀ n, ¬ Waits l id n → (past x q (.route p :: l)).1.letter? n = (past x q l).1.letter? n) ∧
      (∀ id' n, id' ≠ id →
        ((id', n) ∈ (past x q (.route p :: l)).1.pending ↔ (id', n) ∈ (past x q l).1.pending)) ∧
      ((∀ n, .register id n ∉ l) ∨
        (∃ newer p' older t' n, l = newer ++ .route p' :: older ∧ answer? p' = some (id, t') ∧
          .register id n ∈ older) → past x q (.route p :: l) = past x q l)) ∧
    (∀ cause, (past x q (.close cause :: l)).1.pending = [] ∧ ∀ id n, .register id n ∈ l →
      (∃ letter, (past x q (.close cause :: l)).1.letter? n = some letter) ∨ Forgotten l id n) := by
  refine ⟨nodup_told h, fun n t hl => ?_, fun p id t ha => ⟨fun n hw => ?_, fun n hw => ?_, fun id' n hne => ?_,
    fun hknown => ?_⟩, fun cause => ⟨rfl, fun id n hr => ?_⟩⟩
  · obtain ⟨newer, s, older, id, rfl, hw, ht⟩ := (letter?_past h).mp hl
    cases s with
    | route p =>
      obtain ⟨t', ha, he⟩ := tells?_route.mp ht
      obtain ⟨a, htopic, hat⟩ := Option.map_eq_some_iff.mp ha
      cases he
      cases hat
      obtain ⟨status, query, hannounces⟩ := Topic.announces_of_twinResponse? htopic
      exact ⟨newer, p, older, a, status, query, rfl, hw, hannounces, rfl⟩
    | register | forget | close => cases ht
  · rw [letter?_past (h.cons rfl), told_cons]
    exact .inl ⟨id, hw, tells?_route.mpr ⟨t, ha, rfl⟩⟩
  · refine Option.ext fun letter => ?_
    show _ = some letter ↔ _ = some letter
    rw [letter?_past (h.cons rfl), letter?_past h, told_cons]
    refine ⟨fun ht => ht.resolve_left ?_, .inr⟩
    rintro ⟨id', hw', ht⟩
    obtain ⟨t', ha', -⟩ := tells?_route.mp ht
    cases ha.symm.trans ha'
    exact hw hw'
  · rw [mem_pending_past (h.cons rfl), mem_pending_past h, waits_cons]
    have hns : ¬ (Step.route p).Settles id' := by
      rw [settles_route]
      rintro ⟨t', ha'⟩
      cases ha.symm.trans ha'
      exact hne rfl
    exact ⟨fun hw => (hw.resolve_left (by simp)).2, fun hw => .inr ⟨hns, hw⟩⟩
  · refine route_of_not_waits h ha fun m hw => ?_
    rcases hknown with hnone | ⟨newer, p', older, t', n, rfl, ha', hr⟩
    · exact hnone m hw.registered
    · exact not_waits_of_settles h (settles_route.mpr ⟨t', ha'⟩) hr m hw
  · rcases fate_of_registered hr with hw | ⟨letter, ht⟩ | hf
    · exact .inl ⟨.abandoned, (letter?_past (h.cons rfl)).mpr (told_cons.mpr (.inl ⟨id, hw, rfl⟩))⟩
    · exact .inl ⟨letter, (letter?_past (h.cons rfl)).mpr (told_cons.mpr (.inr ht))⟩
    · exact .inr hf

/-- The answer to the second of two requests arrives first and twice, the first is forgotten, and the session
ends. The newest step comes first. -/
def crossedAnswers : List Step :=
  [.close .closedLocally, .route ⟨"$iothub/twin/res/200/?$rid=b", [1], .atMostOnce⟩, .forget "a",
    .route ⟨"$iothub/twin/res/204/?$rid=b&$version=7", [], .atMostOnce⟩,
    .register "b" 1, .register "a" 0]

/-- The second request is told the first answer on its id, the first request is told nothing. -/
theorem twin_replies_correlated_crossed : Distinct crossedAnswers ∧
    (past ⟨"d", none⟩ ⟨{ capacity := 1 }, { capacity := 1 }⟩ crossedAnswers).1.letter? 0 = none ∧
    ∃ newer p older a status query, crossedAnswers = newer ++ .route p :: older ∧ Waits older a.requestId 1 ∧
      Topic.Announces p.topic a status query ∧ (⟨204, some 7, []⟩ : TwinReply) = ⟨a.status, a.version, p.payload⟩ := by
  have hd : Distinct crossedAnswers := ⟨by decide, by decide⟩
  have htold : (past ⟨"d", none⟩ ⟨{ capacity := 1 }, { capacity := 1 }⟩ crossedAnswers).1.letter? 1 =
      some (.reply ⟨204, some 7, []⟩) := by decide +kernel
  exact ⟨hd, by decide +kernel, (twin_replies_correlated hd).2.1 1 _ htold⟩

end Router

/-! ## Sessions -/

/-- What happens to the router of a session at a time: nothing, or one of the steps. -/
def Router.Moves (r r' : Router) : Prop :=
  r' = r ∨ ∃ (step : Router.Step) (x : Identity) (q : Queues), (step.apply x r q).1 = r'

theorem Session.moves_acknowledge (s : Session) (o : Except TransportError Unit) :
    (s.acknowledge o).router = s.router := by
  unfold acknowledge
  split <;> rfl

theorem Session.moves_onEvent (x : Identity) (q : Queues) (s : Session) (e : Event) :
    s.router.Moves (s.onEvent x q e).1.router := by
  cases e with
  | acknowledged code =>
    cases code with
    | success => exact .inl (s.moves_acknowledge _)
    | _ => exact .inl rfl
  | arrived p => exact .inr ⟨.route p, x, q, rfl⟩
  | failed f => exact .inr ⟨.close (.remote f.classify.message), x, q, rfl⟩
  | dismissed | leftHub | other => exact .inl rfl

theorem Session.moves_drive {x : Identity} {q q' : Queues} {s s' : Session}
    (h : s.drive x q = some (s', q')) : s.router.Moves s'.router := by
  unfold drive at h
  split at h
  · cases h
  · cases h
  · split at h
    · cases h
      exact .inl rfl
    · split at h
      · cases h
      · rename_i e rest _
        have hm := moves_onEvent x q { s with events := rest } e
        rw [Option.some.inj h] at hm
        exact hm
  · cases h
    exact .inl (s.moves_acknowledge _)
  · rename_i cause _
    cases h
    exact .inr ⟨.close cause, x, q, rfl⟩

theorem Session.Touched.moves {s s' : Session} (x : Identity) (q : Queues) (h : s.Touched s') :
    s.router.Moves s'.router := by
  cases h with
  | opened | joined | stopped | filled => exact .inl rfl
  | left => exact .inr ⟨.close .closedLocally, x, q, rfl⟩
  | registered id request => exact .inr ⟨.register id request, x, q, rfl⟩
  | forgot id => exact .inr ⟨.forget id, x, q, rfl⟩

/-- What a call on a session does to its router is one of the steps. -/
theorem Phase.moves_step {cancelled : Bool} {n i : Nat} {st st' : Station} {s : Session} {ph ph' : Phase}
    (hs : st.session? i = some s) (h : ph.step cancelled n i st s = some (st', ph')) :
    ∃ s', st'.session? i = some s' ∧ s.router.Moves s'.router := by
  cases turn_of_step h with
  | stood | took => exact ⟨s, hs, .inl rfl⟩
  | touched _ ht =>
    exact ⟨_, List.getElem?_set_self (List.getElem?_eq_some_iff.mp hs).1, ht.moves st.identity st.queues⟩

end Mqtt

end HubDevice
