import HubDevice.Proofs.Mqtt.Router
import HubDevice.Proofs.Text.Split

/-!
# What arrives is of one kind

Five readers look at what arrives, one after the other, and each knows its topics by what they start with. No topic
starts as two of them ask for, whatever the ids of the device and of its module are (`Kind.eq_of_accepts`): so the
order in which they look does not matter. And what is read has one effect at most (`Effect`): an answer ends one wait,
a request or a message is offered to its own queue, and everything else is left as it was.
-/

namespace HubDevice.Mqtt

variable {x : Identity} {p : Publish} {r : Router} {q : Queues} {id : String} {n : Nat}

/-! ## The readers -/

/-- What the hub offers to all devices on the same topics. -/
inductive Service where
  | twinReply
  | method
  | desired

/-- The kinds of what arrives. -/
inductive Kind where
  | service (s : Service)
  | input
  | c2d

def Service.start : Service → String
  | twinReply => Topic.twinResponseStart
  | method => Topic.methodsStart
  | desired => Topic.desiredStart

namespace Kind

/-- What the topics of a kind start with; only modules have inputs. -/
def start? (x : Identity) : Kind → Option String
  | service s => some s.start
  | input => x.inputsStart?
  | c2d => some x.c2dStart

/-- What the reader of a kind makes of a message that it accepts. A patch that is not an object is accepted, and
leads to nothing. -/
def read? (x : Identity) (p : Publish) : Kind → Option Routed
  | service .twinReply => (Topic.twinResponse? p.topic).map fun t =>
      .twinReply t.requestId ⟨t.status, t.version, p.payload⟩
  | service .method => (Topic.method? p.topic p.payload).map fun call => .request (.method call)
  | service .desired => (Topic.desired? p.topic).map fun version =>
      match Json.parse? p.payload with
      | some (.obj patch) => .request (.desired version patch)
      | _ => .ignored
  | input => (x.moduleInput? p.topic p.payload).map .request
  | c2d => (x.c2d? p.topic p.payload).map .c2d

theorem start_of_accepts {k : Kind} (h : (k.read? x p).isSome) :
    ∃ start, k.start? x = some start ∧ start.toList <+: p.topic.toList := by
  have hprefix : ∀ {start : String} {rest : List Char}, Text.after? start.toList p.topic.toList = some rest →
      start.toList <+: p.topic.toList := fun ha => ⟨_, (Text.after?_eq_some.mp ha).symm⟩
  obtain ⟨routed, hrouted⟩ := Option.isSome_iff_exists.mp h
  cases k with
  | service s =>
    refine ⟨s.start, rfl, ?_⟩
    cases s with
    | twinReply =>
      obtain ⟨t, ht, -⟩ := Option.map_eq_some_iff.mp hrouted
      simp only [Topic.twinResponse?, Option.bind_eq_bind, Option.bind_eq_some_iff] at ht
      obtain ⟨rest, hrest, -⟩ := ht
      exact hprefix hrest
    | method =>
      obtain ⟨call, hcall, -⟩ := Option.map_eq_some_iff.mp hrouted
      simp only [Topic.method?, Option.bind_eq_bind, Option.bind_eq_some_iff] at hcall
      obtain ⟨rest, hrest, -⟩ := hcall
      exact hprefix hrest
    | desired =>
      obtain ⟨version, hversion, -⟩ := Option.map_eq_some_iff.mp hrouted
      simp only [Topic.desired?, Option.bind_eq_bind, Option.bind_eq_some_iff] at hversion
      obtain ⟨rest, hrest, -⟩ := hversion
      exact hprefix hrest
  | input =>
    obtain ⟨i, hi, -⟩ := Option.map_eq_some_iff.mp hrouted
    simp only [Identity.moduleInput?, Option.bind_eq_bind, Option.bind_eq_some_iff] at hi
    obtain ⟨start, hstart, rest, hrest, -⟩ := hi
    exact ⟨start, hstart, hprefix hrest⟩
  | c2d =>
    obtain ⟨m, hm, -⟩ := Option.map_eq_some_iff.mp hrouted
    obtain ⟨rest, hrest, -⟩ := Option.map_eq_some_iff.mp hm
    exact ⟨_, rfl, hprefix hrest⟩

end Kind

/-! ## No topic starts in two of the ways -/

/-- A text does not go on in two ways. -/
theorem apart_of_head? (stem : List Char) {s t cs : List Char} {a b : Char} (hs : s.head? = some a)
    (ht : t.head? = some b) (hab : a ≠ b) (h : stem ++ s <+: cs) : ¬ stem ++ t <+: cs := by
  intro h'
  obtain ⟨s, rfl⟩ := List.head?_eq_some_iff.mp hs
  obtain ⟨t, rfl⟩ := List.head?_eq_some_iff.mp ht
  obtain ⟨after, rfl⟩ := h
  obtain ⟨after', hsame⟩ := h'
  rw [List.append_assoc, List.append_assoc, List.append_cancel_left_eq] at hsame
  exact hab (List.cons.inj hsame).1.symm

theorem Service.eq_of_prefix {s s' : Service} (h : s.start.toList <+: s'.start.toList) : s = s' := by
  cases s <;> cases s' <;> first | rfl | exact absurd h (by decide)

/-- What the topics of a device start with, up to where those of its modules and those of its messages part. -/
def deviceStem (x : Identity) : String := "devices/" ++ x.deviceId ++ "/m"

theorem append_split {u v w : String} (h : u = v ++ w) (a b : String) : a ++ u ++ b = a ++ v ++ (w ++ b) := by
  simp only [h, String.append_assoc]

theorem c2dStart_eq (x : Identity) : x.c2dStart = deviceStem x ++ "essages/devicebound/" := by
  have hsplit : "/messages/devicebound/" = "/m" ++ "essages/devicebound/" := by decide
  exact (congrArg ("devices/" ++ x.deviceId ++ ·) hsplit).trans String.append_assoc.symm

theorem inputsStart_eq {start : String} (h : x.inputsStart? = some start) :
    ∃ m, start = deviceStem x ++ ("odules/" ++ (m ++ "/inputs/")) := by
  obtain ⟨m, -, rfl⟩ := Option.map_eq_some_iff.mp h
  have hsplit : "/modules/" = "/m" ++ "odules/" := by decide
  exact ⟨m, String.append_assoc.trans (append_split hsplit ("devices/" ++ x.deviceId) (m ++ "/inputs/"))⟩

/-- Whatever the ids are, no topic is both that of an input and that of a message from the cloud. -/
theorem input_apart_c2d {start : String} {cs : List Char} (h : x.inputsStart? = some start)
    (hi : start.toList <+: cs) : ¬ x.c2dStart.toList <+: cs := by
  obtain ⟨m, rfl⟩ := inputsStart_eq h
  have hhead : ("odules/" ++ (m ++ "/inputs/")).toList.head? = some 'o' := by
    rw [String.toList_append]
    rfl
  rw [c2dStart_eq, String.toList_append]
  rw [String.toList_append] at hi
  exact apart_of_head? _ hhead rfl (by decide) hi

namespace Kind

/-- The first character of the topics of a kind. -/
def mark : Kind → Char
  | service _ => '$'
  | input | c2d => 'd'

theorem head?_start {k : Kind} {start : String} (h : k.start? x = some start) : start.toList.head? = some k.mark := by
  have hdevice : (deviceStem x).toList.head? = some 'd' := by simp [deviceStem]
  cases k with
  | service s =>
    cases h
    cases s <;> decide
  | input =>
    obtain ⟨m, rfl⟩ := inputsStart_eq h
    rw [String.toList_append, List.head?_append, hdevice]
    rfl
  | c2d =>
    cases h
    rw [c2dStart_eq, String.toList_append, List.head?_append, hdevice]
    rfl

/-- At most one reader accepts a message. -/
theorem eq_of_accepts {k k' : Kind} (h : (k.read? x p).isSome) (h' : (k'.read? x p).isSome) : k = k' := by
  obtain ⟨start, hstart, hp⟩ := start_of_accepts h
  obtain ⟨start', hstart', hp'⟩ := start_of_accepts h'
  -- The topics of services and those of devices differ in their first character already.
  have hmark : k.mark = k'.mark := by
    by_contra hne
    exact apart_of_head? [] (head?_start hstart) (head?_start hstart') hne hp hp'
  cases k with
  | service s =>
    cases k' with
    | service s' =>
      cases hstart
      cases hstart'
      rcases List.prefix_or_prefix_of_prefix hp hp' with hs | hs
      · rw [Service.eq_of_prefix hs]
      · rw [Service.eq_of_prefix hs]
    | input | c2d => exact absurd hmark (by decide : '$' ≠ 'd')
  | input =>
    cases k' with
    | service s' => exact absurd hmark (by decide : 'd' ≠ '$')
    | input => rfl
    | c2d =>
      cases hstart'
      exact absurd hp' (input_apart_c2d hstart hp)
  | c2d =>
    cases k' with
    | service s' => exact absurd hmark (by decide : 'd' ≠ '$')
    | input =>
      cases hstart
      exact absurd hp (input_apart_c2d hstart' hp')
    | c2d => rfl

end Kind

/-! ## The order of the readers -/

/-- What a message is when the readers look at it in this order. -/
def Routed.readIn (order : List Kind) (x : Identity) (p : Publish) : Routed :=
  (order.findSome? fun k => k.read? x p).getD .ignored

theorem Routed.readIn_of_accepts {order : List Kind} {k : Kind} {routed : Routed} (hk : k ∈ order)
    (h : k.read? x p = some routed) : Routed.readIn order x p = routed := by
  obtain ⟨first, hfirst⟩ : ∃ first, order.findSome? (fun k => k.read? x p) = some first := by
    refine Option.isSome_iff_exists.mp (List.findSome?_isSome_iff.mpr ⟨k, hk, ?_⟩)
    rw [h]
    rfl
  obtain ⟨k', -, hk'⟩ := List.exists_of_findSome?_eq_some hfirst
  have hsame : k' = k := Kind.eq_of_accepts (Option.isSome_of_eq_some hk') (Option.isSome_of_eq_some h)
  rw [hsame, h] at hk'
  rw [Routed.readIn, hfirst, ← hk', Option.getD_some]

theorem Routed.readIn_of_none {order : List Kind} (h : ∀ k : Kind, k.read? x p = none) :
    Routed.readIn order x p = .ignored := by
  rw [Routed.readIn, List.findSome?_eq_none_iff.mpr fun k _ => h k, Option.getD_none]

theorem Routed.ofPublish_eq_readIn : Routed.ofPublish x p =
    Routed.readIn [.service .twinReply, .service .method, .service .desired, .input, .c2d] x p := by
  unfold Routed.ofPublish Routed.readIn
  repeat' split
  all_goals simp_all [Kind.read?]

/-- Readers that look in any order, and even more than once, come to the same. -/
theorem Routed.readIn_eq_ofPublish {order : List Kind} (h : ∀ k, k ∈ order) :
    Routed.readIn order x p = Routed.ofPublish x p := by
  by_cases hnone : ∀ k : Kind, k.read? x p = none
  · rw [Routed.ofPublish_eq_readIn, Routed.readIn_of_none hnone, Routed.readIn_of_none hnone]
  · obtain ⟨k, hk⟩ := not_forall.mp hnone
    obtain ⟨routed, hrouted⟩ := Option.ne_none_iff_exists'.mp hk
    rw [Routed.ofPublish_eq_readIn, Routed.readIn_of_accepts (h k) hrouted]
    refine (Routed.readIn_of_accepts ?_ hrouted).symm
    rcases k with s | - | -
    · cases s <;> simp
    · simp
    · simp

/-! ## What is done -/

/-- The only thing that is done about what was read. -/
inductive Effect (r : Router) (q : Queues) : Routed → Router × Queues → Prop
  /-- An answer is told to the one request that waits on its id. -/
  | resolved {before after : List (String × Nat)} {id : String} {n : Nat} (t : TwinReply) :
      r.pending = before ++ (id, n) :: after →
      Effect r q (.twinReply id t)
        ({ r with pending := before ++ after, letters := r.letters ++ [(n, .reply t)] }, q)
  /-- Nobody waits for an answer. -/
  | unwanted {id : String} (t : TwinReply) : (∀ n, (id, n) ∉ r.pending) → Effect r q (.twinReply id t) (r, q)
  | request (i : IncomingRequest) : Effect r q (.request i) (r, { q with requests := (q.requests.offer i).1 })
  | c2d (m : Message) : Effect r q (.c2d m) (r, { q with c2d := (q.c2d.offer m).1 })
  | ignored : Effect r q .ignored (r, q)

theorem effect_deliver (hi : (r.pending.map Prod.fst).Nodup) (routed : Routed) :
    Effect r q routed (routed.deliver r q) := by
  cases routed with
  | twinReply id t =>
    show Effect r q _ (r.resolve id t, q)
    unfold Router.resolve
    split
    · rename_i hnone
      exact .unwanted t (Router.waiting?_eq_none.mp hnone)
    · rename_i n hw
      obtain ⟨before, after, hpending, hrest⟩ := Router.pending_forget hi hw
      have htold : (r.forget id).tell n (.reply t) =
          { r with pending := before ++ after, letters := r.letters ++ [(n, .reply t)] } := by
        rw [← hrest]
        rfl
      rw [htold]
      exact .resolved t hpending
  | request i => exact .request i
  | c2d m => exact .c2d m
  | ignored => exact .ignored

theorem nodup_ids_register (hi : (r.pending.map Prod.fst).Nodup) :
    ((r.register id n).pending.map Prod.fst).Nodup := by
  have hadd : ∀ ids : List (String × Nat), (ids.map Prod.fst).Nodup → (∀ m, (id, m) ∉ ids) →
      ((ids ++ [(id, n)]).map Prod.fst).Nodup := by
    intro ids hids hnew
    rw [List.map_append, List.map_singleton]
    refine List.nodup_append.mpr ⟨hids, List.nodup_singleton id, ?_⟩
    intro id' hid' _ hsame he
    obtain ⟨⟨_, m⟩, hm, rfl⟩ := List.mem_map.mp hid'
    cases List.mem_singleton.mp hsame
    cases he
    exact hnew m hm
  unfold Router.register
  split
  · rename_i hnone
    exact hadd r.pending hi (Router.waiting?_eq_none.mp hnone)
  -- Whoever waited on the id before is forgotten first.
  · refine hadd (r.forget id).pending (hi.sublist (List.filter_sublist.map _)) fun m hm => ?_
    simpa using (List.mem_filter.mp hm).2

/-- No two requests wait on the same id, whatever is done to a router. -/
theorem nodup_ids_past (l : List Router.Step) : ((Router.past x q l).1.pending.map Prod.fst).Nodup := by
  induction l with
  | nil => exact .nil
  | cons s l ih =>
    cases s with
    | register id n => exact nodup_ids_register ih
    | route p =>
      show ((Mqtt.route x _ _ p).1.pending.map Prod.fst).Nodup
      cases ha : answer? p with
      | none => rwa [Router.router_of_other ha]
      | some a =>
        rw [Router.route_of_answer ha, Router.pending_resolve]
        exact ih.sublist (List.filter_sublist.map _)
    | forget id => exact ih.sublist (List.filter_sublist.map _)
    | close cause => exact .nil

/-- For every identity, every message that arrives, every router that has a past and whatever is in the queues: at most
one reader accepts the message, so that it is handed over in the same way in whatever order they look; and this tells
the answer to one request that waits for it, or offers one request or one message to its queue, or does nothing, and
leaves the rest as it was. -/
theorem route_unambiguous (x : Identity) (earlier : Queues) (l : List Router.Step) (q : Queues) (p : Publish) :
    (∀ k k' : Kind, (k.read? x p).isSome → (k'.read? x p).isSome → k = k') ∧
    (∀ order : List Kind, (∀ k, k ∈ order) →
      (Routed.readIn order x p).deliver (Router.past x earlier l).1 q = route x (Router.past x earlier l).1 q p) ∧
    Effect (Router.past x earlier l).1 q (Routed.ofPublish x p) (route x (Router.past x earlier l).1 q p) := by
  refine ⟨fun k k' => Kind.eq_of_accepts, fun order horder => ?_, effect_deliver (nodup_ids_past l) _⟩
  rw [Routed.readIn_eq_ofPublish horder]
  rfl

end HubDevice.Mqtt
