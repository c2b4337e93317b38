import HubDevice.Proofs.Mqtt.Reception
import HubDevice.Proofs.Topic.Weight

/-!
# How large telemetry is

A limit is set for packets, and what is compared with it before a message is sent is the payload. The packet of the
message holds the payload and more: its topic with the ids and with all properties in their written form, and the
lengths around them (`size_telemetry`). So what is accepted fits just when it leaves room for all this
(`telemetry_accepted`).
-/

namespace HubDevice

namespace Mqtt

/-! ## Lengths in groups of seven bits -/

theorem one_le_lengthOctets (n : Nat) : 1 ≤ lengthOctets n := by
  rw [lengthOctets]
  split <;> omega

theorem lengthOctets_le {n k : Nat} (h : n < 128 ^ (k + 1)) : lengthOctets n ≤ k + 1 := by
  induction k generalizing n with
  | zero =>
    have hsmall : n < 128 := h
    have hone : lengthOctets n = 1 := by rw [lengthOctets, if_pos hsmall]
    omega
  | succ k ih =>
    rw [lengthOctets]
    split
    · omega
    · have hdiv : n / 128 < 128 ^ (k + 1) := by
        rw [Nat.div_lt_iff_lt_mul (by decide), ← Nat.pow_succ]
        exact h
      have hrest := ih hdiv
      omega

/-! ## The packet of a message -/

/-- What is published for a message. -/
def telemetry (x : Identity) (m : Message) : Publish where
  topic := x.telemetryTopic m
  payload := m.payload
  qos := .atLeastOnce

/-- The octets of the topic of telemetry, of its length and of the packet id. -/
def headSize (x : Identity) (m : Message) : Nat := 2 + (x.weight + 17 + Topic.Bag.weight m) + 2

/-- What a packet has besides its payload. -/
def overhead (x : Identity) (m : Message) : Nat :=
  1 + lengthOctets (headSize x m + m.payload.length) + headSize x m

theorem remaining_telemetry (x : Identity) (m : Message) :
    (telemetry x m).remaining = headSize x m + m.payload.length := by
  rw [Publish.remaining, telemetry, Identity.utf8ByteSize_telemetryTopic, if_pos rfl, headSize]

theorem size_telemetry (x : Identity) (m : Message) : (telemetry x m).size = m.payload.length + overhead x m := by
  rw [Publish.size, remaining_telemetry, overhead]
  omega

/-- Even an empty id and no properties at all leave this much besides the payload. -/
theorem le_overhead (x : Identity) (m : Message) : 31 ≤ overhead x m := by
  have hlength := one_le_lengthOctets (headSize x m + m.payload.length)
  have hids : 8 ≤ x.weight := Nat.le_trans (Nat.le_add_right 8 _) (Nat.le_add_right _ _)
  unfold overhead headSize at *
  omega

/-- A packet fits when its payload leaves room for the topic and nine octets. -/
theorem size_le_of_room {x : Identity} {m : Message} {limit : Nat} (hlimit : limit ≤ 128 ^ 4)
    (h : m.payload.length + (x.weight + 17 + Topic.Bag.weight m) + 9 ≤ limit) : (telemetry x m).size ≤ limit := by
  have hoctets : lengthOctets (headSize x m + m.payload.length) ≤ 4 := lengthOctets_le (by unfold headSize; omega)
  rw [size_telemetry, overhead]
  unfold headSize at hoctets ⊢
  omega

/-! ## Sending it -/

theorem Phase.tooLarge?_telemetry (st : Station) (x : Identity) (m : Message) :
    tooLarge? st (.publish (telemetry x m)) =
      if st.maxPayload < m.payload.length then some (.messageTooLarge m.payload.length st.maxPayload) else none := by
  simp [tooLarge?, telemetry]

/-- What is let through is put at the end of the outbox of the session, unless its driver has ended. -/
theorem Phase.step_putting {cancelled : Bool} {n i : Nat} {st st' : Station} {s : Session} {o : Outgoing} {ph : Phase}
    (hs : st.session? i = some s) (h : (putting o).step cancelled n i st s = some (st', ph)) :
    (ph = .finished (.ok .done) ∧ st'.session? i = some { s with outbox := s.outbox ++ [o] }) ∨
      (ph = .finished (.error notAccepted) ∧ st'.session? i = some s ∧ s.driving = .ended) := by
  simp only [step, put] at h
  split at h
  · cases h
  · rename_i s' hput
    cases h
    split at hput
    · cases hput
    · split at hput <;> cases hput
      exact .inl ⟨rfl, List.getElem?_set_self (List.getElem?_eq_some_iff.mp hs).1⟩
  · rename_i e hput
    cases h
    split at hput
    · rename_i hended
      cases hput
      exact .inr ⟨rfl, hs, hended⟩
    · split at hput <;> cases hput

/-! ## What no step changes -/

/-- A station that is the same but for its sessions and for what it has counted and queued. -/
structure Station.Agrees (st st' : Station) : Prop where
  identity : st'.identity = st.identity
  setup : st'.setup = st.setup
  maxPayload : st'.maxPayload = st.maxPayload

theorem Station.Agrees.refl (st : Station) : st.Agrees st := ⟨rfl, rfl, rfl⟩

theorem Phase.agrees_step {cancelled : Bool} {n i : Nat} {st st' : Station} {s : Session} {ph ph' : Phase}
    (h : ph.step cancelled n i st s = some (st', ph')) : st.Agrees st' := by
  cases turn_of_step h <;> exact ⟨rfl, rfl, rfl⟩

theorem Setup.maxOutgoing_ofConfig {c : Config.Client} {setup : Setup} (h : Setup.ofConfig c = some setup) :
    setup.options.maxOutgoing = c.maxPacketSize := by
  simp only [ofConfig, Option.bind_eq_bind, Option.bind_eq_some_iff] at h
  obtain ⟨_, -, _, -, _, -, he⟩ := h
  cases he
  rfl

/-- What a station takes over from its settings. -/
structure Station.Follows (st : Station) (c : Config.Client) : Prop where
  identity : st.identity = ⟨c.deviceId, c.moduleId⟩
  maxOutgoing : st.setup.options.maxOutgoing = c.maxPacketSize
  maxPayload : st.maxPayload = c.maxPacketSize

theorem Station.follows_ofConfig {c : Config.Client} {source : Credential.Source} {st : Station}
    (h : Station.ofConfig c source = some st) : st.Follows c := by
  obtain ⟨setup, hsetup, he⟩ := Option.bind_eq_some_iff.mp h
  cases he
  exact ⟨rfl, Setup.maxOutgoing_ofConfig hsetup, rfl⟩

theorem Station.Agrees.follows {c : Config.Client} {st st' : Station} (h : st.Agrees st') (hc : st.Follows c) :
    st'.Follows c :=
  ⟨h.identity.trans hc.identity, by rw [h.setup, hc.maxOutgoing], h.maxPayload.trans hc.maxPayload⟩

end Mqtt

namespace Reception

open Mqtt

variable {r r' : Reception} {e : Happening}

theorem agrees_after (h : r.after e = some r') : r.station.Agrees r'.station := by
  cases e with
  | create fs token =>
    rcases create_eq_some h with rfl | rfl <;> exact ⟨rfl, rfl, rfl⟩
  | arrive i e =>
    obtain ⟨s, -, rfl⟩ := Option.map_eq_some_iff.mp h
    exact ⟨rfl, rfl, rfl⟩
  | drive i =>
    obtain ⟨st, hst, rfl⟩ := Option.map_eq_some_iff.mp h
    obtain ⟨s, s', q, -, -, rfl⟩ := Station.drive_eq_some hst
    exact ⟨rfl, rfl, rfl⟩
  | release i =>
    cases h
    unfold Station.drop
    split <;> exact ⟨rfl, rfl, rfl⟩
  | step n =>
    obtain ⟨c, s, st, ph, -, -, hph, rfl⟩ := stepCall_eq_some h
    obtain ⟨hidentity, hsetup, hlimit⟩ := Phase.agrees_step hph
    exact ⟨hidentity, hsetup, hlimit⟩
  | abandon n =>
    obtain ⟨turn, calls, rfl⟩ := abandon_eq_some h
    exact ⟨rfl, rfl, rfl⟩
  | device x =>
    rw [(moves_device h).2]
    exact .refl _
  | call | cancel | pass | hangUp | leave =>
    cases h
    exact ⟨rfl, rfl, rfl⟩

theorem follows_of_history {c : Config.Client} {st : Station} {d : Device} {l : List (Reception × Happening)}
    (hst : st.Follows c) (h : History after (start st d) l r) : r.station.Follows c :=
  h.keeps (P := fun r => r.station.Follows c) ⟨hst.identity, hst.maxOutgoing, hst.maxPayload⟩
    fun he => (agrees_after he).follows

/-- In every run, on every session that has not ended and for every message: the message is rejected just when its
payload is larger than the limit, and then nothing is sent. Otherwise its packet is put at the end of the outbox, unless
the driver has ended. The packet is larger than the payload by its overhead, and the connection is set up to send no
packet that is larger than the limit, so that what is accepted fits just when payload and overhead do. A payload that
leaves room for the topic and nine octets fits, and one that leaves room for less than 31 octets does not, whatever the
ids and the properties are. -/
theorem telemetry_accepted {c : Config.Client} {source : Credential.Source} {st : Station} {d : Device}
    {l : List (Reception × Happening)} {i : Nat} {s : Session} (hst : Station.ofConfig c source = some st)
    (h : History after (start st d) l r) (hs : r.station.session? i = some s) (hlive : s.router.isClosed = false)
    (m : Message) (id : String) (cancelled : Bool) (n : Nat) :
    (Phase.ofRequest r.station id (.data i (.send m))).step cancelled n i r.shared s = some (r.shared,
      if c.maxPacketSize < m.payload.length then
        .finished (.error (.messageTooLarge m.payload.length c.maxPacketSize))
      else .putting (.publish (telemetry ⟨c.deviceId, c.moduleId⟩ m))) ∧
    (∀ o st' ph, (Phase.putting o).step cancelled n i r.shared s = some (st', ph) →
      (ph = .finished (.ok .done) ∧ st'.session? i = some { s with outbox := s.outbox ++ [o] }) ∨
        (ph = .finished (.error Phase.notAccepted) ∧ st'.session? i = some s ∧ s.driving = .ended)) ∧
    (telemetry ⟨c.deviceId, c.moduleId⟩ m).size = m.payload.length + overhead ⟨c.deviceId, c.moduleId⟩ m ∧
    r.station.setup.options.maxOutgoing = c.maxPacketSize ∧
    ((telemetry ⟨c.deviceId, c.moduleId⟩ m).size ≤ r.station.setup.options.maxOutgoing ↔
      m.payload.length + overhead ⟨c.deviceId, c.moduleId⟩ m ≤ c.maxPacketSize) ∧
    (c.maxPacketSize < m.payload.length + 31 →
      r.station.setup.options.maxOutgoing < (telemetry ⟨c.deviceId, c.moduleId⟩ m).size) ∧
    (c.maxPacketSize ≤ 128 ^ 4 → m.payload.length + (telemetry ⟨c.deviceId, c.moduleId⟩ m).topic.utf8ByteSize + 9 ≤
      c.maxPacketSize → (telemetry ⟨c.deviceId, c.moduleId⟩ m).size ≤ r.station.setup.options.maxOutgoing) := by
  obtain ⟨hidentity, hmax, hlimit⟩ := follows_of_history (Station.follows_ofConfig hst) h
  have hsize := size_telemetry ⟨c.deviceId, c.moduleId⟩ m
  refine ⟨?_, fun o st' ph => Phase.step_putting hs, hsize, hmax, by rw [hmax, hsize], fun hclose => ?_,
    fun hfour hroom => ?_⟩
  · have hphase : Phase.ofRequest r.station id (.data i (.send m)) =
        .sending (.publish (telemetry ⟨c.deviceId, c.moduleId⟩ m)) := by
      rw [← hidentity]
      rfl
    have hlarge := Phase.tooLarge?_telemetry r.shared ⟨c.deviceId, c.moduleId⟩ m
    have hshared : r.shared.maxPayload = c.maxPacketSize := hlimit
    rw [hshared] at hlarge
    rw [hphase, Phase.step, hlive, hlarge]
    by_cases hover : c.maxPacketSize < m.payload.length
    · simp [hover]
    · simp [hover]
  · have hover := le_overhead ⟨c.deviceId, c.moduleId⟩ m
    omega
  · rw [hmax]
    rw [telemetry, Identity.utf8ByteSize_telemetryTopic] at hroom
    exact size_le_of_room hfour hroom

/-- The least limit that settings can have. -/
def narrow : Config.Client := { settings with maxPacketSize := 64 }

/-- A message whose payload is as large as this limit. -/
def brimful : Message := { payload := List.replicate 64 120 }

theorem overhead_brimful : overhead ⟨"dev-1", none⟩ brimful = 36 := by
  have hhead : headSize ⟨"dev-1", none⟩ brimful = 34 := rfl
  rw [overhead, hhead]
  simp [brimful, lengthOctets]

theorem telemetry_accepted_brimful : ∃ st l r s, Station.ofConfig narrow (.fixed "t") = some st ∧
    History after (start st {}) l r ∧ r.station.session? 0 = some s ∧ s.router.isClosed = false ∧
    (Phase.ofRequest r.station "" (.data 0 (.send brimful))).step false 0 0 r.shared s =
      some (r.shared, .putting (.publish (telemetry ⟨"dev-1", none⟩ brimful))) ∧
    (telemetry ⟨"dev-1", none⟩ brimful).size = 100 := by
  obtain ⟨st, l, r, s, hst, hrun, hs, hlive⟩ : ∃ st l r s, Station.ofConfig narrow (.fixed "t") = some st ∧
      replay after (start st {}) [.create ∅ (.ok { value := "" })] = some (l, r) ∧
      r.station.session? 0 = some s ∧ s.router.isClosed = false :=
    ⟨_, _, _, _, rfl, rfl, rfl, rfl⟩
  have hrun := History.of_replay hrun
  obtain ⟨hstep, -, hsize, -⟩ := telemetry_accepted hst hrun hs hlive brimful "" false 0
  rw [if_neg (by decide)] at hstep
  have hoverhead : overhead ⟨narrow.deviceId, narrow.moduleId⟩ brimful = 36 := overhead_brimful
  rw [hoverhead] at hsize
  exact ⟨st, l, r, s, hst, hrun, hs, hlive, hstep, hsize⟩

/-- A message that was accepted, and its packet is in the outbox, but the connection sends no packets of its size. -/
theorem accepted_beyond_limit : ∃ st l r packet, Station.ofConfig narrow (.fixed "t") = some st ∧
    replay after (start st {}) [.create ∅ (.ok { value := "" }), .call 0 "" (.data 0 (.send brimful)),
      .step 0, .step 0] = some (l, r) ∧
    (r.calls.map fun c => c.map Call.phase) = [some (.finished (.ok .done))] ∧
    (r.station.sessions.map Session.outbox) = [[.publish packet]] ∧
    r.station.setup.options.maxOutgoing = 64 ∧ packet.size = 100 := by
  have hsize : (telemetry ⟨"dev-1", none⟩ brimful).size = 100 := by
    rw [size_telemetry, overhead_brimful]
    rfl
  exact ⟨_, _, _, telemetry ⟨"dev-1", none⟩ brimful, rfl, rfl, rfl, rfl, rfl, hsize⟩

end Reception

end HubDevice
