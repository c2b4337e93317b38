import HubDevice.Codec
import HubDevice.Proofs.Compress.RoundTrip
import HubDevice.Proofs.Topic.Bag
import Mathlib.Tactic.Common

/-!
# Payloads on their way through a topic

A receiver only has the payload and the bag of a message, and settings of its own. The content type names the format
and the content encoding the compressor, if there is one, so the settings of the receiver do not matter
(`described_of_headers`), and what the sender wrote is what the receiver reads (`decode_apply_of_encode`). Of the
compressors nothing is known but that they are undone (`Undone`). That a payload was compressed does not show in its
octets; it means that they are what the compressor makes of what was written, whichever it is (`CompressedBy`).
-/

namespace HubDevice

theorem Format.ofContentType?_contentType (f : Format) : ofContentType? f.contentType = some f := by
  cases f <;> decide

namespace Codec

/-- The compressor that a message names. -/
def named? (m : Message) : Option Compression := m.contentEncoding.bind Compression.ofContentEncoding?

/-- The compressor that is applied to a written payload of this size, if there is one. -/
def applied? (p : Config.Payload) (size : Nat) : Option Compression :=
  if p.shouldCompress size then some p.compression else none

theorem compression_ne_none {p : Config.Payload} {size : Nat} (h : p.shouldCompress size = true) :
    p.compression ≠ .none := by
  simp only [Config.Payload.shouldCompress, Bool.and_eq_true, decide_eq_true_eq] at h
  exact h.1

/-- The content encoding of a written payload of this size. -/
def encoding? (p : Config.Payload) (size : Nat) : Option String :=
  if p.shouldCompress size then p.compression.contentEncoding?
  else if p.format = .json then some "utf-8" else none

/-- Nothing else than a compressor has the name of one; text in JSON has another encoding. -/
theorem ofContentEncoding?_encoding? (p : Config.Payload) (size : Nat) :
    (encoding? p size).bind Compression.ofContentEncoding? = applied? p size := by
  unfold encoding? applied?
  split
  · rename_i h
    have hne := compression_ne_none h
    cases hc : p.compression with
    | none => exact absurd hc hne
    | gzip => decide
    | zstd => decide
  · cases p.format <;> decide

/-! ## What is written -/

section Written

variable [Compressors] {p : Config.Payload} {body : Octets} {m : Message}

/-- What a message carries is what its compressor makes of the written payload. -/
theorem payload_wrap (p : Config.Payload) (body : Octets) :
    (wrap p body).map Message.payload = compress ((applied? p body.length).getD .none) body := by
  unfold wrap applied?
  split
  · simp only [Option.getD_some]
    cases compress p.compression body <;> rfl
  · rfl

/-- Its headers say the format and the compressor, and it has no other fields. -/
theorem wrap_eq_ok (h : wrap p body = .ok m) :
    m = { payload := m.payload
          contentType := some p.format.contentType
          contentEncoding := encoding? p body.length } := by
  unfold wrap at h
  unfold encoding?
  split at h
  · rename_i hlarge
    rw [if_pos hlarge]
    cases hc : compress p.compression body with
    | error e =>
      rw [hc] at h
      cases h
    | ok out =>
      rw [hc] at h
      cases h
      rfl
  · rename_i hsmall
    rw [if_neg hsmall]
    cases h
    rfl

theorem named?_of_wrap (h : wrap p body = .ok m) : named? m = applied? p body.length := by
  rw [named?, wrap_eq_ok h]
  exact ofContentEncoding?_encoding? p body.length

theorem encode_eq_ok {d : Datum} (h : encode p d = .ok m) :
    ∃ body, p.format.serialize d = .ok body ∧ wrap p body = .ok m := by
  cases hs : p.format.serialize d with
  | error e =>
    rw [encode, hs] at h
    cases h
  | ok body =>
    rw [encode, hs] at h
    exact ⟨body, rfl, h⟩

end Written

/-! ## Which compressor it was -/

/-- The payload of what is encoded is what a compressor makes of the written datum, whatever it makes of it. -/
def CompressedBy (p : Config.Payload) (d : Datum) (c : Compression) : Prop :=
  ∀ [Compressors], (encode p d).map Message.payload = (p.format.serialize d).bind (compress c)

/-- Compressors that only mark what they were given. -/
abbrev marking : Compressors where
  gzip bs := .ok (0 :: bs)
  zstd bs := .ok (1 :: bs)

/-- A mark says by which compressor it was set. -/
theorem compress_marking_injective {c c' : Compression} {bs : Octets}
    (h : @compress marking c bs = @compress marking c' bs) : c = c' := by
  have hlonger : ∀ b : UInt8, b :: bs ≠ bs := fun b he => by simpa using congrArg List.length he
  cases c <;> cases c'
  case none.none | gzip.gzip | zstd.zstd => rfl
  case gzip.none | zstd.none => exact absurd (Except.ok.inj h) (hlonger _)
  case none.gzip | none.zstd => exact absurd (Except.ok.inj h).symm (hlonger _)
  case gzip.zstd | zstd.gzip => exact absurd (List.cons.inj (Except.ok.inj h)).1 (by decide)

theorem applied?_eq_some {p : Config.Payload} {d : Datum} {body : Octets} (hbody : p.format.serialize d = .ok body)
    {c : Compression} (hc : c ≠ .none) : applied? p body.length = some c ↔ CompressedBy p d c := by
  have hencode : ∀ [Compressors], (encode p d).map Message.payload =
      compress ((applied? p body.length).getD .none) body := by
    intro _
    rw [encode, hbody, ← payload_wrap]
    rfl
  constructor
  · intro h _
    rw [hencode, hbody, h]
    rfl
  · intro h
    have hmarked := @h marking
    rw [@hencode marking, hbody] at hmarked
    have heq : (applied? p body.length).getD .none = c := compress_marking_injective hmarked
    cases happlied : applied? p body.length with
    | none =>
      rw [happlied] at heq
      exact absurd heq.symm hc
    | some c' =>
      rw [happlied] at heq
      exact congrArg some heq

/-! ## What is read -/

/-- What the compressors make of octets expands to them again. -/
def Undone [Compressors] (c : Compression) : Prop :=
  ∀ bs out, compress c bs = .ok out → c.decompress out = .ok bs

/-- What a message says with the headers of a written payload does not depend on who reads it. -/
theorem described_of_headers {p : Config.Payload} {size : Nat} {m : Message} (q : Config.Payload)
    (htype : m.contentType = some p.format.contentType) (hencoding : m.contentEncoding = encoding? p size) :
    described q m = .ok (p.format, (applied? p size).getD .none) := by
  rw [described, hencoding, ofContentEncoding?_encoding?, htype]
  dsimp only
  rw [Format.ofContentType?_contentType]

section

variable [Compressors] {α : Type} {write : α → Datum} {read : Datum → Option α} {v : α} {p : Config.Payload}
  {m : Message} {properties : Properties}

theorem decompress_of_wrap {body : Octets} (hundone : Undone p.compression) (h : wrap p body = .ok m) :
    ((applied? p body.length).getD .none).decompress m.payload = .ok body := by
  have hpayload : compress ((applied? p body.length).getD .none) body = .ok m.payload := by
    rw [← payload_wrap, h]
    rfl
  unfold applied? at hpayload ⊢
  split at hpayload
  · rename_i hlarge
    rw [if_pos hlarge]
    exact hundone body m.payload hpayload
  · rename_i hsmall
    rw [if_neg hsmall]
    cases hpayload
    rfl

/-- A value that is sent with any settings is read with any others, after the payload and the bag of its message are
all that is left. The hypotheses are that the format of the sender reads its own writing, and that what its compressor
makes of octets expands to them again. The message names a compressor just when its payload comes from it. -/
theorem decode_apply_of_encode (hreads : ∀ body, p.format.serialize (write v) = .ok body →
      p.format.deserialize read body = .ok v)
    (hundone : Undone p.compression) (hencode : encode p (write v) = .ok m)
    (hunmarked : ∀ e ∈ properties, Topic.Bag.Unmarked e) (q : Config.Payload)
    (x : Identity) (messageId correlationId : Option String) :
    (∃ bag, Text.after? (x.base ++ "/messages/events/").toList
        (x.telemetryTopic { m with messageId, correlationId, properties }).toList = some bag ∧
      decode q read (Topic.Bag.apply { payload := m.payload } bag) = .ok v) ∧
    (∃ body, p.format.serialize (write v) = .ok body ∧
      (if p.shouldCompress body.length then compress p.compression body else .ok body) = .ok m.payload) ∧
    ∀ c, c ≠ Compression.none → (named? m = some c ↔ CompressedBy p (write v) c) := by
  obtain ⟨body, hbody, hwrap⟩ := encode_eq_ok hencode
  refine ⟨⟨_, x.after?_telemetryTopic _, ?_⟩, ⟨body, hbody, ?_⟩, fun c hc => ?_⟩
  · obtain ⟨properties', happly⟩ :=
      Topic.Bag.apply_encode (m := { m with messageId, correlationId, properties }) hunmarked m.payload
    let received : Message :=
      { m with messageId, correlationId, properties := properties', lockToken := none, inputName := none }
    have hfields := wrap_eq_ok hwrap
    have hunwrap : unwrap q received = .ok (p.format, body) := by
      rw [unwrap, described_of_headers (m := received) q (congrArg Message.contentType hfields)
        (congrArg Message.contentEncoding hfields)]
      show Except.bind (Compression.decompress _ m.payload) _ = _
      rw [decompress_of_wrap hundone hwrap]
      rfl
    rw [happly]
    show Except.bind (unwrap q _) _ = _
    rw [hunwrap]
    exact hreads body hbody
  · have hpayload := payload_wrap p body
    rw [hwrap] at hpayload
    rw [show Except.ok m.payload = (Except.ok m).map Message.payload from rfl, hpayload]
    unfold applied?
    split <;> rfl
  · rw [named?_of_wrap hwrap]
    exact applied?_eq_some hbody hc

end

/-- Compressors that store, except for one text, which is coded with the fixed codes of the format. -/
abbrev sample : Compressors where
  gzip bs := .ok (if bs = [0xa2, 111, 110] then
      [0x1f, 0x8b, 8, 0, 0, 0, 0, 0, 0, 0xff, 91, 148, 159, 7, 0, 0x2b, 0x6b, 0xd2, 0x6d, 3, 0, 0, 0]
    else Gzip.store bs)
  zstd bs := .ok (Zstd.store bs)

theorem undone_sample (c : Compression) : @Undone sample c := by
  intro bs out h
  cases c with
  | none =>
    cases Except.ok.inj h
    rfl
  | gzip =>
    cases Except.ok.inj h
    split
    · rename_i hbs
      subst hbs
      decide +kernel
    · simp [Compression.decompress, Gzip.decompress?_store]
  | zstd =>
    cases Except.ok.inj h
    simp [Compression.decompress, Zstd.decompress?_store]

/-- A text that its sender compresses, for a receiver that would write plain JSON. -/
theorem decode_apply_of_encode_gzip :
    let p : Config.Payload := { format := .messagePack, compression := .gzip, threshold := 3 }
    let x : Identity := ⟨"dev-1", none⟩
    let properties := [("room", "a&b")]
    ∃ m, @encode sample p (.text "on") = .ok m ∧ @Undone sample p.compression ∧
      (∀ e ∈ properties, Topic.Bag.Unmarked e) ∧
      (∃ bag, Text.after? (x.base ++ "/messages/events/").toList
          (x.telemetryTopic { m with messageId := some "m=1", correlationId := none, properties }).toList = some bag ∧
        decode {} Datum.text? (Topic.Bag.apply { payload := m.payload } bag) = .ok "on") ∧
      named? m = some .gzip ∧ CompressedBy p (.text "on") .gzip := by
  intro p x properties
  have hbody : p.format.serialize (.text "on") = .ok [0xa2, 111, 110] := rfl
  have hreads : ∀ body, p.format.serialize (.text "on") = .ok body → p.format.deserialize Datum.text? body = .ok "on" := by
    intro body h
    rw [hbody] at h
    cases h
    rfl
  have hunmarked : ∀ e ∈ properties, Topic.Bag.Unmarked e := by
    simp [properties, Topic.Bag.Unmarked]
  obtain ⟨m, hencode, hnamed⟩ : ∃ m, @encode sample p (.text "on") = .ok m ∧ named? m = some .gzip := ⟨_, rfl, rfl⟩
  obtain ⟨hread, -, hcompressed⟩ :=
    @decode_apply_of_encode sample _ Datum.text Datum.text? "on" p m properties hreads (undone_sample _) hencode hunmarked
      {} x (some "m=1") none
  exact ⟨m, hencode, undone_sample _, hunmarked, hread, hnamed, (hcompressed .gzip (by decide)).mp hnamed⟩

end Codec

end HubDevice
