import HubDevice.Proofs.Topic.Weight
import Mathlib.Data.List.Forall2

/-!
# The structure of telemetry topics

Whatever a message says, its bag is made of unreserved characters and of the three marks that the bag itself is written
with (`Topic.Bag.mem_encode`). So the bag is the last level of the topic, below levels that only the identity decides
(`Identity.levels_telemetryTopic`), and it falls into one part for each pair of the message, in their order
(`Topic.Bag.spelled_encode`).
-/

namespace HubDevice

namespace Text.Percent

/-- A letter or digit of ASCII, or one of the four marks that always stand for themselves. -/
def Unreserved (c : Char) : Prop := c.isAlphanum = true ∨ c = '-' ∨ c = '.' ∨ c = '_' ∨ c = '~'

instance : DecidablePred Unreserved := fun c =>
  inferInstanceAs (Decidable (c.isAlphanum = true ∨ c = '-' ∨ c = '.' ∨ c = '_' ∨ c = '~'))

theorem unreserved_ofNat : ∀ n < 128, isUnreserved (UInt8.ofNat n) = true → Unreserved (Char.ofNat n) := by
  decide +kernel

theorem unreserved_of_mem_encode {s : String} {c : Char} (h : c ∈ encode s) : Unreserved c ∨ c = '%' := by
  obtain ⟨hlt, hc⟩ := mem_encode h
  rcases hc with hc | hc
  · exact .inr hc
  · left
    rw [← Char.ofNat_toNat c]
    exact unreserved_ofNat c.toNat hlt hc

end Text.Percent

open Text.Percent (Unreserved)

namespace Topic.Bag

/-- A part of a bag that spells a pair: a key and a value with one equals sign between them, which read back as the name
and the value of the pair. -/
def Spells (part : List Char) (p : String × String) : Prop :=
  ∃ key value, part = key ++ '=' :: value ∧ '=' ∉ key ∧ '=' ∉ value ∧
    Text.Percent.decode? key = some p.1 ∧ Text.Percent.decode? value = some p.2

theorem spells_writePair (p : String × String) : Spells (writePair p) p :=
  ⟨_, _, rfl, notMem_encode (.inr rfl) p.1, notMem_encode (.inr rfl) p.2, Text.Percent.decode?_encode p.1,
    Text.Percent.decode?_encode p.2⟩

theorem mem_writePair {p : String × String} {c : Char} (h : c ∈ writePair p) : Unreserved c ∨ c = '%' ∨ c = '=' := by
  rcases List.mem_append.mp h with hkey | h
  · exact (Text.Percent.unreserved_of_mem_encode hkey).imp_right .inl
  · rcases List.mem_cons.mp h with hmark | hvalue
    · exact .inr (.inr hmark)
    · exact (Text.Percent.unreserved_of_mem_encode hvalue).imp_right .inl

/-- A bag has only unreserved characters, percent signs, ampersands and equals signs. -/
theorem mem_encode {m : Message} {c : Char} (h : c ∈ (encode m).toList) :
    Unreserved c ∨ c = '%' ∨ c = '&' ∨ c = '=' := by
  rw [encode, String.toList_ofList] at h
  rcases mem_join h with hmark | ⟨part, hpart, hc⟩
  · exact .inr (.inr (.inl hmark))
  · obtain ⟨p, -, rfl⟩ := List.mem_map.mp hpart
    rcases mem_writePair hc with hu | hc | hc
    · exact .inl hu
    · exact .inr (.inl hc)
    · exact .inr (.inr (.inr hc))

/-- What a bag is made of is visible, and none of it separates levels or stands for several topics. -/
theorem harmless_of_mem {m : Message} {c : Char} (h : c ∈ (encode m).toList) :
    c ≠ '/' ∧ c ≠ '+' ∧ c ≠ '#' ∧ 32 < c.toNat ∧ c.toNat < 127 := by
  have hvisible : ∀ n < 128, Unreserved (Char.ofNat n) ∨ Char.ofNat n = '%' ∨ Char.ofNat n = '&' ∨
      Char.ofNat n = '=' → n ≠ 47 ∧ n ≠ 43 ∧ n ≠ 35 ∧ 32 < n ∧ n < 127 := by
    decide +kernel
  have hlt : c.toNat < 128 := by
    rw [encode, String.toList_ofList] at h
    exact toNat_lt_of_mem_encode h
  obtain ⟨hslash, hplus, hhash, hleast, hmost⟩ := hvisible c.toNat hlt (by
    rw [Char.ofNat_toNat]
    exact mem_encode h)
  refine ⟨?_, ?_, ?_, hleast, hmost⟩
  · rintro rfl
    exact hslash rfl
  · rintro rfl
    exact hplus rfl
  · rintro rfl
    exact hhash rfl

/-- The pairs of a message: its ids and headers that are set, and then its properties. -/
theorem pairs_eq (m : Message) : pairs m =
    (m.messageId.map ("$.mid", ·)).toList ++ (m.correlationId.map ("$.cid", ·)).toList ++
      (m.contentType.map ("$.ct", ·)).toList ++ (m.contentEncoding.map ("$.ce", ·)).toList ++ m.properties := by
  unfold pairs systemFields
  cases m.messageId <;> cases m.correlationId <;> cases m.contentType <;> cases m.contentEncoding <;> rfl

theorem encode_of_pairs {m : Message} (h : pairs m = []) : encode m = "" := by
  rw [encode, h]
  rfl

/-- A bag that has pairs falls into one part for each, in their order. -/
theorem spelled_encode {m : Message} (h : pairs m ≠ []) :
    List.Forall₂ Spells (Text.parts '&' (encode m).toList) (pairs m) := by
  rw [parts_encode, if_neg h, List.forall₂_map_left_iff]
  exact List.forall₂_same.mpr fun p _ => spells_writePair p

end Topic.Bag

/-- The bag is the last level of a topic, and all levels above it are those of the identity. -/
theorem Identity.levels_telemetryTopic (x : Identity) (m : Message) :
    Text.parts '/' (x.telemetryTopic m).toList =
      Text.parts '/' (x.base ++ "/messages/events").toList ++ [(Topic.Bag.encode m).toList] := by
  have htopic : (x.telemetryTopic m).toList =
      (x.base ++ "/messages/events").toList ++ '/' :: (Topic.Bag.encode m).toList := by
    simp [telemetryTopic]
  have hbag : '/' ∉ (Topic.Bag.encode m).toList := fun hm => (Topic.Bag.harmless_of_mem hm).1 rfl
  rw [htopic, Text.parts_append_parts, Text.parts_of_notMem hbag]

/-- For every identity and every message: the topic is the base of the identity, the fixed levels and a bag. The bag has
only unreserved characters and its own three marks, so no separator of levels, no wildcard and nothing invisible, and the
topic has as many levels as that of the empty message. The bag is empty if no id, no header and no property is set.
Otherwise its parts between ampersands are one key and value, with exactly one equals sign, for each of those that are
set: the message id, the correlation id, the content type, the content encoding, and the properties. -/
theorem Identity.telemetry_structured (x : Identity) (m : Message) :
    ∃ bag pairs, x.telemetryTopic m = x.base ++ "/messages/events/" ++ bag ∧
      (∀ c ∈ bag.toList, Unreserved c ∨ c = '%' ∨ c = '&' ∨ c = '=') ∧
      (∀ c ∈ bag.toList, c ≠ '/' ∧ c ≠ '+' ∧ c ≠ '#' ∧ 32 < c.toNat ∧ c.toNat < 127) ∧
      (Text.parts '/' (x.telemetryTopic m).toList).length = (Text.parts '/' (x.telemetryTopic {}).toList).length ∧
      pairs = (m.messageId.map ("$.mid", ·)).toList ++ (m.correlationId.map ("$.cid", ·)).toList ++
        (m.contentType.map ("$.ct", ·)).toList ++ (m.contentEncoding.map ("$.ce", ·)).toList ++ m.properties ∧
      (pairs = [] → bag = "") ∧
      (pairs ≠ [] → List.Forall₂ Topic.Bag.Spells (Text.parts '&' bag.toList) pairs) := by
  refine ⟨Topic.Bag.encode m, Topic.Bag.pairs m, rfl, fun c => Topic.Bag.mem_encode,
    fun c => Topic.Bag.harmless_of_mem, ?_, Topic.Bag.pairs_eq m, Topic.Bag.encode_of_pairs,
    Topic.Bag.spelled_encode⟩
  rw [levels_telemetryTopic, levels_telemetryTopic, List.length_append, List.length_append, List.length_singleton,
    List.length_singleton]

end HubDevice
