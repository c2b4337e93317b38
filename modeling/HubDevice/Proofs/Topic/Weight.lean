import HubDevice.Proofs.Topic.Bag
import Mathlib.Algebra.GroupWithZero.Nat

/-!
# How long topics are

The topic of telemetry has the ids as they are, and names and values of properties in their written form, in which an
octet is one or three. So its length can be told from the message (`utf8ByteSize_telemetryTopic`).
-/

namespace HubDevice

/-- A text of the first characters has one octet for each of them. -/
theorem Octets.utf8ByteSize_ofList {cs : List Char} (h : ∀ c ∈ cs, c.toNat < 128) :
    (String.ofList cs).utf8ByteSize = cs.length := by
  have hlength : (String.ofList cs).utf8ByteSize = (Octets.ofText (String.ofList cs)).length := rfl
  rw [hlength, Octets.ofText_ofList h, List.length_map]

namespace Text.Percent

/-- How many octets the written form of a text has. -/
def weight (s : String) : Nat := ((Octets.ofText s).map fun b => if isUnreserved b then 1 else 3).sum

theorem length_encode (s : String) : (encode s).length = weight s := by
  have hoctet : ∀ b : UInt8, (encodeOctet b).length = if isUnreserved b then 1 else 3 := by
    intro b
    unfold encodeOctet
    split <;> rfl
  rw [encode, weight, List.length_flatMap]
  simp only [hoctet]

end Text.Percent

namespace Topic.Bag

/-- How many octets the pairs of a message have in their written form, with the marks in them and between them. -/
def weight (m : Message) : Nat :=
  ((pairs m).map fun p => Text.Percent.weight p.1 + 1 + Text.Percent.weight p.2).sum + ((pairs m).length - 1)

theorem length_join (ps : List (List Char)) : (join ps).length = (ps.map List.length).sum + (ps.length - 1) := by
  fun_induction join ps with
  | case1 => rfl
  | case2 p => simp
  | case3 p rest hrest ih =>
    have hpos : 0 < rest.length := List.length_pos_iff.mpr hrest
    simp only [List.length_append, List.length_cons, ih, List.map_cons, List.sum_cons]
    omega

theorem mem_join {ps : List (List Char)} {c : Char} (h : c ∈ join ps) : c = '&' ∨ ∃ p ∈ ps, c ∈ p := by
  fun_induction join ps with
  | case1 => cases h
  | case2 p => exact .inr ⟨p, List.mem_cons_self, h⟩
  | case3 p rest hrest ih =>
    rcases List.mem_append.mp h with hp | h
    · exact .inr ⟨p, List.mem_cons_self, hp⟩
    · rcases List.mem_cons.mp h with hmark | h
      · exact .inl hmark
      · rcases ih h with hmark | ⟨q, hq, hc⟩
        · exact .inl hmark
        · exact .inr ⟨q, List.mem_cons_of_mem p hq, hc⟩

theorem toNat_lt_of_mem_encode {m : Message} {c : Char} (h : c ∈ join ((pairs m).map writePair)) : c.toNat < 128 := by
  rcases mem_join h with rfl | ⟨_, hpart, hc⟩
  · decide
  · obtain ⟨p, -, rfl⟩ := List.mem_map.mp hpart
    rcases List.mem_append.mp hc with hk | hc
    · exact (Text.Percent.mem_encode hk).1
    · rcases List.mem_cons.mp hc with rfl | hv
      · decide
      · exact (Text.Percent.mem_encode hv).1

theorem utf8ByteSize_encode (m : Message) : (encode m).utf8ByteSize = weight m := by
  have hpair : ∀ p : String × String,
      (writePair p).length = Text.Percent.weight p.1 + 1 + Text.Percent.weight p.2 := by
    intro p
    rw [writePair, List.length_append, List.length_cons, Text.Percent.length_encode, Text.Percent.length_encode]
    omega
  rw [encode, Octets.utf8ByteSize_ofList fun c => toNat_lt_of_mem_encode, length_join, List.map_map, List.length_map]
  simp only [Function.comp_def, hpair, weight]

end Topic.Bag

/-- How many octets the ids of an identity take in its topics. -/
def Identity.weight (x : Identity) : Nat :=
  8 + x.deviceId.utf8ByteSize + match x.moduleId with
    | some m => 9 + m.utf8ByteSize
    | none => 0

theorem Identity.utf8ByteSize_base (x : Identity) : x.base.utf8ByteSize = x.weight := by
  have hdevices : "devices/".utf8ByteSize = 8 := rfl
  have hmodules : "/modules/".utf8ByteSize = 9 := rfl
  unfold base weight
  cases x.moduleId with
  | none =>
    dsimp only
    rw [String.utf8ByteSize_append, hdevices]
    omega
  | some m =>
    dsimp only
    rw [String.utf8ByteSize_append, String.utf8ByteSize_append, String.utf8ByteSize_append, hdevices, hmodules]
    omega

theorem Identity.utf8ByteSize_telemetryTopic (x : Identity) (m : Message) :
    (x.telemetryTopic m).utf8ByteSize = x.weight + 17 + Topic.Bag.weight m := by
  rw [telemetryTopic, String.utf8ByteSize_append, String.utf8ByteSize_append, utf8ByteSize_base,
    Topic.Bag.utf8ByteSize_encode]
  rfl

end HubDevice
