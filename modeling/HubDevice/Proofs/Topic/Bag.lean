import HubDevice.Proofs.Text.Percent
import HubDevice.Proofs.Text.Split
import HubDevice.Topic.Name
import Mathlib.Tactic.Common

/-!
# Reading bags

A bag reads back as the pairs that were written (`read_encode`), because neither a name nor a value has an ampersand or
an equals sign in its written form. Of the pairs of a message only those under a marked name touch its fields, so a bag
without marked properties gives back the fields that the message had (`apply_encode`).
-/

namespace HubDevice

namespace Topic.Bag

/-- Cutting at the ampersands undoes joining, except that no part at all reads as an empty one. -/
theorem parts_join {ps : List (List Char)} (h : ∀ p ∈ ps, '&' ∉ p) :
    Text.parts '&' (join ps) = if ps = [] then [[]] else ps := by
  induction ps with
  | nil => rfl
  | cons p ps ih =>
    have hp := h p List.mem_cons_self
    rw [if_neg (List.cons_ne_nil p ps)]
    cases ps with
    | nil => exact Text.parts_of_notMem hp
    | cons p' ps =>
      rw [join, Text.parts_append hp, ih fun q hq => h q (List.mem_cons_of_mem p hq),
        if_neg (List.cons_ne_nil p' ps)]
      exact List.cons_ne_nil p' ps

/-- A character with a meaning in a bag is not in a written name or value. -/
theorem notMem_encode {c : Char} (h : c = '&' ∨ c = '=') (s : String) : c ∉ Text.Percent.encode s := by
  intro hm
  obtain ⟨-, hc⟩ := Text.Percent.mem_encode hm
  rcases h with rfl | rfl <;> revert hc <;> decide

theorem notMem_writePair (p : String × String) : '&' ∉ writePair p := by
  intro hm
  rcases List.mem_append.mp hm with hk | hv
  · exact notMem_encode (.inl rfl) p.1 hk
  · rcases List.mem_cons.mp hv with he | hv
    · revert he
      decide
    · exact notMem_encode (.inl rfl) p.2 hv

theorem readPair?_writePair (p : String × String) : readPair? (writePair p) = some p := by
  have hcut : Text.cut? ['='] (writePair p) = some (Text.Percent.encode p.1, Text.Percent.encode p.2) :=
    Text.cut?_of_notMem (notMem_encode (.inr rfl) p.1)
  simp [readPair?, hcut, Text.Percent.decode?_encode]

theorem writePair_ne_nil (p : String × String) : writePair p ≠ [] := by
  intro h
  exact List.cons_ne_nil _ _ (List.append_eq_nil_iff.mp h).2

/-- The parts of a bag are the pairs of the message in their written form; the bag of a message without pairs has one
empty part. -/
theorem parts_encode (m : Message) :
    Text.parts '&' (encode m).toList = if pairs m = [] then [[]] else (pairs m).map writePair := by
  have hparts : ∀ part ∈ (pairs m).map writePair, '&' ∉ part := by
    intro part hp
    obtain ⟨p, -, rfl⟩ := List.mem_map.mp hp
    exact notMem_writePair p
  rw [encode, String.toList_ofList, parts_join hparts]
  simp only [List.map_eq_nil_iff]

theorem read_encode (m : Message) : read (encode m).toList = pairs m := by
  have hfilter : (Text.parts '&' (encode m).toList).filter (!·.isEmpty) = (pairs m).map writePair := by
    rw [parts_encode]
    split
    · rename_i hnil
      rw [hnil]
      rfl
    · refine List.filter_eq_self.mpr fun part hp => ?_
      obtain ⟨p, -, rfl⟩ := List.mem_map.mp hp
      simpa using writePair_ne_nil p
  have hread : readPair? ∘ writePair = some := funext readPair?_writePair
  rw [read, hfilter, List.filterMap_map, hread, List.filterMap_some]

/-! ## Setting fields -/

/-- A name that stands for a property of the application. -/
def Unmarked (p : String × String) : Prop := p.1.startsWith "$." = false

theorem set_of_unmarked {p : String × String} (h : Unmarked p) (m : Message) : set m p = m.withProperty p.1 p.2 := by
  have hne : ∀ key : String, key.startsWith "$." = true → p.1 ≠ key := by
    rintro key hkey rfl
    rw [Unmarked, hkey] at h
    cases h
  rw [set, if_neg (hne _ (by simp)), if_neg (hne _ (by simp)), if_neg (hne _ (by simp)), if_neg (hne _ (by simp)), h]
  rfl

/-- Pairs under unmarked names only add properties. -/
theorem foldl_set_of_unmarked {ps : Properties} (h : ∀ p ∈ ps, Unmarked p) (m : Message) :
    ∃ added, ps.foldl set m = { m with properties := added } := by
  induction ps generalizing m with
  | nil => exact ⟨m.properties, rfl⟩
  | cons p ps ih =>
    rw [List.foldl_cons, set_of_unmarked (h p List.mem_cons_self)]
    exact ih (fun q hq => h q (List.mem_cons_of_mem p hq)) _

/-- The fields under marked names, set on a message that has none of them, are those of the message. -/
theorem foldl_set_systemFields (m : Message) (payload : Octets) :
    ((systemFields m).filterMap fun p => p.2.map fun v => (p.1, v)).foldl set { payload } =
      { payload, messageId := m.messageId, correlationId := m.correlationId, contentType := m.contentType,
        contentEncoding := m.contentEncoding } := by
  obtain ⟨-, -, mid, cid, ct, ce, -, -⟩ := m
  cases mid <;> cases cid <;> cases ct <;> cases ce <;> rfl

/-- What a message becomes on its way through a topic. -/
theorem apply_encode {m : Message} (h : ∀ p ∈ m.properties, Unmarked p) (payload : Octets) :
    ∃ properties, apply { payload } (encode m).toList =
      { payload, properties, messageId := m.messageId, correlationId := m.correlationId,
        contentType := m.contentType, contentEncoding := m.contentEncoding } := by
  rw [apply, read_encode, pairs, List.foldl_append, foldl_set_systemFields]
  exact foldl_set_of_unmarked h _

end Topic.Bag

/-- The bag of a message follows the base of a device in the topic of its telemetry. -/
theorem Identity.after?_telemetryTopic (x : Identity) (m : Message) :
    Text.after? (x.base ++ "/messages/events/").toList (x.telemetryTopic m).toList =
      some (Topic.Bag.encode m).toList := by
  have htopic : (x.telemetryTopic m).toList =
      (x.base ++ "/messages/events/").toList ++ (Topic.Bag.encode m).toList := String.toList_append
  rw [htopic, Text.after?_append]

end HubDevice
