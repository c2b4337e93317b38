import HubDevice.Text.Percent
import Mathlib.Tactic.Common

/-!
# Percent encoding and back

A written text has only characters that stand for themselves and percent signs (`mem_encode`), so that it can stand
between separators, and reading it gives the text again (`decode?_encode`).
-/

namespace HubDevice

namespace Octets

theorem text?_ofText (s : String) : text? (ofText s) = some s := by
  show String.fromUTF8? s.toByteArray = some s
  rw [String.fromUTF8?, dif_pos s.isValidUTF8]
  rfl

/-- The octets of a text in which all characters are ASCII. -/
theorem ofText_ofList {cs : List Char} (h : ∀ c ∈ cs, c.toNat < 128) :
    ofText (String.ofList cs) = cs.map fun c => UInt8.ofNat c.toNat := by
  have hcs : ofText (String.ofList cs) = cs.flatMap String.utf8EncodeChar := by
    show (String.ofList cs).toByteArray.data.toList = _
    simp [String.toByteArray_ofList, List.utf8Encode]
  rw [hcs]
  clear hcs
  induction cs with
  | nil => rfl
  | cons c cs ih =>
    have hc : String.utf8EncodeChar c = [UInt8.ofNat c.toNat] := by
      have hlt : c.val.toNat ≤ 127 := Nat.le_of_lt_succ (h c List.mem_cons_self)
      rw [String.utf8EncodeChar, if_pos hlt]
      rfl
    rw [List.flatMap_cons, hc, List.map_cons, ih fun d hd => h d (List.mem_cons_of_mem c hd)]
    rfl

end Octets

namespace Text.Percent

theorem digit_spec : ∀ n < 16, (digit n).toNat < 128 ∧ isUnreserved (UInt8.ofNat (digit n).toNat) = true ∧
    value? (UInt8.ofNat (digit n).toNat) = some n := by
  decide

theorem toNat_lt_of_isUnreserved {b : UInt8} (h : isUnreserved b = true) : b.toNat < 128 ∧ b ≠ 37 := by
  have hle : ∀ m n : UInt8, (m ≤ b && b ≤ n) = true → m.toNat ≤ b.toNat ∧ b.toNat ≤ n.toNat := by
    intro m n hb
    simpa [UInt8.le_iff_toNat_le] using hb
  simp only [isUnreserved, Bool.or_eq_true] at h
  have hb : (65 ≤ b.toNat ∧ b.toNat ≤ 90) ∨ (97 ≤ b.toNat ∧ b.toNat ≤ 122) ∨ (48 ≤ b.toNat ∧ b.toNat ≤ 57) ∨
      b = 45 ∨ b = 46 ∨ b = 95 ∨ b = 126 := by
    rcases h with (((((h | h) | h) | h) | h) | h) | h
    · exact .inl (hle _ _ h)
    · exact .inr (.inl (hle _ _ h))
    · exact .inr (.inr (.inl (hle _ _ h)))
    all_goals simp [of_decide_eq_true h]
  constructor
  · rcases hb with h | h | h | rfl | rfl | rfl | rfl
    · omega
    · omega
    · omega
    all_goals decide
  · rintro rfl
    revert hb
    decide

/-- The character with the number of an octet. -/
theorem toNat_ofNat (b : UInt8) : (Char.ofNat b.toNat).toNat = b.toNat := by
  rw [Char.ofNat, dif_pos (.inl (Nat.lt_trans b.toNat_lt (by decide)))]
  rfl

/-- What a written octet consists of. -/
theorem mem_encodeOctet {b : UInt8} {c : Char} (h : c ∈ encodeOctet b) :
    c.toNat < 128 ∧ (c = '%' ∨ isUnreserved (UInt8.ofNat c.toNat) = true) := by
  have hb := b.toNat_lt
  unfold encodeOctet at h
  split at h
  · rename_i hu
    have hlt := (toNat_lt_of_isUnreserved hu).1
    rw [List.mem_singleton.mp h, toNat_ofNat, UInt8.ofNat_toNat]
    exact ⟨hlt, .inr hu⟩
  · obtain ⟨hhi, hhi', -⟩ := digit_spec (b.toNat / 16) (by omega)
    obtain ⟨hlo, hlo', -⟩ := digit_spec (b.toNat % 16) (by omega)
    simp only [List.mem_cons, List.not_mem_nil, or_false] at h
    rcases h with rfl | rfl | rfl
    · exact ⟨by decide, .inl rfl⟩
    · exact ⟨hhi, .inr hhi'⟩
    · exact ⟨hlo, .inr hlo'⟩

/-- A written text has only unreserved characters and percent signs. -/
theorem mem_encode {s : String} {c : Char} (h : c ∈ encode s) :
    c.toNat < 128 ∧ (c = '%' ∨ isUnreserved (UInt8.ofNat c.toNat) = true) := by
  obtain ⟨b, -, hc⟩ := List.mem_flatMap.mp h
  exact mem_encodeOctet hc

theorem decodeOctets_of_ne {b : UInt8} (h : b ≠ 37) (rest : Octets) :
    decodeOctets (b :: rest) = b :: decodeOctets rest := by
  match rest with
  | [] => rfl
  | [c] => rfl
  | c :: d :: rest => rw [decodeOctets, if_neg h]

theorem decodeOctets_encodeOctet (b : UInt8) (rest : Octets) :
    decodeOctets ((encodeOctet b).map (fun c => UInt8.ofNat c.toNat) ++ rest) = b :: decodeOctets rest := by
  have hb := b.toNat_lt
  unfold encodeOctet
  split
  · rename_i hu
    obtain ⟨hlt, hne⟩ := toNat_lt_of_isUnreserved hu
    rw [List.map_singleton, toNat_ofNat, UInt8.ofNat_toNat, List.singleton_append, decodeOctets_of_ne hne]
  · obtain ⟨-, -, hhi⟩ := digit_spec (b.toNat / 16) (by omega)
    obtain ⟨-, -, hlo⟩ := digit_spec (b.toNat % 16) (by omega)
    have hsum : 16 * (b.toNat / 16) + b.toNat % 16 = b.toNat := by omega
    show decodeOctets (37 :: UInt8.ofNat (digit _).toNat :: UInt8.ofNat (digit _).toNat :: rest) = _
    rw [decodeOctets, if_pos rfl, hhi, hlo]
    simp only [hsum, UInt8.ofNat_toNat]

theorem decodeOctets_encode (bs : Octets) :
    decodeOctets ((bs.flatMap encodeOctet).map fun c => UInt8.ofNat c.toNat) = bs := by
  induction bs with
  | nil => rfl
  | cons b bs ih => rw [List.flatMap_cons, List.map_append, decodeOctets_encodeOctet, ih]

theorem decode?_encode (s : String) : decode? (encode s) = some s := by
  rw [decode?, Octets.ofText_ofList fun c hc => (mem_encode hc).1, encode, decodeOctets_encode, Octets.text?_ofText]

end Text.Percent

end HubDevice
