import HubDevice.Compress.Stored
import Mathlib.Tactic.Common

/-!
# Expanding what was stored

Both writers cut their input into blocks that they keep as they are, and mark the last one. One block reads back as its
octets (`Deflate.readBlocks_storedBlock`, `Zstd.readBlocks_rawBlock`); by induction on the fuel of the writer so does a
whole stream, and with the frame around it what was stored expands to what it was (`Gzip.decompress?_store`,
`Zstd.decompress?_store`).
-/

namespace HubDevice

namespace Octets

theorem toNatLE_ofNatLE {k n : Nat} (h : n < 256 ^ k) : toNatLE (ofNatLE k n) = n := by
  induction k generalizing n with
  | zero =>
    have hn : n = 0 := by simpa using h
    rw [hn]
    rfl
  | succ k ih =>
    have hrest : n / 256 < 256 ^ k := Nat.div_lt_of_lt_mul (by rwa [Nat.pow_succ'] at h)
    have hlow : (UInt8.ofNat n).toNat = n % 256 := UInt8.toNat_ofNat'
    rw [ofNatLE, toNatLE, ih hrest, hlow]
    omega

theorem take_ofNatLE_append (k n : Nat) (rest : Octets) : (ofNatLE k n ++ rest).take k = ofNatLE k n := by
  rw [List.take_left' (length_ofNatLE k n)]

theorem drop_ofNatLE_append (k n : Nat) (rest : Octets) : (ofNatLE k n ++ rest).drop k = rest := by
  rw [List.drop_left' (length_ofNatLE k n)]

/-- Nothing is left behind a block that is the last one. -/
theorem take_of_isEmpty_drop {k : Nat} {bs : Octets} (h : (bs.drop k).isEmpty = true) : bs.take k = bs := by
  have hle : bs.length ≤ k := by simpa using h
  exact List.take_of_length_le hle

end Octets

namespace Deflate

theorem BitSource.unread_align {count : Nat} (h : count < 8) (bs : Octets) :
    (BitSource.mk 0 count bs).align.unread = bs := by
  simp [align, unread, Nat.mod_eq_of_lt h, Octets.ofNatLE]

/-- What follows the three bits at the beginning of a stored block: its length, the complement of that, and octets. -/
theorem readStored_append {block : Octets} (h : block.length ≤ 65535) (rest : Octets) (out : Array UInt8) :
    readStored ⟨0, 5, Octets.ofNatLE 2 block.length ++ (Octets.ofNatLE 2 (65535 - block.length) ++ (block ++ rest))⟩ out =
      some (⟨0, 0, rest⟩, out ++ block.toArray) := by
  have hlength : Octets.toNatLE (Octets.ofNatLE 2 block.length) = block.length := Octets.toNatLE_ofNatLE (by omega)
  have hcheck : Octets.toNatLE (Octets.ofNatLE 2 (65535 - block.length)) = 65535 - block.length :=
    Octets.toNatLE_ofNatLE (by omega)
  have hbody : (Octets.ofNatLE 2 block.length ++ (Octets.ofNatLE 2 (65535 - block.length) ++ (block ++ rest))).drop 4 =
      block ++ rest := by
    rw [← List.drop_drop (i := 2) (j := 2), Octets.drop_ofNatLE_append, Octets.drop_ofNatLE_append]
  have hwhole : ¬ ((Octets.ofNatLE 2 block.length ++
      (Octets.ofNatLE 2 (65535 - block.length) ++ (block ++ rest))).take 4).length < 4 := by
    simp only [List.length_take, List.length_append, Octets.length_ofNatLE]
    omega
  have hsum : block.length + (65535 - block.length) = 65535 := by omega
  simp only [readStored, BitSource.unread_align (show 5 < 8 by decide), Octets.take_ofNatLE_append,
    Octets.drop_ofNatLE_append, hlength, hcheck, hbody]
  rw [if_neg (not_or.mpr ⟨hwhole, not_not.mpr hsum⟩)]
  simp

/-- A stored block reads back as its octets. -/
theorem readBlocks_storedBlock {block : Octets} (h : block.length ≤ 65535) (symbols fuel : Nat) (last : Bool)
    (rest : Octets) (out : Array UInt8) :
    readBlocks symbols (fuel + 1) ⟨0, 0, storedBlock last block ++ rest⟩ out =
      if last then some (⟨0, 0, rest⟩, out ++ block.toArray)
      else readBlocks symbols fuel ⟨0, 0, rest⟩ (out ++ block.toArray) := by
  have hbits : ∀ bs : Octets, (BitSource.mk 0 0 ((if last then 1 else 0) :: bs)).take? 1 =
      some (if last then 1 else 0, ⟨0, 7, bs⟩) := by
    intro bs
    cases last <;> simp [BitSource.take?, BitSource.fill?]
  have hkind : ∀ bs : Octets, (BitSource.mk 0 7 bs).take? 2 = some (0, ⟨0, 5, bs⟩) := by
    intro bs
    simp [BitSource.take?, BitSource.fill?]
  have hstored := readStored_append h rest out
  rw [storedBlock, List.cons_append, readBlocks, hbits]
  simp only [List.append_assoc, Option.bind_eq_bind, Option.bind_some, hkind, hstored]
  cases last <;> rfl

/-- Stored octets read back, when there is fuel for as many blocks as there are octets, and one more. -/
theorem readBlocks_storeAux {n : Nat} {bs : Octets} (h : bs.length ≤ n) (symbols more : Nat) (rest : Octets)
    (out : Array UInt8) :
    readBlocks symbols (more + n + 1) ⟨0, 0, storeAux n bs ++ rest⟩ out = some (⟨0, 0, rest⟩, out ++ bs.toArray) := by
  induction n generalizing bs out with
  | zero => 
    rw [storeAux, readBlocks_storedBlock (by omega)]
    rfl
  | succ n ih =>
    have hblock : (bs.take 65535).length ≤ 65535 := List.length_take_le 65535 bs
    rw [storeAux, List.splitAt_eq]
    dsimp only
    split
    · rename_i hempty
      have hall := Octets.take_of_isEmpty_drop hempty
      rw [readBlocks_storedBlock hblock, hall]
      rfl
    · rename_i hmore
      have hshorter : (bs.drop 65535).length ≤ n := by
        rw [List.length_drop]
        omega
      rw [List.append_assoc, readBlocks_storedBlock hblock, ← Nat.add_assoc, if_neg Bool.false_ne_true, ih hshorter]
      simp [Array.append_assoc]

theorem length_storeAux (n : Nat) (bs : Octets) : bs.length + 1 ≤ (storeAux n bs).length := by
  induction n generalizing bs with
  | zero =>
    simp only [storeAux, storedBlock, List.length_cons, List.length_append]
    omega
  | succ n ih =>
    have := ih (bs.drop 65535)
    rw [storeAux, List.splitAt_eq]
    dsimp only
    split
    · rename_i hempty
      have hall := Octets.take_of_isEmpty_drop hempty
      simp only [storedBlock, hall, List.length_cons, List.length_append]
      omega
    · simp only [storedBlock, List.length_append, List.length_cons, Octets.length_ofNatLE, List.length_take,
        List.length_drop] at *
      omega

theorem inflate?_store (bs rest : Octets) : inflate? (store bs ++ rest) = some (bs, rest) := by
  have hlength := length_storeAux bs.length bs
  obtain ⟨more, hmore⟩ : ∃ more, 8 * (store bs ++ rest).length + 1 = more + bs.length + 1 :=
    ⟨8 * (store bs ++ rest).length - bs.length, by simp only [store, List.length_append]; omega⟩
  rw [inflate?]
  dsimp only
  rw [hmore, store, readBlocks_storeAux (Nat.le_refl _)]
  simp [BitSource.unread_align]

end Deflate

namespace Gzip

theorem decompress?_store (bs : Octets) : decompress? (store bs) = some bs := by
  have hheader : skipHeader? (store bs) =
      some (Deflate.store bs ++ (Octets.ofNatLE 4 (Crc32.ofOctets bs) ++ Octets.ofNatLE 4 bs.length)) := by
    simp [store, skipHeader?, skip?]
  rw [decompress?, hheader]
  simp [Deflate.inflate?_store]

end Gzip

namespace Zstd

theorem split?_append {n : Nat} {head : Octets} (h : head.length = n) (tail : Octets) :
    split? n (head ++ tail) = some (head, tail) := by
  simp [split?, List.take_left' h, List.drop_left' h, h]

/-- What a frame that this library writes says about itself. -/
def plainFrame : Frame where
  window := maxBlock
  content := none
  checked := false

theorem read?_plainHeader (rest : Octets) : Frame.read? (plainHeader ++ rest) = some (plainFrame, rest) := by
  simp [Frame.read?, plainHeader, split?, Octets.toNatLE, Frame.window?, plainFrame, maxBlock]

theorem octets_turn (f : Frame) (o : Output) : (o.turn f).octets = o.octets := by
  unfold Output.turn
  split <;> rfl

/-- A raw block reads back as its octets. -/
theorem readBlocks_rawBlock {block : Octets} (h : block.length ≤ maxBlock) (fuel : Nat) (k : Carried) (last : Bool)
    (rest : Octets) (out : Output) :
    ∃ out' : Output, out'.octets = out.octets ++ block.toArray ∧
      readBlocks plainFrame (fuel + 1) k (rawBlock last block ++ rest) out =
        if last then some (out'.octets, rest) else readBlocks plainFrame fuel k rest out' := by
  have hbound : block.length ≤ 131072 := h
  generalize hn : 8 * block.length + (if last then 1 else 0) = n
  have hnumber : n < 256 ^ 3 ∧ n / 8 = block.length ∧ n / 2 % 4 = 0 ∧ (n % 2 = 1 ↔ last = true) := by
    cases last <;> simp at hn ⊢ <;> omega
  obtain ⟨hsmall, hsize, hkind, hlast⟩ := hnumber
  have hroom : ∀ size, plainFrame.hasRoom size = true := fun _ => rfl
  have hcomplete : ∀ o : Output, isComplete plainFrame o = true := fun _ => rfl
  rw [rawBlock, hn, List.append_assoc, readBlocks, split?_append (Octets.length_ofNatLE 3 n)]
  simp only [Option.bind_eq_bind, Option.bind_some, Octets.toNatLE_ofNatLE hsmall, hsize, hkind, hlast]
  by_cases hempty : block.length = 0
  · -- An empty block is passed over.
    have hnil : block = [] := List.length_eq_zero_iff.mp hempty
    subst hnil
    refine ⟨out, by simp, ?_⟩
    simp [plainFrame, Frame.atOnce]
  · refine ⟨{ out with octets := out.octets ++ block.toArray }.turn plainFrame, by rw [octets_turn], ?_⟩
    have hfits : ¬ plainFrame.blockLimit < block.length := by
      show ¬ 131072 < block.length
      omega
    cases last <;> simp [hempty, hfits, split?_append, hroom, hcomplete, octets_turn]

/-- Raw blocks read back, when there is fuel for as many blocks as there are octets, and one more. -/
theorem readBlocks_rawBlocks {n : Nat} {bs : Octets} (h : bs.length ≤ n) (more : Nat) (k : Carried) (rest : Octets)
    (out : Output) :
    readBlocks plainFrame (more + n + 1) k (rawBlocks n bs ++ rest) out = some (out.octets ++ bs.toArray, rest) := by
  induction n generalizing bs out with
  | zero =>
    have hblock : bs.length ≤ maxBlock := Nat.le_trans h (Nat.zero_le _)
    obtain ⟨out', hout, hread⟩ := readBlocks_rawBlock hblock more k true rest out
    rw [rawBlocks, Nat.add_zero, hread, if_pos rfl, hout]
  | succ n ih =>
    have hblock : (bs.take maxBlock).length ≤ maxBlock := List.length_take_le maxBlock bs
    rw [rawBlocks, List.splitAt_eq]
    dsimp only
    split
    · rename_i hempty
      obtain ⟨out', hout, hread⟩ := readBlocks_rawBlock hblock (more + (n + 1)) k true rest out
      rw [hread, if_pos rfl, hout, Octets.take_of_isEmpty_drop hempty]
    · obtain ⟨out', hout, hread⟩ :=
        readBlocks_rawBlock hblock (more + n + 1) k false (rawBlocks n (bs.drop maxBlock) ++ rest) out
      have hshorter : (bs.drop maxBlock).length ≤ n := by
        rw [List.length_drop, maxBlock]
        omega
      rw [List.append_assoc, ← Nat.add_assoc, hread, if_neg Bool.false_ne_true, ih hshorter, hout]
      simp [Array.append_assoc]

theorem length_rawBlocks (n : Nat) (bs : Octets) : bs.length ≤ (rawBlocks n bs).length := by
  induction n generalizing bs with
  | zero =>
    rw [rawBlocks, rawBlock, List.length_append]
    omega
  | succ n ih =>
    have := ih (bs.drop maxBlock)
    rw [rawBlocks, List.splitAt_eq]
    dsimp only
    split
    · rename_i hempty
      rw [Octets.take_of_isEmpty_drop hempty, rawBlock, List.length_append]
      omega
    · simp only [rawBlock, List.length_append, List.length_take, List.length_drop] at *
      omega

theorem decompress?_store (bs : Octets) : decompress? (store bs) = some bs := by
  have hlength := length_rawBlocks bs.length bs
  obtain ⟨more, hmore⟩ : ∃ more, (rawBlocks bs.length bs).length + 1 = more + bs.length + 1 :=
    ⟨(rawBlocks bs.length bs).length - bs.length, by omega⟩
  have hblocks := readBlocks_rawBlocks (Nat.le_refl bs.length) more {} [] {}
  rw [List.append_nil] at hblocks
  have hframe : readFrame? (plainHeader ++ rawBlocks bs.length bs) = some bs := by
    rw [readFrame?, read?_plainHeader]
    simp only [Option.bind_eq_bind, Option.bind_some, hmore, hblocks]
    simp [plainFrame, Frame.atOnce, maxWindow, maxBlock]
  have hskip : isSkippable (store bs) = false := rfl
  have hmagic : magic.length = 4 := rfl
  rw [decompress?, hskip, store, List.append_assoc, split?_append hmagic]
  simp [hframe]

end Zstd

end HubDevice
