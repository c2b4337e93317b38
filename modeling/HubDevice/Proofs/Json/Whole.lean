import HubDevice.Json.Parser
import HubDevice.Json.Printer
import HubDevice.Proofs.Text.Percent

/-!
# Whole numbers in JSON text

A document is a natural number just when it is written as its decimal digits, without zeros in front and between
blanks, and when it is below `2 ^ 64` (`parse?_eq_some_int`): no fraction, no exponent, no sign, and nothing else beside
it. Each layer of reading has its part: the numeral (`eq_append_of_readNumeral`, `readNumeral_append`), the only token
of a text (`Token.scan_eq_singleton`), and the value of a document with a single token (`readValue_eq_int`).
-/

namespace HubDevice.Json

variable {c : Char} {cs ds rest tail : List Char} {m n : Nat}

/-! ## Digits -/

theorem isSome_digit? : (digit? c).isSome = c.isDigit := by
  unfold digit? Char.isDigit
  by_cases h : '0' ≤ c ∧ c ≤ '9'
  · rw [if_pos h]
    simpa [Char.le_def] using h
  · rw [if_neg h]
    simpa [Char.le_def] using h

/-- What begins with something else than a digit. -/
def EndsDigits (cs : List Char) : Prop := ∀ c ∈ cs.head?, c.isDigit = false

theorem spanDigits_append (hd : ∀ c ∈ ds, c.isDigit = true) (ht : EndsDigits tail) :
    spanDigits (ds ++ tail) = (ds, tail) := by
  induction ds with
  | nil =>
    cases tail with
    | nil => rfl
    | cons c tail =>
      have hc : c.isDigit = false := ht c rfl
      simp [spanDigits, isSome_digit?, hc]
  | cons c ds ih =>
    have hc := hd c List.mem_cons_self
    simp [spanDigits, isSome_digit?, hc, ih fun c' hc' => hd c' (List.mem_cons_of_mem c hc')]

theorem spanDigits_spec (h : spanDigits cs = (ds, tail)) :
    cs = ds ++ tail ∧ (∀ c ∈ ds, c.isDigit = true) ∧ EndsDigits tail := by
  induction cs generalizing ds with
  | nil =>
    cases h
    exact ⟨rfl, fun c hc => absurd hc List.not_mem_nil, fun c hc => absurd hc (by simp)⟩
  | cons c cs ih =>
    rw [spanDigits, isSome_digit?] at h
    split at h
    · rename_i hc
      cases h
      obtain ⟨hcs, hd, ht⟩ := ih rfl
      exact ⟨congrArg (c :: ·) hcs, List.forall_mem_cons.mpr ⟨hc, hd⟩, ht⟩
    · rename_i hc
      cases h
      refine ⟨rfl, fun c hc => absurd hc List.not_mem_nil, fun c' hc' => ?_⟩
      cases hc'
      simpa using hc

theorem toNat_of_isDigit (h : c.isDigit = true) : 48 ≤ c.toNat ∧ c.toNat ≤ 57 := by
  simpa [Char.isDigit, UInt32.le_iff_toNat_le] using h

theorem digitChar_of_isDigit (h : c.isDigit = true) : c.toNat - 48 < 10 ∧ Nat.digitChar (c.toNat - 48) = c := by
  have hc := toNat_of_isDigit h
  refine ⟨by omega, Char.toNat_inj.mp ?_⟩
  rw [Nat.toNat_digitChar_of_lt_ten (by omega)]
  omega

/-- Digits after a number that is not zero are the further digits of a number. -/
theorem toDigits_append (hd : ∀ c ∈ ds, c.isDigit = true) (hm : 0 < m) :
    Nat.toDigits 10 m ++ ds = Nat.toDigits 10 (Nat.ofDigitChars 10 ds m) := by
  induction ds generalizing m with
  | nil => exact List.append_nil _
  | cons c ds ih =>
    obtain ⟨hlt, hchar⟩ := digitChar_of_isDigit (hd c List.mem_cons_self)
    have hnext := Nat.toDigits_append_toDigits (b := 10) (by decide) hm hlt
    rw [Nat.toDigits_of_lt_base hlt, hchar] at hnext
    rw [List.append_cons, hnext, ih (fun c' hc' => hd c' (List.mem_cons_of_mem c hc')) (by omega)]
    rfl

/-- Digits without a zero in front are those of their number. -/
theorem toDigits_ofDigitChars (hd : ∀ c ∈ ds, c.isDigit = true) (hne : ds ≠ []) (hz : ∀ c rest, ds ≠ '0' :: c :: rest) :
    Nat.toDigits 10 (Nat.ofDigitChars 10 ds 0) = ds := by
  cases ds with
  | nil => exact absurd rfl hne
  | cons c ds =>
    obtain ⟨hlt, hchar⟩ := digitChar_of_isDigit (hd c List.mem_cons_self)
    have hfirst : Nat.toDigits 10 (c.toNat - 48) = [c] := by rw [Nat.toDigits_of_lt_base hlt, hchar]
    have hvalue : Nat.ofDigitChars 10 (c :: ds) 0 = Nat.ofDigitChars 10 ds (c.toNat - 48) := by
      rw [Nat.ofDigitChars_cons, Nat.mul_zero, Nat.zero_add]
      rfl
    rw [hvalue]
    cases ds with
    | nil => exact hfirst
    | cons c' ds =>
      have hpos : 0 < c.toNat - 48 := by
        refine Nat.pos_of_ne_zero fun h0 => hz c' ds ?_
        rw [h0] at hchar
        rw [← hchar]
        rfl
      rw [← toDigits_append (fun d hm => hd d (List.mem_cons_of_mem c hm)) hpos, hfirst]
      rfl

/-- The significand takes all digits just when their number fits. -/
theorem accumulate_eq (hm : m < 2 ^ 64) :
    accumulate m ds = (n, []) ↔ n = Nat.ofDigitChars 10 ds m ∧ n < 2 ^ 64 := by
  induction ds generalizing m with
  | nil => simp [accumulate, eq_comm]; omega
  | cons c ds ih =>
    rw [accumulate, Nat.ofDigitChars_cons]
    split
    · rename_i hlt
      exact ih hlt
    · rename_i hge
      have hgrow : 10 * m + (c.toNat - 48) ≤ Nat.ofDigitChars 10 ds (10 * m + (c.toNat - 48)) := by
        rw [Nat.ofDigitChars_eq_ofDigitChars_zero]
        exact Nat.le_add_right_of_le (Nat.le_mul_of_pos_left _ (Nat.pow_pos (by decide)))
      refine ⟨fun h => ?_, fun h => ?_⟩
      · cases h
      · have : n = Nat.ofDigitChars 10 ds (10 * m + (c.toNat - 48)) := h.1
        omega

/-! ## Numerals -/

theorem signed_ne_int (negative : Bool) (x : Float) (k : Int) : signed negative x ≠ .int k := by
  unfold signed
  split <;> simp

theorem readExponent_ne_int {negative : Bool} {significand : Nat} {start k : Int} :
    readExponent negative significand start cs ≠ some (.int k, tail) := by
  have hsigned : ∀ x rest, some (signed negative x, rest) ≠ some (Datum.int k, tail) := by
    intro x rest h
    exact signed_ne_int _ _ _ (congrArg Prod.fst (Option.some.inj h))
  cases cs with
  | nil => exact hsigned _ _
  | cons c rest =>
    unfold readExponent
    dsimp only
    by_cases hc : c = 'e' ∨ c = 'E'
    · rw [if_pos hc]
      split
      · simp
      · rename_i ds _ _ _
        by_cases hbig : (2 ^ 31 : Int) ≤ exponentValue ds
        · rw [if_pos hbig]
          exact hsigned _ _
        · rw [if_neg hbig]
          exact hsigned _ _
    · rw [if_neg hc]
      exact hsigned _ _

theorem readFraction_ne_int {negative : Bool} {significand : Nat} {start k : Int} :
    readFraction negative significand start cs ≠ some (.int k, tail) := by
  unfold readFraction
  split
  · simp
  · exact readExponent_ne_int

/-- What may stand after an integer: neither a digit nor what makes it another number. -/
def EndsInteger (cs : List Char) : Prop := EndsDigits cs ∧ ∀ c ∈ cs.head?, c ≠ '.' ∧ c ≠ 'e' ∧ c ≠ 'E'

/-- What follows an unsigned numeral that is an integer, and how it was written. -/
theorem readUnsigned_eq_int {negative : Bool} {k : Int} (h : readUnsigned negative cs = some (.int k, tail)) :
    negative = true ∧ k < 0 ∨ negative = false ∧ ∃ n : Nat, k = n ∧ cs = Nat.toDigits 10 n ++ tail ∧ n < 2 ^ 64 := by
  unfold readUnsigned at h
  split at h
  · cases h
  · cases h
  · rename_i ds rest hne hz hspan
    obtain ⟨hcs, hd, -⟩ := spanDigits_spec hspan
    dsimp only at h
    split at h
    · exact absurd h readFraction_ne_int
    · exact absurd h readExponent_ne_int
    · exact absurd h readExponent_ne_int
    · split at h
      · exact absurd (congrArg Prod.fst (Option.some.inj h)) (signed_ne_int _ _ _)
      · rename_i hdropped
        have hall : accumulate 0 ds = ((accumulate 0 ds).1, []) := Prod.ext rfl (by simpa using hdropped)
        obtain ⟨hvalue, hlt⟩ := (accumulate_eq (by decide)).mp hall
        have hdigits := toDigits_ofDigitChars hd hne hz
        rw [← hvalue] at hdigits
        cases negative with
        | false =>
          cases h
          exact .inr ⟨rfl, _, rfl, hdigits.symm ▸ hcs, hlt⟩
        | true =>
          rw [if_neg (by simp)] at h
          split at h
          · rename_i hm
            cases h
            exact .inl ⟨rfl, by have := hm.1; omega⟩
          · cases h

/-- A numeral that is a natural number is its digits. -/
theorem eq_append_of_readNumeral (h : readNumeral cs = some (.int n, tail)) :
    cs = Nat.toDigits 10 n ++ tail ∧ n < 2 ^ 64 := by
  unfold readNumeral at h
  split at h
  · rcases readUnsigned_eq_int h with ⟨-, hneg⟩ | ⟨hf, -⟩
    · omega
    · cases hf
  · rcases readUnsigned_eq_int h with ⟨hf, -⟩ | ⟨-, m, hk, hcs, hm⟩
    · cases hf
    · cases Int.ofNat_inj.mp hk
      exact ⟨hcs, hm⟩

theorem isDigit_of_mem_toDigits (h : c ∈ Nat.toDigits 10 n) : c.isDigit = true :=
  Nat.isDigit_of_mem_toDigits (by decide) (by decide) h

/-- The digits of a number begin with a digit. -/
theorem exists_toDigits_eq (n : Nat) : ∃ c ds, c.isDigit = true ∧ Nat.toDigits 10 n = c :: ds := by
  cases h : Nat.toDigits 10 n with
  | nil => exact absurd h Nat.toDigits_ne_nil
  | cons c ds => exact ⟨c, ds, isDigit_of_mem_toDigits (h ▸ List.mem_cons_self), rfl⟩

/-- The digits of a number that is not zero have no zero in front. -/
theorem head?_toDigits_ne (hn : 0 < n) : (Nat.toDigits 10 n).head? ≠ some '0' := by
  induction n using Nat.strongRecOn with
  | ind n ih =>
    rw [Nat.toDigits_eq_if (by decide)]
    by_cases hlt : n < 10
    · rw [if_pos hlt]
      have hdigits : ∀ d < 10, 0 < d → ([Nat.digitChar d] : List Char).head? ≠ some '0' := by decide
      exact hdigits n hlt hn
    · obtain ⟨c, ds, -, hdigits⟩ := exists_toDigits_eq (n / 10)
      have hfirst := ih (n / 10) (by omega) (by omega)
      rw [if_neg hlt, hdigits]
      rwa [hdigits] at hfirst

theorem toDigits_ne_zero_cons (rest : List Char) : Nat.toDigits 10 n ≠ '0' :: c :: rest := by
  intro h
  rcases Nat.eq_zero_or_pos n with rfl | hn
  · rw [Nat.toDigits_zero] at h
    cases h
  · exact head?_toDigits_ne hn (by rw [h]; rfl)

/-- The digits of a number are read as the number. -/
theorem readNumeral_append (hn : n < 2 ^ 64) (ht : EndsInteger tail) :
    readNumeral (Nat.toDigits 10 n ++ tail) = some (.int n, tail) := by
  have hspan : spanDigits (Nat.toDigits 10 n ++ tail) = (Nat.toDigits 10 n, tail) :=
    spanDigits_append (fun c hc => isDigit_of_mem_toDigits hc) ht.1
  have haccumulate : accumulate 0 (Nat.toDigits 10 n) = (n, []) :=
    (accumulate_eq (by decide)).mpr ⟨Nat.ofDigitChars_ten_toDigits.symm, hn⟩
  have hunsigned : readUnsigned false (Nat.toDigits 10 n ++ tail) = some (.int n, tail) := by
    unfold readUnsigned
    rw [hspan]
    split
    · rename_i hnil
      exact absurd (congrArg Prod.fst hnil) Nat.toDigits_ne_nil
    · rename_i hzero
      exact absurd (congrArg Prod.fst hzero) (toDigits_ne_zero_cons _)
    · rename_i hds
      cases hds
      rw [haccumulate]
      dsimp only
      split
      · exact absurd rfl (ht.2 '.' rfl).1
      · exact absurd rfl (ht.2 'e' rfl).2.1
      · exact absurd rfl (ht.2 'E' rfl).2.2
      · rfl
  unfold readNumeral
  split
  · rename_i hsign
    obtain ⟨c, ds, hc, hdigits⟩ := exists_toDigits_eq n
    rw [hdigits] at hsign
    cases hsign
    cases hc
  · exact hunsigned

/-! ## Tokens -/

namespace Token

/-- Blanks and nothing else. -/
def Blank (cs : List Char) : Prop := ∀ c ∈ cs, isBlank c = true

theorem Blank.of_cons (h : Blank (c :: cs)) : Blank cs := fun c' hc' => h c' (List.mem_cons_of_mem c hc')

theorem blank_cons (hc : isBlank c = true) (h : Blank cs) : Blank (c :: cs) := List.forall_mem_cons.mpr ⟨hc, h⟩

theorem read_toDigits (hn : n < 2 ^ 64) (ht : EndsInteger tail) :
    read (Nat.toDigits 10 n ++ tail) = some (.scalar (.int n), tail) := by
  have hnumeral := readNumeral_append hn ht
  obtain ⟨c, ds, hc, hdigits⟩ := exists_toDigits_eq n
  rw [hdigits] at hnumeral ⊢
  unfold read
  split
  case h_11 => rw [hnumeral]; rfl
  all_goals
    rename_i hother
    cases (List.cons.inj hother).1
    cases hc

theorem readNumeral_of_read {d : Datum} (h : read cs = some (.scalar d, tail)) (hd : d ≠ .null)
    (hb : ∀ b, d ≠ .bool b) : readNumeral cs = some (d, tail) := by
  unfold read at h
  split at h
  case h_11 =>
    obtain ⟨p, hp, he⟩ := Option.map_eq_some_iff.mp h
    cases he
    exact hp
  case h_10 =>
    obtain ⟨p, -, he⟩ := Option.map_eq_some_iff.mp h
    cases he
  all_goals cases h
  · exact absurd rfl hd
  · exact absurd rfl (hb true)
  · exact absurd rfl (hb false)

theorem scanAux_append {fuel : Nat} (h : Blank cs) (hf : cs.length ≤ fuel) (rest : List Char) :
    scanAux fuel (cs ++ rest) = scanAux (fuel - cs.length) rest := by
  induction cs generalizing fuel with
  | nil => rfl
  | cons c cs ih =>
    cases fuel with
    | zero => cases hf
    | succ fuel =>
      have hc := h c List.mem_cons_self
      rw [List.cons_append, scanAux]
      dsimp only
      rw [if_pos hc, ih h.of_cons (Nat.le_of_succ_le_succ hf), List.length_cons, Nat.add_sub_add_right]

/-- A text without a token is blank. -/
theorem blank_of_scanAux {fuel : Nat} (h : scanAux fuel cs = some []) : Blank cs := by
  induction fuel generalizing cs with
  | zero =>
    cases cs with
    | nil => exact fun c hc => absurd hc List.not_mem_nil
    | cons c cs => cases h
  | succ fuel ih =>
    cases cs with
    | nil => exact fun c hc => absurd hc List.not_mem_nil
    | cons c cs =>
      rw [scanAux] at h
      dsimp only at h
      split at h
      · rename_i hc
        exact blank_cons hc (ih h)
      · simp only [Option.bind_eq_bind, Option.bind_eq_some_iff] at h
        obtain ⟨_, -, _, -, he⟩ := h
        cases he

/-- The only token of a text stands between blanks. -/
theorem append_of_scanAux {fuel : Nat} {t : Token} (h : scanAux fuel cs = some [t]) :
    ∃ before rest after, cs = before ++ rest ∧ Blank before ∧ read rest = some (t, after) ∧ Blank after := by
  induction fuel generalizing cs with
  | zero =>
    cases cs <;> cases h
  | succ fuel ih =>
    cases cs with
    | nil => cases h
    | cons c cs =>
      rw [scanAux] at h
      dsimp only at h
      split at h
      · rename_i hc
        obtain ⟨before, rest, after, rfl, hbefore, hread, hafter⟩ := ih h
        exact ⟨c :: before, rest, after, rfl, blank_cons hc hbefore, hread, hafter⟩
      · simp only [Option.bind_eq_bind, Option.bind_eq_some_iff] at h
        obtain ⟨⟨t', after⟩, hread, ts, hts, he⟩ := h
        cases he
        exact ⟨[], c :: cs, after, rfl, fun c hc => absurd hc List.not_mem_nil, hread, blank_of_scanAux hts⟩

theorem scanAux_nil (fuel : Nat) : scanAux fuel [] = some [] := by cases fuel <;> rfl

/-- Neither a digit nor what makes a number of an integer is a blank. -/
theorem isBlank_of_isDigit (hc : c.isDigit = true) : isBlank c = false := by
  rw [Bool.eq_false_iff]
  intro hb
  simp only [isBlank, Bool.or_eq_true, decide_eq_true_eq] at hb
  rcases hb with ((rfl | rfl) | rfl) | rfl <;> cases hc

theorem Blank.endsInteger (h : Blank cs) : EndsInteger cs := by
  have hhead : ∀ c ∈ cs.head?, isBlank c = true := fun c hc => h c (List.mem_of_mem_head? hc)
  refine ⟨fun c hc => ?_, fun c hc => ?_⟩
  · rw [Bool.eq_false_iff]
    intro hd
    have hb := hhead c hc
    rw [isBlank_of_isDigit hd] at hb
    cases hb
  · have hb := hhead c hc
    refine ⟨?_, ?_, ?_⟩
    all_goals
      rintro rfl
      revert hb
      decide

/-- The only token of a text is a natural number just when its digits stand between blanks. -/
theorem scan_eq_singleton : scan cs = some [.scalar (.int n)] ↔
    n < 2 ^ 64 ∧ ∃ before after, cs = before ++ Nat.toDigits 10 n ++ after ∧ Blank before ∧ Blank after := by
  constructor
  · intro h
    obtain ⟨before, rest, after, rfl, hbefore, hread, hafter⟩ := append_of_scanAux h
    obtain ⟨rfl, hn⟩ := eq_append_of_readNumeral (readNumeral_of_read hread (by simp) (by simp))
    exact ⟨hn, before, after, (List.append_assoc _ _ _).symm, hbefore, hafter⟩
  · rintro ⟨hn, before, after, rfl, hbefore, hafter⟩
    have hread := read_toDigits hn hafter.endsInteger
    obtain ⟨c, ds, hc, hdigits⟩ := exists_toDigits_eq n
    have hlength : (before ++ Nat.toDigits 10 n ++ after).length - before.length = (ds ++ after).length + 1 := by
      simp only [hdigits, List.length_append, List.length_cons]
      omega
    have hrest : ∀ fuel, after.length ≤ fuel → scanAux fuel after = some [] := by
      intro fuel hf
      have hscan := scanAux_append hafter hf []
      rwa [List.append_nil, scanAux_nil] at hscan
    rw [scan, List.append_assoc, scanAux_append hbefore (by simp), ← List.append_assoc, hlength]
    rw [hdigits] at hread ⊢
    rw [List.cons_append, scanAux]
    dsimp only
    rw [if_neg (by simp [isBlank_of_isDigit hc]), ← List.cons_append, hread]
    simp [hrest]

end Token

/-! ## Documents -/

variable {stack : List Frame} {ts : List Token} {d : Datum} {k : Int}

theorem closed_ne_int (h : d ≠ .int k) : closed stack d ≠ .int k := by
  unfold closed
  split
  · exact h
  · simp

theorem textDatum_ne_int (s : Option String) : textDatum s ≠ .int k := by
  cases s <;> simp [textDatum]

/-- An integer is neither inside of anything nor next to anything. -/
theorem eq_of_readValue_int :
    (∀ stack ts, readValue stack ts = some (.int k) → stack = [] ∧ ts = [.scalar (.int k)]) ∧
      ∀ stack d ts, afterValue stack d ts = some (.int k) → stack = [] ∧ d = .int k ∧ ts = [] := by
  apply readValue.mutual_induct
  case case1 =>
    intro stack d rest ih h
    obtain ⟨rfl, rfl, rfl⟩ := ih h
    exact ⟨rfl, rfl⟩
  case case2 => exact fun stack s rest ih h => absurd (ih h).2.1 (textDatum_ne_int s)
  case case8 => exact fun d h => ⟨rfl, Option.some.inj h, rfl⟩
  -- what has just been closed is no integer
  case case3 | case5 => exact fun stack rest ih h => absurd (ih h).2.1 (closed_ne_int (by simp))
  case case14 => exact fun d rest done below ih h => absurd (ih h).2.1 (closed_ne_int (by simp))
  case case16 => exact fun d rest done key below ih h => absurd (ih h).2.1 (closed_ne_int (by simp))
  -- an open frame remains
  case case4 =>
    intro stack rest hne ih h
    rw [readValue.eq_4 _ _ hne] at h
    cases (ih h).1
  case case6 => exact fun stack key rest ih h => nomatch (ih h).1
  case case10 => exact fun d key rest done key' below ih h => nomatch (ih h).1
  case case12 =>
    intro d rest hne done below ih h
    rw [afterValue.eq_5 _ _ _ _ hne] at h
    cases (ih h).1
  -- the text goes on with something else than may follow
  all_goals
    intros
    simp_all [readValue, afterValue]

theorem readValue_eq_int : readValue [] ts = some (.int k) ↔ ts = [.scalar (.int k)] := by
  refine ⟨fun h => (eq_of_readValue_int.1 [] ts h).2, ?_⟩
  rintro rfl
  rfl

theorem toJson?_eq_int : d.toJson? = some (.int k) ↔ d = .int k := by
  refine ⟨fun h => ?_, fun h => h ▸ rfl⟩
  cases d with
  | int n =>
    cases h
    rfl
  | float x =>
    rw [Datum.toJson?] at h
    split at h <;> cases h
  | map entries =>
    rcases entries with - | ⟨⟨key, d⟩, rest⟩
    · cases h
    · cases key <;> simp [Datum.toJson?, Option.bind_eq_some_iff] at h
  | _ => simp [Datum.toJson?] at h

theorem canonical_eq_int {v : Json} : canonical v = .int k ↔ v = .int k := by
  cases v <;> simp [canonical]

theorem value?_eq_int : d.value? = some (.int k) ↔ d = .int k := by
  simp [Datum.value?, Option.map_eq_some_iff, canonical_eq_int, toJson?_eq_int]

theorem parse?_eq_int {bs : Octets} :
    parse? bs = some (.int k) ↔ Token.scan (bs.map fun b => Char.ofNat b.toNat) = some [.scalar (.int k)] := by
  simp [parse?, document?, Option.bind_eq_some_iff, value?_eq_int, readValue_eq_int]

/-- The octets of the blanks. -/
def blanks : Octets := [0x20, 0x0a, 0x09, 0x0d]

/-- The payload is the number in decimal, with nothing but blanks around it. -/
def Spells (payload : Octets) (n : Nat) : Prop :=
  ∃ before after : Octets, before ⊆ blanks ∧ after ⊆ blanks ∧ payload = before ++ Octets.ofText (toString n) ++ after

theorem isBlank_iff_mem_blanks (b : UInt8) : Token.isBlank (Char.ofNat b.toNat) = true ↔ b ∈ blanks := by
  simp [Token.isBlank, blanks, ← Char.toNat_inj, ← UInt8.toNat_inj, Text.Percent.toNat_ofNat, or_assoc]

theorem blank_map_iff {bs : Octets} : Token.Blank (bs.map fun b => Char.ofNat b.toNat) ↔ bs ⊆ blanks := by
  simp [Token.Blank, isBlank_iff_mem_blanks, List.subset_def]

theorem ofText_toString (n : Nat) :
    Octets.ofText (toString n) = (Nat.toDigits 10 n).map fun c => UInt8.ofNat c.toNat := by
  rw [Nat.toString_eq_ofList_toDigits, Octets.ofText_ofList]
  intro c hc
  exact Nat.lt_of_le_of_lt (toNat_of_isDigit (isDigit_of_mem_toDigits hc)).2 (by decide)

/-- Octets are read as the digits of a number just when they are its decimal. -/
theorem map_eq_toDigits {bs : Octets} :
    bs.map (fun b => Char.ofNat b.toNat) = Nat.toDigits 10 n ↔ bs = Octets.ofText (toString n) := by
  rw [ofText_toString]
  constructor
  · intro h
    simp [← h, Function.comp_def, Text.Percent.toNat_ofNat]
  · rintro rfl
    rw [List.map_map]
    refine (List.map_congr_left fun c hc => ?_).trans (List.map_id _)
    have hc := toNat_of_isDigit (isDigit_of_mem_toDigits hc)
    rw [Function.comp_apply, UInt8.toNat_ofNat_of_lt' (Nat.lt_of_le_of_lt hc.2 (by decide)), Char.ofNat_toNat]
    rfl

/-- A document is a natural number just when it spells it. -/
theorem parse?_eq_some_int {bs : Octets} : parse? bs = some (.int n) ↔ n < 2 ^ 64 ∧ Spells bs n := by
  rw [parse?_eq_int, Token.scan_eq_singleton]
  refine and_congr_right fun _ => ⟨?_, ?_⟩
  · rintro ⟨before, after, h, hbefore, hafter⟩
    obtain ⟨most, last, rfl, hmost, rfl⟩ := List.map_eq_append_iff.mp h
    obtain ⟨first, digits, rfl, rfl, hdigits⟩ := List.map_eq_append_iff.mp hmost
    rw [map_eq_toDigits.mp hdigits]
    exact ⟨first, last, blank_map_iff.mp hbefore, blank_map_iff.mp hafter, rfl⟩
  · rintro ⟨before, after, hbefore, hafter, rfl⟩
    refine ⟨_, _, ?_, blank_map_iff.mpr hbefore, blank_map_iff.mpr hafter⟩
    rw [List.map_append, List.map_append, map_eq_toDigits.mpr rfl]

end HubDevice.Json
