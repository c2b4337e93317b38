import HubDevice.Text.Base64

/-!
# Reading Base64

What was written is read back (`decode?_encode`). A digit is never taken for padding, and the bits that an octet leaves
over are those with which the next one begins.
-/

namespace HubDevice.Text.Base64

theorem digit_spec : ∀ n < 64, value? (digit n) = some n ∧ digit n ≠ '=' := by decide

theorem value?_digit {n : Nat} (h : n < 64) : value? (digit n) = some n := (digit_spec n h).1

theorem digit_ne_padding {n : Nat} (h : n < 64) : digit n ≠ '=' := (digit_spec n h).2

/-- Four digits are three octets. -/
theorem decode?_digits {x y z w : Nat} (hx : x < 64) (hy : y < 64) (hz : z < 64) (hw : w < 64) (rest : List Char) :
    decode? (digit x :: digit y :: digit z :: digit w :: rest) = (decode? rest).map fun bs =>
      UInt8.ofNat (x * 4 + y / 16) :: UInt8.ofNat (y % 16 * 16 + z / 4) :: UInt8.ofNat (z % 4 * 64 + w) :: bs := by
  rw [decode?]
  · simp only [value?_digit hx, value?_digit hy, value?_digit hz, value?_digit hw, Option.bind_eq_bind,
      Option.bind_some]
    cases decode? rest <;> rfl
  -- The forms with padding do not apply, since the last digit is none.
  · intro _ hpad
    exact absurd hpad (digit_ne_padding hw)
  · intro hpad
    exact absurd hpad (digit_ne_padding hw)

/-- Three digits and a mark are two octets, of which the last leaves no bits. -/
theorem decode?_padded {x y z : Nat} (hx : x < 64) (hy : y < 64) (hz : z < 64) (hrest : z % 4 = 0) :
    decode? [digit x, digit y, digit z, '='] =
      some [UInt8.ofNat (x * 4 + y / 16), UInt8.ofNat (y % 16 * 16 + z / 4)] := by
  rw [decode?]
  · simp only [value?_digit hx, value?_digit hy, value?_digit hz, Option.bind_eq_bind, Option.bind_some, if_pos hrest]
  · exact digit_ne_padding hz

theorem decode?_padded_twice {x y : Nat} (hx : x < 64) (hy : y < 64) (hrest : y % 16 = 0) :
    decode? [digit x, digit y, '=', '='] = some [UInt8.ofNat (x * 4 + y / 16)] := by
  simp only [decode?, value?_digit hx, value?_digit hy, Option.bind_eq_bind, Option.bind_some, if_pos hrest]

/-- An octet is the number that its bits make. -/
theorem ofNat_of_eq {n : Nat} {b : UInt8} (h : n = b.toNat) : UInt8.ofNat n = b := by rw [h, UInt8.ofNat_toNat]

theorem decode?_encode (bs : Octets) : decode? (encode bs) = some bs := by
  fun_induction encode bs with
  | case1 => rfl
  | case2 a =>
    have ha := a.toNat_lt
    rw [decode?_padded_twice (by omega) (by omega) (by omega), ofNat_of_eq (b := a) (by omega)]
  | case3 a b =>
    have ha := a.toNat_lt
    have hb := b.toNat_lt
    rw [decode?_padded (by omega) (by omega) (by omega) (by omega), ofNat_of_eq (b := a) (by omega),
      ofNat_of_eq (b := b) (by omega)]
  | case4 a b c rest ih =>
    have ha := a.toNat_lt
    have hb := b.toNat_lt
    have hc := c.toNat_lt
    rw [decode?_digits (by omega) (by omega) (by omega) (by omega), ih, Option.map_some,
      ofNat_of_eq (b := a) (by omega), ofNat_of_eq (b := b) (by omega), ofNat_of_eq (b := c) (by omega)]

end HubDevice.Text.Base64
