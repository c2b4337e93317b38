import HubDevice.Number.Binary64

/-!
# Shortest decimals

The decimal text of a double is the shortest one that reads back as the same double; of two equally
short ones, the nearer. `Dyadic.shortest` finds it by trying one digit, two digits and so on up to
seventeen, each time testing the two neighbours of the value on that decimal grid in exact arithmetic.
-/

namespace HubDevice

/-- A positive decimal number: `digits * 10 ^ exponent`. -/
structure Decimal where
  digits : Nat
  exponent : Int
  deriving DecidableEq, Repr

namespace Decimal

/-- Drops trailing zeros of the digits, at most `fuel` of them. -/
def trimAux : Nat → Nat → Int → Decimal
  | 0, d, k => ⟨d, k⟩
  | fuel + 1, d, k => if d % 10 = 0 then trimAux fuel (d / 10) (k + 1) else ⟨d, k⟩

/-- The same number without trailing zeros in its digits. -/
def trim (x : Decimal) : Decimal := trimAux 20 x.digits x.exponent

end Decimal

namespace Dyadic

/-- `b ^ k` split into a numerator and a denominator, for an integer exponent. -/
def scale (b : Nat) (k : Int) : Nat × Nat :=
  match k with
  | .ofNat n => (b ^ n, 1)
  | .negSucc n => (1, b ^ (n + 1))

/-- The largest `e` with `10 ^ e ≤ num / den`, from an estimate by binary lengths. -/
def decade (num den : Nat) : Int :=
  let estimate : Int := ((num.log2 : Int) - (den.log2 : Int)) * 30103 / 100000
  let holds (e : Int) : Bool :=
    let (p, q) := scale 10 e
    p * den ≤ num * q
  if holds (estimate + 1) then estimate + 1
  else if holds estimate then estimate
  else if holds (estimate - 1) then estimate - 1
  else estimate - 2

/-- The nearest multiple of `10 ^ k` that reads back as `x`, if there is one. The numbers compared
are the value, the two ends of its rounding interval and the candidate, all over the denominator
`4 * 10 ^ k`, after the powers of two and ten have been cleared. -/
def onGrid (x : Dyadic) (k : Int) : Option Nat :=
  let (p2, q2) := scale 2 x.exponent
  let (p10, q10) := scale 10 k
  let unit := p2 * q10
  let value := 4 * x.mantissa * unit
  let lower := (if x.low then 4 * x.mantissa - 1 else 4 * x.mantissa - 2) * unit
  let upper := (4 * x.mantissa + 2) * unit
  let grid := 4 * q2 * p10
  let inside (c : Nat) : Bool :=
    if x.mantissa % 2 = 0 then lower ≤ c * grid ∧ c * grid ≤ upper
    else lower < c * grid ∧ c * grid < upper
  let down := value / grid
  let below := value - down * grid
  let above := (down + 1) * grid - value
  match inside down && 0 < down, inside (down + 1) with
  | true, true =>
    if below < above then some down
    else if above < below then some (down + 1)
    else some (if down % 2 = 0 then down else down + 1)
  | true, false => some down
  | false, true => some (down + 1)
  | false, false => none

/-- Tries `count` grids, each one digit finer than the last. -/
def refine (x : Dyadic) : Nat → Int → Decimal
  | 0, k => ⟨(x.onGrid k).getD 0, k⟩
  | count + 1, k =>
    match x.onGrid k with
    | some d => ⟨d, k⟩
    | none => refine x count (k - 1)

/-- The shortest decimal that reads back as `x`. -/
def shortest (x : Dyadic) : Decimal :=
  let (p2, q2) := scale 2 x.exponent
  (refine x 17 (decade (x.mantissa * p2) q2)).trim

end Dyadic

end HubDevice
