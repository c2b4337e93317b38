import HubDevice.Number.Binary64

/-!
# Pseudo-random numbers

Readings are drawn from the ChaCha stream cipher with twelve rounds, a 64-bit block counter and a zero
nonce. A numeric seed is first stretched to a key by a congruential generator with permuted output.
-/

namespace HubDevice.Random

/-! ## The key of a seed -/

/-- The next state of the congruential generator. -/
def advance (state : UInt64) : UInt64 := state * 6364136223846793005 + 11634580027462260723

/-- The output at a state: the high bits, mixed, rotated by the highest ones. -/
def output (state : UInt64) : UInt32 :=
  let mixed := (((state >>> 18) ^^^ state) >>> 27).toUInt32
  let turn := (state >>> 59).toUInt32
  (mixed >>> turn) ||| (mixed <<< ((32 - turn) % 32))

/-- `n` words of a key. -/
def keyWords : Nat → UInt64 → List UInt32
  | 0, _ => []
  | n + 1, state => output (advance state) :: keyWords n (advance state)

/-! ## ChaCha -/

def rotl (x k : UInt32) : UInt32 := (x <<< k) ||| (x >>> (32 - k))

/-- Sixteen words. -/
abbrev Block := Array UInt32

def word (s : Block) (i : Nat) : UInt32 := s[i]?.getD 0

/-- Mixes four words of a block. -/
def quarter (a b c d : Nat) (s : Block) : Block :=
  let xa := word s a + word s b
  let xd := rotl (word s d ^^^ xa) 16
  let xc := word s c + xd
  let xb := rotl (word s b ^^^ xc) 12
  let xa := xa + xb
  let xd := rotl (xd ^^^ xa) 8
  let xc := xc + xd
  let xb := rotl (xb ^^^ xc) 7
  (((s.set! a xa).set! b xb).set! c xc).set! d xd

/-- One round on the columns and one on the diagonals. -/
def doubleRound (s : Block) : Block :=
  s |> quarter 0 4 8 12 |> quarter 1 5 9 13 |> quarter 2 6 10 14 |> quarter 3 7 11 15
    |> quarter 0 5 10 15 |> quarter 1 6 11 12 |> quarter 2 7 8 13 |> quarter 3 4 9 14

def doubleRounds : Nat → Block → Block
  | 0, s => s
  | n + 1, s => doubleRounds n (doubleRound s)

/-- The block of the key stream with a number. -/
def block (key : List UInt32) (number : Nat) : Block :=
  let start : Block := #[0x61707865, 0x3320646e, 0x79622d32, 0x6b206574] ++ key.toArray ++
    #[UInt32.ofNat number, UInt32.ofNat (number / 2 ^ 32), 0, 0]
  Array.zipWith (· + ·) start (doubleRounds 6 start)

/-! ## The generator -/

/-- A source of random numbers: a key and how many 32-bit words were used. -/
structure Source where
  key : List UInt32
  used : Nat := 0

namespace Source

def ofSeed (seed : UInt64) : Source := ⟨keyWords 8 seed, 0⟩

def wordAt (s : Source) (i : Nat) : UInt32 := word (block s.key (i / 16)) (i % 16)

/-- The next 64 bits, the low word first. -/
def next (s : Source) : UInt64 × Source :=
  ((s.wordAt s.used).toUInt64 ||| ((s.wordAt (s.used + 1)).toUInt64 <<< 32),
    { s with used := s.used + 2 })

end Source

/-! ## Uniform doubles -/

/-- The double below a positive one. -/
def below (x : Float) : Float := Float.ofBits (x.toBits - 1)

/-- The double that is two to the power of -52. -/
def ulp : Float := Float.ofBits 0x3cb0000000000000

/-- The largest double that a fraction can be: just below one. -/
def maxFraction : Float := 1.0 - ulp

/-- Lowers a scale until the largest sample is in bounds. -/
def fitScale (low high : Float) : Nat → Float → Float
  | 0, scale => scale
  | fuel + 1, scale =>
    if scale * maxFraction + low > high then fitScale low high fuel (below scale) else scale

/-- The scale of samples from `-spread` to `spread`, before it is fitted. -/
def fullScale (spread : Float) : Float := (spread - -spread) / maxFraction

/-- Whether samples can be drawn from `-spread` to `spread`. -/
def drawable (spread : Float) : Bool := -spread ≤ spread && finiteFloat (fullScale spread)

/-- A sample from `-spread` to `spread`, both included. -/
def symmetric? (spread : Float) (s : Source) : Option (Float × Source) :=
  if drawable spread then
    let (bits, s) := s.next
    let fraction := Float.ofBits ((bits >>> 12) ||| 0x3ff0000000000000) - 1.0
    some (fraction * fitScale (-spread) spread 64 (fullScale spread) + -spread, s)
  else none

end HubDevice.Random
