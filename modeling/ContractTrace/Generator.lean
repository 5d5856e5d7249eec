import ContractTrace.Power

/-! The generator of substituted values: the ChaCha stream with twelve rounds under a key
that is expanded from a 64-bit seed. A draw is 128 bits of the stream. -/

namespace ContractTrace

/-- A key and the number of draws taken so far. -/
structure Generator where
  key : Vector UInt32 8
  drawn : Nat
deriving DecidableEq, Repr

namespace Generator

/-! ### The key -/

/-- The linear congruential step of the seed expansion. -/
def advanceSeed (state : UInt64) : UInt64 :=
  state * 6364136223846793005 + 11634580027462260723

def rotateRight (x : UInt32) (n : UInt32) : UInt32 := (x >>> n) ||| (x <<< ((32 - n) % 32))

/-- The output permutation of the seed expansion. -/
def seedWord (state : UInt64) : UInt32 :=
  rotateRight (((state >>> 18) ^^^ state) >>> 27).toUInt32 (state >>> 59).toUInt32

/-- The state after `n` steps. -/
def seedState (seed : UInt64) : Nat → UInt64
  | 0 => seed
  | n + 1 => advanceSeed (seedState seed n)

def ofSeed (seed : UInt64) : Generator where
  key := Vector.ofFn fun i => seedWord (seedState seed (i.val + 1))
  drawn := 0

/-! ### The stream -/

abbrev Block := Vector UInt32 16

def rotateLeft (x : UInt32) (n : UInt32) : UInt32 := (x <<< n) ||| (x >>> (32 - n))

def quarterRound (a b c d : Fin 16) (s : Block) : Block :=
  let s := s.set a (s[a] + s[b])
  let s := s.set d (rotateLeft (s[d] ^^^ s[a]) 16)
  let s := s.set c (s[c] + s[d])
  let s := s.set b (rotateLeft (s[b] ^^^ s[c]) 12)
  let s := s.set a (s[a] + s[b])
  let s := s.set d (rotateLeft (s[d] ^^^ s[a]) 8)
  let s := s.set c (s[c] + s[d])
  s.set b (rotateLeft (s[b] ^^^ s[c]) 7)

/-- A round over the columns and a round over the diagonals. -/
def doubleRound (s : Block) : Block :=
  let s := quarterRound 0 4 8 12 s
  let s := quarterRound 1 5 9 13 s
  let s := quarterRound 2 6 10 14 s
  let s := quarterRound 3 7 11 15 s
  let s := quarterRound 0 5 10 15 s
  let s := quarterRound 1 6 11 12 s
  let s := quarterRound 2 7 8 13 s
  quarterRound 3 4 9 14 s

def rounds : Nat → Block → Block
  | 0, s => s
  | n + 1, s => rounds n (doubleRound s)

/-- The state in front of the rounds; the block counter has two words. -/
def initialBlock (key : Vector UInt32 8) (counter : Nat) : Block :=
  #v[0x61707865, 0x3320646e, 0x79622d32, 0x6b206574, key[0], key[1], key[2], key[3],
    key[4], key[5], key[6], key[7], UInt32.ofNat counter, UInt32.ofNat (counter / twoPow 32), 0, 0]

/-- A block of the stream. -/
def block (key : Vector UInt32 8) (counter : Nat) : Block :=
  let s := initialBlock key counter
  (rounds 6 s).zipWith (· + ·) s

/-- Four words of a block, the least significant first. -/
def quarter (s : Block) (i : Nat) : Nat :=
  let word (k : Nat) := (s.toArray.getD (4 * i + k) 0).toNat
  word 0 + word 1 * twoPow 32 + word 2 * twoPow 64 + word 3 * twoPow 96

/-- The next 128 bits. -/
def draw (g : Generator) : Nat × Generator :=
  (quarter (block g.key (g.drawn / 4)) (g.drawn % 4), { g with drawn := g.drawn + 1 })

/-- The number of draws after which the stream repeats. -/
def period : Nat := twoPow 66

/-! ### Values in a range -/

/-- The greatest low half of a product that is accepted for a range of `span` values: one
less than the greatest multiple of `span` by a power of two that 128 bits hold. -/
def zone (span : Nat) : Nat := span * twoPow (127 - Nat.log2 span) - 1

/-- A number below `span`: the high half of a draw times `span`, where the low half is
accepted. A stream that never gives one would be searched for its whole period. -/
def below (span : Nat) : Nat → Generator → Nat × Generator
  | 0, g => (0, g)
  | tries + 1, g =>
    let (v, g) := g.draw
    let product := v * span
    if product % twoPow 128 ≤ zone span then (product / twoPow 128, g) else below span tries g

/-- A value from `least` to `greatest`, of 128 bits with sign. -/
def between (least greatest : Int) (g : Generator) : Int × Generator :=
  let span := (greatest - least + 1).toNat
  if span = twoPow 128 then
    let (v, g) := g.draw
    ((BitVec.ofNat 128 v).toInt, g)
  else
    let (n, g) := below span period g
    (least + n, g)

end Generator

end ContractTrace
