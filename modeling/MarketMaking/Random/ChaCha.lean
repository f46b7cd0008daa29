import MarketMaking.Power

/-!
# A seeded stream of random words

ChaCha with twelve rounds as a generator: blocks of sixteen 32-bit words under a 256-bit key and a
64-bit block counter, handed out in order.
-/

namespace MarketMaking.Random

/-- The sixteen words of a block. -/
abbrev Block := Vector UInt32 16

/-- Rotate a word to the left. -/
def rotateLeft (x : UInt32) (bits : UInt32) : UInt32 := (x <<< bits) ||| (x >>> (32 - bits))

/-- Rotate a word to the right. -/
def rotateRight (x : UInt32) (bits : UInt32) : UInt32 := rotateLeft x (32 - bits)

/-- Mix four words of a block. -/
def quarterRound (b : Block) (i j k l : Fin 16) : Block :=
  let p := b[i] + b[j]
  let s := rotateLeft (b[l] ^^^ p) 16
  let r := b[k] + s
  let q := rotateLeft (b[j] ^^^ r) 12
  let p := p + q
  let s := rotateLeft (s ^^^ p) 8
  let r := r + s
  let q := rotateLeft (q ^^^ r) 7
  (((b.set i p).set j q).set k r).set l s

/-- Mix the columns of a block, then its diagonals. -/
def doubleRound (b : Block) : Block :=
  let b := quarterRound b 0 4 8 12
  let b := quarterRound b 1 5 9 13
  let b := quarterRound b 2 6 10 14
  let b := quarterRound b 3 7 11 15
  let b := quarterRound b 0 5 10 15
  let b := quarterRound b 1 6 11 12
  let b := quarterRound b 2 7 8 13
  quarterRound b 3 4 9 14

/-- The constants in front of every block. -/
def constants : Vector UInt32 4 := #v[0x61707865, 0x3320646e, 0x79622d32, 0x6b206574]

/-- The block with the given number under a key. -/
def block (key : Vector UInt32 8) (number : UInt64) : Block :=
  let start : Block :=
    (constants ++ key ++ #v[number.toUInt32, (number >>> 32).toUInt32, 0, 0]).cast rfl
  let mixed := Nat.repeat doubleRound 6 start
  Vector.zipWith (· + ·) mixed start

/-- A generator: its key, the number of the next block, and the words left of the last one. -/
structure Stream where
  key : Vector UInt32 8
  next : UInt64
  pending : List UInt32

namespace Stream

/-- One step of the generator that spreads a seed over a key, with the word that it yields. -/
def spread (s : UInt64) : UInt64 × UInt32 :=
  let s := s * 6364136223846793005 + 11634580027462260723
  (s, rotateRight (((s >>> 18) ^^^ s) >>> 27).toUInt32 (s >>> 59).toUInt32)

/-- The first `count` words that a seed is spread to. -/
def spreadMany : (count : Nat) → UInt64 → List UInt32
  | 0, _ => []
  | count + 1, s =>
      let (s, word) := spread s
      word :: spreadMany count s

/-- The generator of a seed. -/
def ofSeed (seed : UInt64) : Stream where
  key := Vector.ofFn fun i => (spreadMany 8 seed).getD i 0
  next := 0
  pending := []

/-- The next word. -/
def word (s : Stream) : UInt32 × Stream :=
  match s.pending with
  | w :: ws => (w, { s with pending := ws })
  | [] =>
      match (block s.key s.next).toList with
      | w :: ws => (w, { s with next := s.next + 1, pending := ws })
      | [] => (0, s)

/-- The next two words as one of 64 bits, the low half first. -/
def word64 (s : Stream) : UInt64 × Stream :=
  let (low, s) := s.word
  let (high, s) := s.word
  (low.toUInt64 ||| (high.toUInt64 <<< 32), s)

/-- True with the probability `threshold / 2 ^ 64`. -/
def chance (s : Stream) (threshold : Nat) : Bool × Stream :=
  let (w, s) := s.word64
  (decide (w.toNat < threshold), s)

/-- The greatest low half of a product that is accepted when one of `count` numbers is drawn from
words of so many bits: beyond it some numbers would be drawn more often than others. -/
def acceptance (bits count : Nat) : Nat := (count <<< (bits - 1 - count.log2)) - 1

/-- Draw words until the low half of the product with `count` is accepted; the high half is then one
of `count` numbers. A rejection has a probability below one half, and after `fuel` of them the
answer is zero. -/
def drawBelow (bits count : Nat) (draw : Stream → Nat × Stream) :
    (fuel : Nat) → Stream → Nat × Stream
  | 0, s => (0, s)
  | fuel + 1, s =>
      let (v, s) := draw s
      let product := v * count
      if product % pow2 bits ≤ acceptance bits count then (product / pow2 bits, s)
      else drawBelow bits count draw fuel s

/-- One of the numbers below `count`, drawn from 32-bit words. -/
def below32 (s : Stream) (count : Nat) : Nat × Stream :=
  drawBelow 32 count (fun s => let (w, s) := s.word; (w.toNat, s)) 1000 s

/-- One of the numbers below `count`, drawn from 64-bit words. -/
def below64 (s : Stream) (count : Nat) : Nat × Stream :=
  drawBelow 64 count (fun s => let (w, s) := s.word64; (w.toNat, s)) 1000 s

end Stream

end MarketMaking.Random
