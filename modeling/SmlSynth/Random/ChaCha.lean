import SmlSynth.Random.Source

/-!
# The ChaCha keystream as a random source

ChaCha with twelve rounds, a 64-bit block counter and an all-zero nonce. A block is
sixteen 32-bit words, read in pairs as eight 64-bit words, the first of a pair being
the low half. A 64-bit seed is stretched to the 256-bit key by a permuted
congruential generator.

* `ChaCha.block`: the keystream block at a counter.
* `ChaCha.ofKey`, `ChaCha.ofSeed`: the keystream of a key, and of a seed.
* `Entropy.standard`: the supplier that gives each seed its keystream.
-/

namespace SmlSynth

/-- **A position in a keystream**: the key, the counter of the block to come, and
the words of the current block that are still to be drawn. -/
structure ChaCha where
  key : Vector UInt32 8
  counter : UInt64
  pending : List UInt64

namespace ChaCha

/-! ## The block function -/

/-- Rotation of a word to the left by `r` bits, `0 < r < 32`. -/
def rotateLeft (x r : UInt32) : UInt32 := (x <<< r) ||| (x >>> (32 - r))

/-- The quarter round on the words at `a`, `b`, `c` and `d`. -/
def quarterRound (a b c d : Fin 16) (v : Vector UInt32 16) : Vector UInt32 16 :=
  let v := v.set a (v[a] + v[b])
  let v := v.set d (rotateLeft (v[d] ^^^ v[a]) 16)
  let v := v.set c (v[c] + v[d])
  let v := v.set b (rotateLeft (v[b] ^^^ v[c]) 12)
  let v := v.set a (v[a] + v[b])
  let v := v.set d (rotateLeft (v[d] ^^^ v[a]) 8)
  let v := v.set c (v[c] + v[d])
  v.set b (rotateLeft (v[b] ^^^ v[c]) 7)

/-- A round on the columns of the state, seen as a four by four square. -/
def columnRound (v : Vector UInt32 16) : Vector UInt32 16 :=
  quarterRound 3 7 11 15 (quarterRound 2 6 10 14 (quarterRound 1 5 9 13
    (quarterRound 0 4 8 12 v)))

/-- A round on its diagonals. -/
def diagonalRound (v : Vector UInt32 16) : Vector UInt32 16 :=
  quarterRound 3 4 9 14 (quarterRound 2 7 8 13 (quarterRound 1 6 11 12
    (quarterRound 0 5 10 15 v)))

/-- The state at a counter: the constants, the key, the counter with its low half
first, and the nonce. -/
def initial (key : Vector UInt32 8) (counter : UInt64) : Vector UInt32 16 :=
  #v[0x61707865, 0x3320646e, 0x79622d32, 0x6b206574,
    key[0], key[1], key[2], key[3], key[4], key[5], key[6], key[7],
    counter.toUInt32, (counter >>> 32).toUInt32, 0, 0]

/-- **The keystream block at a counter**: six double rounds, then the initial state
is added word by word. -/
def block (key : Vector UInt32 8) (counter : UInt64) : Vector UInt32 16 :=
  let start := initial key counter
  let mixed := Nat.repeat (fun v => diagonalRound (columnRound v)) 6 start
  Vector.zipWith (· + ·) mixed start

/-- Two words as one, the first being the low half. -/
def join (low high : UInt32) : UInt64 := (high.toUInt64 <<< 32) ||| low.toUInt64

/-- The first of the eight words of a block. -/
def firstWord (b : Vector UInt32 16) : UInt64 := join b[0] b[1]

/-- The other seven. -/
def laterWords (b : Vector UInt32 16) : List UInt64 :=
  [join b[2] b[3], join b[4] b[5], join b[6] b[7], join b[8] b[9],
    join b[10] b[11], join b[12] b[13], join b[14] b[15]]

/-! ## The keystream -/

/-- The next word: of the current block, or else the first of a new one. -/
def next (s : ChaCha) : UInt64 × ChaCha :=
  match s.pending with
  | w :: rest => (w, { s with pending := rest })
  | [] =>
    let b := block s.key s.counter
    (firstWord b, { s with counter := s.counter + 1, pending := laterWords b })

instance : Source ChaCha := ⟨next⟩

/-- The start of the keystream of a key. -/
def ofKey (key : Vector UInt32 8) : ChaCha := ⟨key, 0, []⟩

/-- The key whose words are given by 32 bytes, the low byte of a word first. -/
def keyOfBytes (bytes : Vector UInt8 32) : Vector UInt32 8 :=
  Vector.ofFn fun i =>
    bytes[4 * i.val].toUInt32 ||| (bytes[4 * i.val + 1].toUInt32 <<< 8) |||
      (bytes[4 * i.val + 2].toUInt32 <<< 16) ||| (bytes[4 * i.val + 3].toUInt32 <<< 24)

/-! ## Seeds -/

/-- One step of the linear congruence that stretches a seed. -/
def seedStep (state : UInt64) : UInt64 := state * 6364136223846793005 + 11634580027462260723

/-- The output permutation of a state: a shifted word, turned right by its top bits. -/
def seedWord (state : UInt64) : UInt32 :=
  let x := (((state >>> 18) ^^^ state) >>> 27).toUInt32
  let turn := (state >>> 59).toUInt32
  (x >>> turn) ||| (x <<< (32 - turn))

/-- The key of a seed: the outputs of the first eight states after it. -/
def keyOfSeed (seed : UInt64) : Vector UInt32 8 :=
  Vector.ofFn fun i => seedWord (Nat.repeat seedStep (i.val + 1) seed)

/-- **The keystream of a seed.** -/
def ofSeed (seed : UInt64) : ChaCha := ofKey (keyOfSeed seed)

end ChaCha

/-- **The randomness a program runs on**: keystreams, with redraw loops cut off only
after far more candidates than a keystream is ever seen to reject. -/
def Entropy.standard : Entropy ChaCha := ⟨ChaCha.ofSeed, 1000000⟩

end SmlSynth
