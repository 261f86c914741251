import AutoDJ.Random.WordStream

/-!
This module contains the stream of random words that belongs to a numeric seed: the ChaCha stream
cipher with twelve rounds, keyed with words that a linear congruential generator makes of the seed.
-/

namespace AutoDJ.ChaCha

abbrev Block := Vector UInt32 16

def rotateLeft (x : UInt32) (n : UInt32) : UInt32 :=
  x <<< n ||| x >>> (32 - n)

def rotateRight (x : UInt32) (n : UInt32) : UInt32 :=
  if n = 0 then x else x >>> n ||| x <<< (32 - n)

def advanceSeed (state : UInt64) : UInt64 :=
  state * 6364136223846793005 + 11634580027462260723

/--
The key word belonging to a state of the generator: its high bits are folded and then rotated by an
amount that the topmost five bits give.
-/
def keyWord (state : UInt64) : UInt32 :=
  let folded := (((state >>> 18) ^^^ state) >>> 27).toUInt32
  rotateRight folded (state >>> 59).toUInt32

def key (seed : UInt64) : Vector UInt32 8 :=
  Vector.ofFn fun i => keyWord (Nat.repeat advanceSeed (i.val + 1) seed)

def quarterRound (b : Block) (i j k l : Fin 16) : Block :=
  let b := b.set i (b[i] + b[j])
  let b := b.set l (rotateLeft (b[l] ^^^ b[i]) 16)
  let b := b.set k (b[k] + b[l])
  let b := b.set j (rotateLeft (b[j] ^^^ b[k]) 12)
  let b := b.set i (b[i] + b[j])
  let b := b.set l (rotateLeft (b[l] ^^^ b[i]) 8)
  let b := b.set k (b[k] + b[l])
  b.set j (rotateLeft (b[j] ^^^ b[k]) 7)

def doubleRound (b : Block) : Block :=
  let b := quarterRound b 0 4 8 12
  let b := quarterRound b 1 5 9 13
  let b := quarterRound b 2 6 10 14
  let b := quarterRound b 3 7 11 15
  let b := quarterRound b 0 5 10 15
  let b := quarterRound b 1 6 11 12
  let b := quarterRound b 2 7 8 13
  quarterRound b 3 4 9 14

/--
The state before the rounds: four constants, the key, a 64-bit counter and an empty nonce.
-/
def initial (key : Vector UInt32 8) (counter : Nat) : Block :=
  (#v[0x61707865, 0x3320646e, 0x79622d32, 0x6b206574] : Vector UInt32 4) ++ key
    ++ (#v[UInt32.ofNat counter, UInt32.ofNat (counter >>> 32), 0, 0] : Vector UInt32 4)

def block (key : Vector UInt32 8) (counter : Nat) : Block :=
  let start := initial key counter
  Vector.zipWith (· + ·) (Nat.repeat doubleRound 6 start) start

def stream (seed : UInt64) : WordStream :=
  let key := key seed
  { word := fun i => (block key (i / 16)).get ⟨i % 16, Nat.mod_lt _ (by decide)⟩ }

end AutoDJ.ChaCha

namespace AutoDJ.WordStream

def ofSeed (seed : UInt64) : WordStream :=
  ChaCha.stream seed

end AutoDJ.WordStream
