/-!
This module contains streams of random words and what is drawn from them: numbers below a bound and
shuffles.

Numbers are drawn without bias: a word is scaled to the bound, and words whose scaled value falls
into the incomplete last interval are passed over.
-/

namespace AutoDJ

structure WordStream where
  word : Nat → UInt32
  position : Nat := 0

namespace WordStream

def next32 (r : WordStream) : UInt32 × WordStream :=
  (r.word r.position, { r with position := r.position + 1 })

def next64 (r : WordStream) : UInt64 × WordStream :=
  let (low, r) := r.next32
  let (high, r) := r.next32
  (high.toUInt64 <<< 32 ||| low.toUInt64, r)

/--
How many words a single draw may pass over. Each word is passed over with probability below one
half, so that a draw which exhausts them does not occur in practice; it then takes the last word as
it is.
-/
def patience : Nat := 128

/--
The largest low half of a scaled word that lies in a complete interval, for words of `bits` bits:
`bound` shifted to the left until its highest bit is set, less one.
-/
def zone (bits bound : Nat) : Nat :=
  (bound <<< (bits - (Nat.log2 bound + 1))) - 1

/--
Scale words of `bits` bits to numbers below `bound` until one lies in a complete interval.
-/
def below (bits : Nat) (draw : WordStream → Nat × WordStream) (bound : Nat) (r : WordStream) :
    Nat × WordStream :=
  go patience r
where
  go : Nat → WordStream → Nat × WordStream
  | 0, r =>
    let (word, r) := draw r
    ((word * bound) >>> bits, r)
  | patience + 1, r =>
    let (word, r) := draw r
    if word * bound % (1 <<< bits) ≤ zone bits bound then
      ((word * bound) >>> bits, r)
    else
      go patience r

def below32 (bound : Nat) (r : WordStream) : Nat × WordStream :=
  below 32 (fun r => let (word, r) := r.next32; (word.toNat, r)) bound r

def below64 (bound : Nat) (r : WordStream) : Nat × WordStream :=
  below 64 (fun r => let (word, r) := r.next64; (word.toNat, r)) bound r

def shuffle (items : Array α) (r : WordStream) : Array α × WordStream :=
  go (items.size - 1) items r
where
  go : Nat → Array α → WordStream → Array α × WordStream
  | 0, items, r => (items, r)
  | i + 1, items, r =>
    let (j, r) := r.below32 (i + 2)
    go i (items.swapIfInBounds (i + 1) j) r

end WordStream

end AutoDJ
