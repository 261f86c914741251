import AutoDJ.Random.WordStream

/-!
This module contains the drawing of a uniform sample from a stream of unknown length: the first items
fill the reservoir, and each later one takes a random place, which may lie outside.
-/

namespace AutoDJ

/--
A sample of at most `capacity` of the `seen` items offered so far.
-/
structure Reservoir (α : Type) where
  capacity : Nat
  seen : Nat := 0
  items : Array α := #[]
deriving Repr

namespace Reservoir

def empty (capacity : Nat) : Reservoir α :=
  { capacity }

def isFull (res : Reservoir α) : Bool :=
  res.capacity ≤ res.items.size

def push (res : Reservoir α) (item : α) : Reservoir α :=
  { res with seen := res.seen + 1, items := res.items.push item }

/--
Let an item take the place `slot` of a full reservoir, if there is such a place.
-/
def replace (res : Reservoir α) (item : α) (slot : Nat) : Reservoir α :=
  { res with seen := res.seen + 1, items := res.items.setIfInBounds slot item }

/--
Offer the next item of the stream. The first result tells whether it was kept.
-/
def offer (res : Reservoir α) (item : α) (r : WordStream) : Bool × Reservoir α × WordStream :=
  if res.isFull then
    let (slot, r) := r.below64 (res.seen + 1)
    (slot < res.capacity, res.replace item slot, r)
  else
    (true, res.push item, r)

def offerAll (res : Reservoir α) (items : List α) (r : WordStream) :
    List Bool × Reservoir α × WordStream :=
  go items res r []
where
  go : List α → Reservoir α → WordStream → List Bool → List Bool × Reservoir α × WordStream
  | [], res, r, kept => (kept.reverse, res, r)
  | item :: items, res, r, kept =>
    let (isKept, res, r) := res.offer item r
    go items res r (isKept :: kept)

def shuffled (res : Reservoir α) (r : WordStream) : List α × WordStream :=
  let (items, r) := r.shuffle res.items
  (items.toList, r)

end Reservoir

end AutoDJ
