import AutoDJ.Player.Basic

namespace AutoDJ

/--
A listing has fewer songs than this.
-/
def listingLimit : Nat := UInt64.size

/--
Fetch a listing page by page and show its songs to `visit`, one after another. A page that is shorter
than asked for is the last one. The result is the number of songs seen.
-/
def scanPages (pageSize : Nat) (fetch : (offset limit : Nat) → Play s (List Song))
    (visit : Song → s → s) : Play s Nat :=
  go listingLimit 0
where
  /-- Every full page holds a song, so that no listing has more than `listingLimit` of them. -/
  go : Nat → Nat → Play s Nat
  | 0, _ => throw (.protocol "listing" "more songs than can be counted")
  | pages + 1, offset => do
    let page ← fetch offset (max pageSize 1)
    modify fun state => page.foldl (fun state song => visit song state) state
    let offset := offset + page.length
    if page.length < max pageSize 1 then
      return offset
    else
      go pages offset

end AutoDJ
