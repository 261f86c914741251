import AutoDJ.Player.Basic

namespace AutoDJ

structure BuildFlags where
  albums : Bool := false
  stickers : Bool := false
deriving Repr, DecidableEq

namespace BuildFlags

def isBuilding (flags : BuildFlags) : CacheKind → Bool
  | .albums => flags.albums
  | .stickers => flags.stickers

def set (flags : BuildFlags) (building : Bool) : CacheKind → BuildFlags
  | .albums => { flags with albums := building }
  | .stickers => { flags with stickers := building }

def release (flags : BuildFlags) (kind : CacheKind) : BuildFlags :=
  flags.set false kind

def releaseAll (flags : BuildFlags) (kinds : List CacheKind) : BuildFlags :=
  kinds.foldl release flags

/--
Raise the flags of all the given kinds. If one of them is up already, the flags raised so far are
lowered again.
-/
def claim (kinds : CacheKinds) : Play BuildFlags Unit :=
  go kinds.toList []
where
  go : List CacheKind → List CacheKind → Play BuildFlags Unit
  | [], _ => return
  | kind :: kinds, claimed => do
    if (← get).isBuilding kind then
      modify fun flags => flags.releaseAll claimed
      throw (.busy kind)
    modify fun flags => flags.set true kind
    go kinds (claimed ++ [kind])

@[simp]
theorem isBuilding_set {flags : BuildFlags} {building : Bool} {kind other : CacheKind} :
    (flags.set building kind).isBuilding other
      = if other = kind then building else flags.isBuilding other := by
  cases kind <;> cases other <;> simp [set, isBuilding]

end BuildFlags

end AutoDJ
