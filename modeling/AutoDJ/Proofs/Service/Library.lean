import AutoDJ.Proofs.Play.Ends
import AutoDJ.Service.Run

namespace AutoDJ.Service

variable {σ ω : Type} {b : Backend σ ω} {sv : Service σ ω}

def token? (b : Backend σ ω) (sv : Service σ ω) : Option String :=
  match sv.partitions with
  | [] => none
  | first :: _ =>
    match b.player.stats (first.handle, sv.room.world) with
    | .ok stats _ => some stats.updated
    | .error .. => none

def asked (b : Backend σ ω) (sv : Service σ ω) : Service σ ω :=
  match sv.partitions with
  | [] => sv
  | first :: rest =>
    match b.player.stats (first.handle, sv.room.world) with
    | .ok _ (handle, world) | .error _ (handle, world) =>
      { sv with partitions := { first with handle } :: rest, room := { sv.room with world } }

theorem asked_eq (b : Backend σ ω) (sv : Service σ ω)
    : ∃ partitions room, asked b sv = { sv with partitions, room }
        ∧ partitions.length = sv.partitions.length := by
  unfold asked
  split
  . exact ⟨sv.partitions, sv.room, rfl, rfl⟩
  . next h =>
    split <;> exact ⟨_, _, rfl, by simp [h]⟩

theorem checkLibrary_of_unread (h : token? b sv = none) : checkLibrary b sv = asked b sv := by
  unfold token? at h
  unfold checkLibrary asked
  cases hpartitions : sv.partitions with
  | nil => rfl
  | cons first rest =>
    rw [hpartitions] at h
    dsimp only at *
    cases hstats : b.player.stats (first.handle, sv.room.world) with
    | ok stats state => simp [hstats] at h
    | error e state => rfl

theorem checkLibrary_of_read {token : String} (h : token? b sv = some token)
    : checkLibrary b sv =
        if sv.libraryToken.any (· != token) then
          (requestBuild b .all).after { asked b sv with libraryToken := some token }
        else
          { asked b sv with libraryToken := some token } := by
  unfold token? at h
  unfold checkLibrary asked
  cases hpartitions : sv.partitions with
  | nil => simp [hpartitions] at h
  | cons first rest =>
    rw [hpartitions] at h
    dsimp only at *
    cases hstats : b.player.stats (first.handle, sv.room.world) with
    | ok stats state =>
      rw [hstats] at h
      cases h
      dsimp only
      split
      . unfold Play.after
        split
        . next heq => rw [heq]
        . next heq => rw [heq]
      . rfl
    | error e state => simp [hstats] at h

end AutoDJ.Service
