import AutoDJ.Cache.Flags
import AutoDJ.Proofs.Play.Ends

namespace AutoDJ

theorem CacheKinds.nodup_toList (kinds : CacheKinds) : kinds.toList.Nodup :=
  List.Pairwise.filter _ (by decide)

namespace BuildFlags

variable {flags start : BuildFlags}

theorem eq_of_isBuilding (h : ∀ kind, flags.isBuilding kind = start.isBuilding kind) : flags = start := by
  have halbums := h .albums
  have hstickers := h .stickers
  cases flags
  cases start
  simp_all [isBuilding]

@[simp]
theorem isBuilding_releaseAll {kinds : List CacheKind} {kind : CacheKind}
    : (flags.releaseAll kinds).isBuilding kind = (flags.isBuilding kind && decide (kind ∉ kinds)) := by
  unfold releaseAll
  induction kinds generalizing flags with
  | nil => simp
  | cons other kinds ih =>
    rw [List.foldl_cons, ih, release, isBuilding_set]
    by_cases h : kind = other <;> simp [h]

theorem claim_go_ends (start flags : BuildFlags) (raised todo : List CacheKind)
    (hnodup : (raised ++ todo).Nodup)
    (hdown : ∀ kind ∈ raised, start.isBuilding kind = false)
    (hflags : ∀ kind, flags.isBuilding kind = (start.isBuilding kind || decide (kind ∈ raised)))
    : (claim.go todo raised).Ends flags
        (fun _ after => (∀ kind ∈ raised ++ todo, start.isBuilding kind = false)
          ∧ ∀ kind, after.isBuilding kind = (start.isBuilding kind || decide (kind ∈ raised ++ todo)))
        (fun e after => after = start
          ∧ ∃ kind ∈ todo, start.isBuilding kind = true ∧ e = .busy kind) := by
  -- the flags of `raised` have been raised so far
  induction todo generalizing flags raised with
  | nil => simpa [claim.go] using ⟨hdown, hflags⟩
  | cons kind todo ih =>
    have hnotRaised : kind ∉ raised := fun hmem =>
      (List.nodup_append.mp hnodup).2.2 kind hmem kind List.mem_cons_self rfl
    have hkind : flags.isBuilding kind = start.isBuilding kind := by simp [hflags, hnotRaised]
    unfold claim.go
    simp only [Play.ends_bind, Play.ends_get, Play.ends_ite, Play.ends_modify, Play.ends_throw]
    refine ⟨fun hup => ⟨?_, kind, List.mem_cons_self, by rwa [← hkind], rfl⟩, fun hnotUp => ?_⟩
    . -- what has been raised was down before
      apply eq_of_isBuilding
      intro other
      by_cases hother : other ∈ raised <;> simp [hflags, hother, hdown]
    . have hstart : start.isBuilding kind = false := by simpa [hkind] using hnotUp
      have hrest := ih (flags.set true kind) (raised ++ [kind]) (by simpa using hnodup)
        (by
          intro other hother
          obtain hother | hother := List.mem_append.mp hother
          . exact hdown other hother
          . rwa [List.mem_singleton.mp hother])
        (by
          intro other
          by_cases hother : other = kind <;> simp [hother, hflags])
      apply hrest.mono
      . intro _ after h
        simpa using h
      . rintro e after ⟨hafter, other, hother, herror⟩
        exact ⟨hafter, other, List.mem_cons_of_mem _ hother, herror⟩

theorem claim_ends (kinds : CacheKinds) (flags : BuildFlags)
    : (claim kinds).Ends flags
        (fun _ after => (∀ kind, kinds.contains kind = true → flags.isBuilding kind = false)
          ∧ ∀ kind, after.isBuilding kind = (flags.isBuilding kind || kinds.contains kind))
        (fun e after => after = flags
          ∧ ∃ kind, kinds.contains kind = true ∧ flags.isBuilding kind = true ∧ e = .busy kind) := by
  apply (claim_go_ends flags flags [] kinds.toList kinds.nodup_toList (by simp) (by simp)).mono
  . intro _ after h
    simpa using h
  . intro e after h
    simpa using h

end BuildFlags

end AutoDJ
