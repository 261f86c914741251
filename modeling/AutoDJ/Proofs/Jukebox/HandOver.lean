import AutoDJ.Jukebox.Fill
import AutoDJ.Proofs.Play.Ends

namespace AutoDJ.Booth

variable {s : Type} {booth : Booth s} {lane : Lane}
  {J : List Candidate → Tally → Deck s → Prop}

theorem hand_ends {c : Candidate} {tally : Tally} {deck : Deck s} {Q : Tally → Deck s → Prop}
    {E : Error → Deck s → Prop}
    : (booth.hand c tally).Ends deck Q E
        ↔ (match c.pick with
          | .track uri _ => booth.player.addTrack uri
          | .album key => booth.player.addAlbum key.album key.albumArtist).Ends deck.device
            (fun _ device => Q { tally with added := tally.added + 1 } { deck with device })
            (fun e device => Q { tally with lastError := some e } { deck with device }) := by
  unfold hand
  rw [Play.ends_bind, Play.ends_outcome, Deck.ends_onDevice]
  rfl

theorem handOver_ends (count : Nat)
    (hhand : ∀ c rest tally deck, tally.added < count → J (c :: rest) tally deck
      → (booth.hand c tally).Ends { deck with jukebox := deck.jukebox.setLane rest lane } (J rest)
          (fun _ _ => False))
    (cs : List Candidate) (tally : Tally) (deck : Deck s) (h : J cs tally deck)
    : (booth.handOver lane count cs tally).Ends deck
        (fun tally deck => ∃ left, J left tally deck ∧ (left = [] ∨ count ≤ tally.added))
        (fun _ _ => False) := by
  induction cs generalizing tally deck with
  | nil => exact ⟨[], h, .inl rfl⟩
  | cons c rest ih =>
    unfold handOver
    rw [Play.ends_ite]
    refine ⟨fun henough => ⟨c :: rest, h, .inr henough⟩, fun hmissing => ?_⟩
    rw [Play.ends_bind, Deck.ends_modifyJukebox, Play.ends_bind]
    apply (hhand c rest tally deck (Nat.not_le.mp hmissing) h).mono
    . intro tally deck h
      exact ih tally deck h
    . intro _ _ hfalse
      exact hfalse

theorem handOverWaiting_ends (booth : Booth s) (plan : FillPlan) (count : Nat)
    (hhand : ∀ c rest tally deck, tally.added < count → J (c :: rest) tally deck
      → (booth.hand c tally).Ends { deck with jukebox := deck.jukebox.setLane rest .waiting } (J rest)
          (fun _ _ => False))
    (hreplenish : ∀ rest tally deck target, J rest tally deck
      → (booth.replenish plan (count - tally.added) target).Ends deck
          (fun _ deck => J deck.jukebox.waiting tally deck)
          (fun _ deck => J deck.jukebox.waiting tally deck))
    (cs : List Candidate) (tally : Tally) (deck : Deck s) (h : J cs tally deck)
    : (booth.handOverWaiting plan count cs tally).Ends deck
        (fun tally deck => ∃ left, J left tally deck ∧ (left = [] ∨ count ≤ tally.added))
        (fun _ _ => False) := by
  induction cs generalizing tally deck with
  | nil => exact ⟨[], h, .inl rfl⟩
  | cons c rest ih =>
    unfold handOverWaiting
    rw [Play.ends_ite]
    refine ⟨fun henough => ⟨c :: rest, h, .inr henough⟩, fun hmissing => ?_⟩
    rw [Play.ends_bind, Deck.ends_modifyJukebox, Play.ends_bind]
    apply (hhand c rest tally deck (Nat.not_le.mp hmissing) h).mono
    . intro tally deck h
      rw [Play.ends_ite]
      refine ⟨fun _ => ?_, fun _ => ih tally deck h⟩
      -- a refill that fails is passed over, and what waits now takes the place of the rest
      rw [Play.ends_bind, Play.ends_outcome]
      apply (hreplenish rest tally deck _ h).imp
      intro deck h
      exact handOver_ends count hhand deck.jukebox.waiting tally deck h
    . intro _ _ hfalse
      exact hfalse

end AutoDJ.Booth
