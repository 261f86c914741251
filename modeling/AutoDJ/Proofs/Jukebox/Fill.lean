import AutoDJ.Proofs.Jukebox.HandOver
import AutoDJ.Proofs.Jukebox.Shortage

namespace AutoDJ

def Jukebox.plan (jukebox : Jukebox) : FillPlan :=
  { lane := .waiting, albums := jukebox.addsAlbums, enforce := jukebox.enforcing }

def Jukebox.requestPlan (jukebox : Jukebox) (albums : Bool) : FillPlan :=
  { lane := .scratch, albums, enforce := jukebox.enforcing }

namespace Booth

variable {s : Type} {booth : Booth s} {plan : FillPlan} {count : Nat} {deck : Deck s}
  {Q : Nat → Deck s → Prop} {E : Error → Deck s → Prop}

/--
What has to be known once candidates have been handed over, for `Q` to hold when the delivery succeeds
and `E` when it fails: whether the player is asked to play depends on the tally alone.
-/
def Settles (booth : Booth s) (Q : Nat → Deck s → Prop) (E : Error → Deck s → Prop) (tally : Tally)
    (deck : Deck s) : Prop :=
  if tally.added = 0 then
    match tally.lastError with
    | some e => E e deck
    | none => Q 0 deck
  else
    booth.player.play.Ends deck.device
      (fun _ device =>
        let update : Event :=
          { kind := .updateJukebox, partition := deck.jukebox.partition, message := none }
        Q tally.added { deck with device, events := deck.events ++ [update] })
      (fun e device => E e { deck with device })

theorem Settles.of_play {P : Deck s → Prop} {tally : Tally} (hdeck : P deck)
    (hplay : booth.player.play.Ends deck.device
      (fun _ device => ∀ events, P { deck with device, events })
      (fun _ device => P { deck with device }))
    : booth.Settles (fun _ => P) (fun _ => P) tally deck := by
  unfold Settles
  split
  . cases tally.lastError <;> exact hdeck
  . apply hplay.mono
    . exact fun _ _ h => h _
    . exact fun _ _ => id

theorem ends_settle {tally : Tally}
    : (if tally.added = 0 then
        match tally.lastError with
        | some e => throw e
        | none => return 0
      else do
        Deck.onDevice booth.player.play
        Deck.emit .updateJukebox
        return tally.added : Play (Deck s) Nat).Ends deck Q E ↔ booth.Settles Q E tally deck := by
  unfold Settles
  split
  . cases tally.lastError <;> rfl
  . rw [Play.ends_bind, Deck.ends_onDevice]
    rfl

theorem deliver_ends
    : (booth.deliver plan count).Ends deck Q E
        ↔ (match plan.lane with
          | .waiting => booth.handOverWaiting plan count deck.jukebox.waiting {}
          | .scratch => booth.handOver .scratch count deck.jukebox.scratch {}).Ends deck
            (booth.Settles Q E) E := by
  unfold deliver
  rw [Play.ends_bind, Play.ends_get]
  dsimp only
  cases plan.lane with
  | waiting | scratch =>
    dsimp only
    rw [Play.ends_bind]
    exact Play.ends_congr fun _ _ => ends_settle

theorem fillOnce_ends
    : booth.fillOnce.Ends deck Q E
        ↔ booth.player.status.Ends deck.device
            (fun status device =>
              (deck.jukebox.settings.needed? status = .error .overflow
                  → Q 0 { deck with device, overflowed := true })
                ∧ (deck.jukebox.settings.needed? status = .ok none → Q 0 { deck with device })
                ∧ ∀ needed, deck.jukebox.settings.needed? status = .ok (some needed) →
                  (deck.jukebox.waiting.length < needed
                    → (booth.replenish deck.jukebox.plan needed
                          (needed + bufferSize deck.jukebox.plan.albums)).Ends { deck with device }
                        (fun _ deck' => (booth.deliver deck.jukebox.plan needed).Ends deck' Q E) E)
                  ∧ (¬deck.jukebox.waiting.length < needed
                    → (booth.deliver deck.jukebox.plan needed).Ends { deck with device } Q E))
            (fun e device => E e { deck with device }) := by
  unfold fillOnce
  rw [Play.ends_bind, Deck.ends_onDevice]
  apply Play.ends_congr
  intro status device
  rw [Play.ends_bind, Play.ends_get]
  dsimp only
  match deck.jukebox.settings.needed? status with
  | .error .overflow => simp
  | .ok none => simp
  | .ok (some needed) =>
    dsimp only
    rw [Play.ends_ite, Play.ends_bind]
    simp [Jukebox.plan]

theorem keepFilled_ends
    : booth.keepFilled.Ends deck Q E
        ↔ (deck.jukebox.settings.mode = .off → Q 0 deck)
          ∧ (deck.jukebox.settings.mode ≠ .off
            → booth.fillOnce.Ends deck Q fun _ deck' =>
              booth.fillOnce.Ends deck' Q fun e deck'' =>
                let failure : Event :=
                  { kind := .jukeboxError
                    partition := deck''.jukebox.partition
                    message := some e.message }
                E (.retriesExhausted (UInt32.ofNat fillAttempts) e)
                  { deck'' with events := deck''.events ++ [failure] }) := by
  unfold keepFilled
  rw [Play.ends_bind, Play.ends_get, Play.ends_ite, Play.ends_bind, Play.ends_outcome, fillAttempts,
    Play.ends_retry_succ]
  rfl

theorem addNow_ends {albums : Bool}
    : (booth.addNow count albums).Ends deck Q E
        ↔ (min count maxAdd = 0 → Q 0 deck)
          ∧ (min count maxAdd ≠ 0
            → (booth.replenish (deck.jukebox.requestPlan albums) (min count maxAdd)
                (min count maxAdd)).Ends { deck with jukebox := deck.jukebox.setLane [] .scratch }
              (fun _ deck' =>
                (booth.deliver (deck.jukebox.requestPlan albums) (min count maxAdd)).Ends deck'
                  (fun added deck'' =>
                    Q added { deck'' with jukebox := deck''.jukebox.setLane [] .scratch })
                  (fun e deck'' =>
                    E e { deck'' with jukebox := deck''.jukebox.setLane [] .scratch }))
              E) := by
  unfold addNow
  dsimp only
  rw [Play.ends_ite, Play.ends_bind, Play.ends_get, Play.ends_bind, Deck.ends_modifyJukebox,
    Play.ends_bind]
  simp only [Play.ends_bind, Play.ends_outcome, Deck.ends_modifyJukebox]
  rfl

end Booth

end AutoDJ
