import AutoDJ.Proofs.Jukebox.Buffer

/-!
This module contains the handing over of waiting candidates as a loop, each turn of which hands one candidate to
the player, and the proof that the loop ends, whatever the player does.

A turn in which the candidates run low draws new ones, so that there may be more of them afterwards than before, and
more items may be missing than candidates are left. Since new ones are drawn only once, what is waiting together with
what may still be drawn becomes less in every turn. That a walk through a listing ends is up to `scanPages`.
-/

namespace AutoDJ

variable {s : Type}

namespace Booth

structure Progress where
  tally : Tally := {}
  refilled : Bool := false

variable {booth : Booth s} {plan : FillPlan} {count : Nat}

theorem draw_length_le (booth : Booth s) (albums : Bool) (rules : Exclusions) (k : Nat) (deck : Deck s)
    : (booth.draw albums rules k).Ends deck (fun drawn _ => drawn.length ≤ k) (fun _ _ => True) := by
  cases albums with
  | true =>
    unfold draw Play.Ends
    cases booth.caches.albums with
    | none => exact trivial
    | some index =>
      exact Nat.le_trans (Nat.le_of_eq (sampleAlbums_samples index rules k _).2) (Nat.min_le_left ..)
  | false =>
    rw [ends_draw_tracks]
    exact sampleTracks_length_le ..

theorem replenish_length_le (hlane : plan.lane = .waiting) (needed target : Nat) (deck : Deck s)
    : (booth.replenish plan needed target).Ends deck
        (fun _ deck' => deck'.jukebox.waiting.length ≤ max deck.jukebox.waiting.length target)
        (fun _ deck' => deck'.jukebox.waiting.length ≤ max deck.jukebox.waiting.length target) := by
  rw [ends_replenish, hlane]
  apply Play.ends_of_forall
  . intro recent device
    dsimp only
    apply ((draw_length_le booth plan.albums _ _ _).and (draw_changes booth plan.albums _ _ _)).mono
    . rintro drawn _ ⟨hdrawn, device, random, rfl⟩
      have hlength : (deck.jukebox.waiting ++ drawn).length ≤ max deck.jukebox.waiting.length target := by
        have hk : drawn.length ≤ target - deck.jukebox.waiting.length := hdrawn
        rw [List.length_append]
        omega
      refine ⟨fun _ => hlength, fun _ => ⟨fun _ => ?_, fun _ => hlength⟩⟩
      rw [ends_relax_waiting]
      exact ⟨fun _ => hlength, fun _ => hlength⟩
    . rintro _ _ ⟨-, device, random, rfl⟩
      exact Nat.le_max_left ..
  . exact fun _ _ => Nat.le_max_left ..

/--
One turn: the candidate at the front is handed over, and if so few are left behind it for the first time that
they are low, new ones are drawn for what is still needed. That this may fail does not matter.
-/
def turn (booth : Booth s) (plan : FillPlan) (count : Nat) (c : Candidate) (rest : List Candidate)
    (progress : Progress) : Play (Deck s) Progress := do
  Deck.modifyJukebox fun jukebox => jukebox.setLane rest .waiting
  let tally ← booth.hand c progress.tally
  if progress.refilled = false ∧ rest.length < lowWater plan.albums then
    let stillNeeded := count - tally.added
    let _ ← Play.outcome <|
      booth.replenish plan stillNeeded (stillNeeded + bufferSize plan.albums)
    return { tally, refilled := true }
  else
    return { progress with tally }

inductive Turns (booth : Booth s) (plan : FillPlan) (count : Nat) :
    (turns : Nat) → Progress → Deck s → Progress → Deck s → Prop where
  | none : Turns booth plan count 0 progress deck progress deck
  | more (hmissing : progress.tally.added < count) (hfront : deck.jukebox.waiting = c :: rest)
    (hturn : booth.turn plan count c rest progress deck = .ok progress' deck')
    (hrest : Turns booth plan count turns progress' deck' progress'' deck'')
    : Turns booth plan count (turns + 1) progress deck progress'' deck''

def Complete (count : Nat) (tally : Tally) (deck : Deck s) : Prop :=
  count ≤ tally.added ∨ deck.jukebox.waiting = []

/--
How many turns there may still be: one for each candidate that is waiting, and one for each that may yet be drawn.
-/
def turnsLeft (plan : FillPlan) (count : Nat) (progress : Progress) (deck : Deck s) : Nat :=
  deck.jukebox.waiting.length
    + if progress.refilled then 0 else count - progress.tally.added + bufferSize plan.albums

theorem turnsLeft_start (plan : FillPlan) (count : Nat) (deck : Deck s)
    : turnsLeft plan count {} deck = deck.jukebox.waiting.length + count + bufferSize plan.albums :=
  (Nat.add_assoc ..).symm

section Turn

variable {c : Candidate} {rest : List Candidate} {progress : Progress} {deck : Deck s}

structure Advances (plan : FillPlan) (count : Nat) (rest : List Candidate) (progress : Progress)
    (deck : Deck s) (progress' : Progress) (deck' : Deck s) : Prop where
  added_le : progress'.tally.added ≤ progress.tally.added + 1
  -- what a refill draws takes the place of all that might still have been drawn
  turnsLeft_lt : turnsLeft plan count progress' deck' < turnsLeft plan count progress deck
  once : progress.refilled = true → progress'.refilled = true
  waiting : progress'.refilled = progress.refilled → deck'.jukebox.waiting = rest

theorem hand_advances (booth : Booth s) (c : Candidate) (tally : Tally) (deck : Deck s)
    : (booth.hand c tally).Ends deck
        (fun tally' deck' => (tally.added ≤ tally'.added ∧ tally'.added ≤ tally.added + 1)
          ∧ deck'.jukebox = deck.jukebox)
        (fun _ _ => False) := by
  rw [hand_ends]
  apply Play.ends_of_forall
  . exact fun _ _ => ⟨⟨Nat.le_succ _, Nat.le_refl _⟩, rfl⟩
  . exact fun _ _ => ⟨⟨Nat.le_refl _, Nat.le_succ _⟩, rfl⟩

theorem turn_ends {Q : Progress → Deck s → Prop} {E : Error → Deck s → Prop}
    : (booth.turn plan count c rest progress).Ends deck Q E
        ↔ (booth.hand c progress.tally).Ends { deck with jukebox := deck.jukebox.setLane rest .waiting }
          (fun tally deck' =>
            (progress.refilled = false ∧ rest.length < lowWater plan.albums
              → (booth.replenish plan (count - tally.added)
                  (count - tally.added + bufferSize plan.albums)).Ends deck'
                (fun _ => Q { tally, refilled := true }) (fun _ => Q { tally, refilled := true }))
            ∧ (¬(progress.refilled = false ∧ rest.length < lowWater plan.albums)
              → Q { progress with tally } deck'))
          E := by
  unfold turn
  rw [Play.ends_bind, Deck.ends_modifyJukebox, Play.ends_bind]
  simp only [Play.ends_ite, Play.ends_bind, Play.ends_outcome]
  rfl

theorem turn_advances (hlane : plan.lane = .waiting) (hfront : deck.jukebox.waiting = c :: rest)
    : (booth.turn plan count c rest progress).Ends deck (Advances plan count rest progress deck)
        (fun _ _ => False) := by
  have hstart : turnsLeft plan count progress deck
      = rest.length + 1
        + if progress.refilled then 0 else count - progress.tally.added + bufferSize plan.albums := by
    rw [turnsLeft, hfront, List.length_cons]
  rw [turn_ends]
  apply (hand_advances booth c progress.tally _).mono
  . rintro tally deck' ⟨⟨hadded, hone⟩, hjukebox⟩
    have hwaiting : deck'.jukebox.waiting = rest := by
      rw [hjukebox]
      rfl
    refine ⟨fun ⟨hfirst, hlow⟩ => ?_, fun _ => ⟨hone, ?_, id, fun _ => hwaiting⟩⟩
    . have hbuffer := lowWater_le_bufferSize plan.albums
      rw [hfirst, if_neg Bool.false_ne_true] at hstart
      apply (replenish_length_le hlane _ _ deck').imp
      intro deck'' hlength
      rw [hwaiting] at hlength
      -- those left are fewer than the reserve, so that the queue is now as long as the refill asks for at most
      refine ⟨hone, ?_, fun _ => rfl, fun hsame => ?_⟩
      . rw [hstart, turnsLeft, if_pos rfl]
        omega
      . rw [hfirst] at hsame
        contradiction
    . rw [hstart, turnsLeft, hwaiting]
      dsimp only
      split <;> omega
  . exact fun _ _ => id

theorem handOver_cons (plan : FillPlan) (c : Candidate) (rest : List Candidate) (tally : Tally)
    : booth.handOver .waiting count (c :: rest) tally
        = if count ≤ tally.added then
            return tally
          else
            booth.turn plan count c rest { tally, refilled := true } >>= fun progress =>
              booth.handOver .waiting count rest progress.tally := by
  rw [handOver]
  unfold turn
  simp only [bind_assoc, pure_bind, Bool.true_eq_false, false_and, if_false]

theorem handOverWaiting_cons (c : Candidate) (rest : List Candidate) (tally : Tally)
    : booth.handOverWaiting plan count (c :: rest) tally
        = if count ≤ tally.added then
            return tally
          else
            booth.turn plan count c rest { tally } >>= fun progress =>
              if progress.refilled then
                get >>= fun deck => booth.handOver .waiting count deck.jukebox.waiting progress.tally
              else
                booth.handOverWaiting plan count rest progress.tally := by
  rw [handOverWaiting]
  unfold turn
  simp only [bind_assoc, true_and]
  congr 3
  funext _
  congr 1
  funext tally
  split
  . simp only [bind_assoc, pure_bind, if_true]
  . simp only [pure_bind, Bool.false_eq_true, if_false]

end Turn

section Loop

variable {turns : Nat} {progress progress' : Progress} {tally : Tally} {deck deck' : Deck s}

theorem Turns.turnsLeft_le (hlane : plan.lane = .waiting)
    (h : booth.Turns plan count turns progress deck progress' deck')
    : turns + turnsLeft plan count progress' deck' ≤ turnsLeft plan count progress deck := by
  induction h with
  | none => exact Nat.le_of_eq (Nat.zero_add _)
  | more hmissing hfront hturn hrest ih =>
    have hless := ((turn_advances hlane hfront).of_ok hturn).turnsLeft_lt
    omega

theorem Turns.added_le (hlane : plan.lane = .waiting)
    (h : booth.Turns plan count turns progress deck progress' deck') (hadded : progress.tally.added ≤ count)
    : progress'.tally.added ≤ count := by
  induction h with
  | none => exact hadded
  | more hmissing hfront hturn hrest ih =>
    have hone := ((turn_advances hlane hfront).of_ok hturn).added_le
    exact ih (Nat.le_trans hone hmissing)

def Exhausts (booth : Booth s) (plan : FillPlan) (count : Nat) (progress : Progress) (deck : Deck s)
    (tally : Tally) (deck' : Deck s) : Prop :=
  ∃ turns refilled, booth.Turns plan count turns progress deck { tally, refilled } deck'
    ∧ Complete count tally deck'

theorem Exhausts.of_complete (h : Complete count progress.tally deck)
    : booth.Exhausts plan count progress deck progress.tally deck :=
  ⟨0, progress.refilled, .none, h⟩

theorem Exhausts.cons {c : Candidate} {rest : List Candidate} {deck'' : Deck s}
    (hmissing : progress.tally.added < count) (hfront : deck.jukebox.waiting = c :: rest)
    (hturn : booth.turn plan count c rest progress deck = .ok progress' deck')
    (h : booth.Exhausts plan count progress' deck' tally deck'')
    : booth.Exhausts plan count progress deck tally deck'' := by
  obtain ⟨turns, refilled, hturns, hcomplete⟩ := h
  exact ⟨turns + 1, refilled, .more hmissing hfront hturn hturns, hcomplete⟩

theorem handOver_exhausts (hlane : plan.lane = .waiting) (cs : List Candidate) (tally : Tally) (deck : Deck s)
    (hwaiting : deck.jukebox.waiting = cs)
    : (booth.handOver .waiting count cs tally).Ends deck
        (booth.Exhausts plan count { tally, refilled := true } deck) (fun _ _ => False) := by
  induction cs generalizing tally deck with
  | nil => exact .of_complete (.inr hwaiting)
  | cons c rest ih =>
    rw [handOver_cons plan, Play.ends_ite]
    refine ⟨fun henough => .of_complete (.inl henough), fun hmissing => ?_⟩
    rw [Play.ends_bind]
    apply ((Play.ends_self _ _).and (turn_advances hlane hwaiting)).mono
    . rintro ⟨tally', refilled⟩ deck' ⟨hturn, hadvances⟩
      obtain rfl : refilled = true := hadvances.once rfl
      apply (ih tally' deck' (hadvances.waiting rfl)).mono
      . exact fun _ _ => .cons (Nat.not_le.mp hmissing) hwaiting hturn
      . exact fun _ _ => id
    . exact fun _ _ hfalse => hfalse.2

theorem handOverWaiting_exhausts (hlane : plan.lane = .waiting) (cs : List Candidate) (tally : Tally)
    (deck : Deck s) (hwaiting : deck.jukebox.waiting = cs)
    : (booth.handOverWaiting plan count cs tally).Ends deck (booth.Exhausts plan count { tally } deck)
        (fun _ _ => False) := by
  induction cs generalizing tally deck with
  | nil => exact .of_complete (.inr hwaiting)
  | cons c rest ih =>
    rw [handOverWaiting_cons, Play.ends_ite]
    refine ⟨fun henough => .of_complete (.inl henough), fun hmissing => ?_⟩
    rw [Play.ends_bind]
    apply ((Play.ends_self _ _).and (turn_advances hlane hwaiting)).mono
    . rintro ⟨tally', refilled⟩ deck' ⟨hturn, hadvances⟩
      rw [Play.ends_ite, Play.ends_bind, Play.ends_get]
      refine ⟨fun hrefilled => ?_, fun hnot => ?_⟩
      . -- there is no other refill, and the loop goes on with what is waiting now
        obtain rfl : refilled = true := hrefilled
        apply (handOver_exhausts hlane _ tally' deck' rfl).mono
        . exact fun _ _ => .cons (Nat.not_le.mp hmissing) hwaiting hturn
        . exact fun _ _ => id
      . obtain rfl : refilled = false := Bool.eq_false_of_not_eq_true hnot
        apply (ih tally' deck' (hadvances.waiting rfl)).mono
        . exact fun _ _ => .cons (Nat.not_le.mp hmissing) hwaiting hturn
        . exact fun _ _ => id
    . exact fun _ _ hfalse => hfalse.2

end Loop

end Booth

end AutoDJ
