import AutoDJ.Proofs.Jukebox.HandOver
import AutoDJ.Proofs.Play.Mirrors

/-!
This module contains a jukebox that writes down how its refills come out and what it hands to the player, and the
proof that it fills a queue like any other jukebox.
-/

namespace AutoDJ

open Play (Mirrors)

structure Refill where
  needed : Nat
  left : Nat
deriving Repr, DecidableEq

structure Offer where
  candidate : Candidate
  late : Bool
  accepted : Bool
deriving Repr, DecidableEq

/--
How notes are taken of a refill and of an offer. By default none is taken.
-/
structure Notebook (ν : Type) where
  refill : Refill → ν → ν := fun _ => id
  offer : Offer → ν → ν := fun _ => id

namespace Booth

variable {s ν : Type} (booth : Booth s)

def stock (plan : FillPlan) (target : Nat) : Play (Deck s) Nat := do
  let jukebox := (← get).jukebox
  let recent ← Deck.onDevice (booth.recentlyPlayed jukebox.settings)
  let rules := booth.exclusions plan jukebox recent
  let drawn ← booth.draw plan.albums rules (target - rules.pending.length)
  let candidates := rules.pending ++ drawn
  Deck.modifyJukebox fun jukebox => jukebox.setLane candidates plan.lane
  return candidates.length

def judge (plan : FillPlan) (needed left : Nat) : Play (Deck s) Unit := do
  if left = 0 then
    throw .noCandidates
  if left < needed && plan.enforce then
    relax plan.lane

theorem replenish_eq (plan : FillPlan) (needed target : Nat)
    : booth.replenish plan needed target = booth.stock plan target >>= judge plan needed := by
  unfold replenish stock judge
  simp only [bind_assoc, pure_bind, List.isEmpty_iff, List.length_eq_zero_iff]

namespace Noted

variable (notebook : Notebook ν)

def replenish (plan : FillPlan) (needed target : Nat) : Play (Deck s × ν) Unit := do
  let left ← (booth.stock plan target).onFst
  modify fun (deck, notes) => (deck, notebook.refill { needed, left } notes)
  (judge plan needed left).onFst

def hand (late : Bool) (c : Candidate) (tally : Tally) : Play (Deck s × ν) Tally := do
  let after ← (booth.hand c tally).onFst
  modify fun (deck, notes) =>
    (deck, notebook.offer { candidate := c, late, accepted := tally.added < after.added } notes)
  return after

def handOver (late : Bool) (lane : Lane) (count : Nat) :
    List Candidate → Tally → Play (Deck s × ν) Tally
  | [], tally => return tally
  | c :: rest, tally => do
    if count ≤ tally.added then
      return tally
    Play.onFst (Deck.modifyJukebox fun jukebox => jukebox.setLane rest lane)
    let tally ← hand booth notebook late c tally
    handOver late lane count rest tally

def handOverWaiting (plan : FillPlan) (count : Nat) :
    List Candidate → Tally → Play (Deck s × ν) Tally
  | [], tally => return tally
  | c :: rest, tally => do
    if count ≤ tally.added then
      return tally
    Play.onFst (Deck.modifyJukebox fun jukebox => jukebox.setLane rest .waiting)
    let tally ← hand booth notebook false c tally
    if rest.length < lowWater plan.albums then
      let stillNeeded := count - tally.added
      let _ ← Play.outcome <|
        replenish booth notebook plan stillNeeded (stillNeeded + bufferSize plan.albums)
      handOver booth notebook true .waiting count (← get).1.jukebox.waiting tally
    else
      handOverWaiting plan count rest tally

def deliver (plan : FillPlan) (count : Nat) : Play (Deck s × ν) Nat := do
  let candidates := (← get).1.jukebox.lane plan.lane
  let tally ←
    match plan.lane with
    | .waiting => handOverWaiting booth notebook plan count candidates {}
    | .scratch => handOver booth notebook false .scratch count candidates {}
  if tally.added = 0 then
    match tally.lastError with
    | some e => throw e
    | none => return 0
  else
    (Deck.onDevice booth.player.play).onFst
    (Deck.emit .updateJukebox).onFst
    return tally.added

def fillOnce : Play (Deck s × ν) Nat := do
  let status ← (Deck.onDevice booth.player.status).onFst
  let jukebox := (← get).1.jukebox
  match jukebox.settings.needed? status with
  | .error .overflow => do
    Deck.noteOverflow.onFst
    return 0
  | .ok none => return 0
  | .ok (some needed) =>
    let plan : FillPlan :=
      { lane := .waiting, albums := jukebox.addsAlbums, enforce := jukebox.enforcing }
    if jukebox.waiting.length < needed then
      replenish booth notebook plan needed (needed + bufferSize plan.albums)
    deliver booth notebook plan needed

def keepFilled : Play (Deck s × ν) Nat := do
  if (← get).1.jukebox.settings.mode = .off then
    return 0
  match ← ((fillOnce booth notebook).retry (fillAttempts - 1)).outcome with
  | .ok added => return added
  | .error last =>
    (Deck.emit .jukeboxError last.message).onFst
    throw (.retriesExhausted (UInt32.ofNat fillAttempts) last)

theorem replenish_mirrors (plan : FillPlan) (needed target : Nat)
    : Mirrors Prod.fst Eq (booth.replenish plan needed target)
        (replenish booth notebook plan needed target) := by
  rw [replenish_eq]
  apply (Mirrors.onFst (booth.stock plan target)).bind
  rintro left _ rfl
  exact (Mirrors.onFst (judge plan needed left)).aside fun _ => rfl

theorem hand_mirrors (late : Bool) (c : Candidate) (tally : Tally)
    : Mirrors Prod.fst Eq (booth.hand c tally) (hand booth notebook late c tally) := by
  rw [← bind_pure (booth.hand c tally)]
  apply (Mirrors.onFst (booth.hand c tally)).bind
  rintro after _ rfl
  exact (Mirrors.pure rfl).aside fun _ => rfl

theorem handOver_mirrors (late : Bool) (lane : Lane) (count : Nat) (cs : List Candidate) (tally : Tally)
    : Mirrors Prod.fst Eq (booth.handOver lane count cs tally)
        (handOver booth notebook late lane count cs tally) := by
  induction cs generalizing tally with
  | nil => exact .pure rfl
  | cons c rest ih =>
    unfold Booth.handOver handOver
    split
    . exact .pure rfl
    . apply Mirrors.bind (Mirrors.onFst _)
      rintro _ _ rfl
      apply Mirrors.bind (hand_mirrors booth notebook late c tally)
      rintro tally _ rfl
      exact ih tally

theorem handOverWaiting_mirrors (plan : FillPlan) (count : Nat) (cs : List Candidate) (tally : Tally)
    : Mirrors Prod.fst Eq (booth.handOverWaiting plan count cs tally)
        (handOverWaiting booth notebook plan count cs tally) := by
  induction cs generalizing tally with
  | nil => exact .pure rfl
  | cons c rest ih =>
    unfold Booth.handOverWaiting handOverWaiting
    split
    . exact .pure rfl
    . apply Mirrors.bind (Mirrors.onFst _)
      rintro _ _ rfl
      apply Mirrors.bind (hand_mirrors booth notebook false c tally)
      rintro tally _ rfl
      split
      . apply Mirrors.bind (replenish_mirrors booth notebook _ _ _).outcome
        rintro _ _ rfl
        apply Mirrors.bind Mirrors.get
        rintro _ state rfl
        exact handOver_mirrors booth notebook true .waiting count _ tally
      . exact ih tally

theorem deliver_mirrors (plan : FillPlan) (count : Nat)
    : Mirrors Prod.fst Eq (booth.deliver plan count) (deliver booth notebook plan count) := by
  apply Mirrors.bind Mirrors.get
  rintro _ state rfl
  cases plan.lane
  case' waiting => apply Mirrors.bind (handOverWaiting_mirrors booth notebook _ _ _ _)
  case' scratch => apply Mirrors.bind (handOver_mirrors booth notebook _ _ _ _ _)
  -- what follows the handing over is the same for both queues
  all_goals
    rintro tally _ rfl
    apply Mirrors.ite
    . intro _
      cases tally.lastError with
      | some e => exact .throw e
      | none => exact .pure rfl
    . intro _
      apply Mirrors.bind (Mirrors.onFst _)
      rintro _ _ rfl
      apply Mirrors.bind (Mirrors.onFst _)
      rintro _ _ rfl
      exact .pure rfl

theorem fillOnce_mirrors : Mirrors Prod.fst Eq booth.fillOnce (fillOnce booth notebook) := by
  apply Mirrors.bind (Mirrors.onFst _)
  rintro status _ rfl
  apply Mirrors.bind Mirrors.get
  rintro _ state rfl
  dsimp only
  match state.1.jukebox.settings.needed? status with
  | .error .overflow =>
    apply Mirrors.bind (Mirrors.onFst _)
    rintro _ _ rfl
    exact .pure rfl
  | .ok none => exact .pure rfl
  | .ok (some needed) =>
    apply Mirrors.ite
    . intro _
      apply Mirrors.bind (replenish_mirrors booth notebook _ _ _)
      rintro _ _ rfl
      exact deliver_mirrors booth notebook _ _
    . intro _
      exact deliver_mirrors booth notebook _ _

theorem keepFilled_mirrors : Mirrors Prod.fst Eq booth.keepFilled (keepFilled booth notebook) := by
  apply Mirrors.bind Mirrors.get
  rintro _ state rfl
  apply Mirrors.ite
  . intro _
    exact .pure rfl
  . intro _
    apply Mirrors.bind ((fillOnce_mirrors booth notebook).retry _).outcome
    rintro result _ rfl
    cases result with
    | ok added => exact .pure rfl
    | error last =>
      apply Mirrors.bind (Mirrors.onFst _)
      rintro _ _ rfl
      exact .throw _

theorem replenish_eq_onFst (h : notebook.refill = fun _ => id) (plan : FillPlan) (needed target : Nat)
    : replenish booth notebook plan needed target = (booth.replenish plan needed target).onFst := by
  rw [replenish_eq, Play.onFst_bind, replenish, h]
  rfl

theorem hand_eq_onFst (h : notebook.offer = fun _ => id) (late : Bool) (c : Candidate) (tally : Tally)
    : hand booth notebook late c tally = (booth.hand c tally).onFst := by
  rw [hand, h]
  exact bind_pure _

theorem handOver_eq_onFst (h : notebook.offer = fun _ => id) (late : Bool) (lane : Lane) (count : Nat)
    (cs : List Candidate) (tally : Tally)
    : handOver booth notebook late lane count cs tally
        = (booth.handOver lane count cs tally).onFst := by
  induction cs generalizing tally with
  | nil => rfl
  | cons c rest ih =>
    unfold handOver Booth.handOver
    split
    . rfl
    . simp only [Play.onFst_bind, hand_eq_onFst booth notebook h, ih]

end Noted

end Booth

end AutoDJ
