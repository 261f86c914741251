import AutoDJ.Proofs.Mailbox.Journal
import Mathlib.Data.List.Nodup

namespace AutoDJ.Journal

variable {α : Type} {journal : Journal α}

theorem filter_remaining {messages left : List (Message (Nat × α))} (h : left.Sublist messages)
    (hnumbers : (messages.map Message.number).Nodup)
    : messages.filter (·.number ∈ left.map Message.number) = left := by
  induction h with
  | slnil => rfl
  | cons message hleft ih =>
    obtain ⟨hmessage, hnumbers⟩ := List.nodup_cons.mp hnumbers
    have hgone := fun hmem => hmessage ((hleft.map Message.number).subset hmem)
    rw [List.filter_cons_of_neg (by simpa using hgone)]
    exact ih hnumbers
  | cons_cons message hleft ih =>
    obtain ⟨hmessage, hnumbers⟩ := List.nodup_cons.mp hnumbers
    rw [List.filter_cons_of_pos (by simp)]
    congr 1
    refine (List.filter_congr fun other hother => ?_).trans (ih hnumbers)
    have hne : other.number ≠ message.number :=
      fun heq => hmessage (heq ▸ List.mem_map_of_mem hother)
    simp [hne]

/--
What a journal shows: the messages queued are in the order in which they were pushed, each message pushed
has been popped or thrown away or is queued, and those of a conversation have been popped in their order,
ahead of those that are queued.
-/
structure Kept (journal : Journal α) : Prop where
  numbers : journal.pushed.map Message.number = List.range journal.pushed.length
  queued : journal.box.messages.Sublist journal.pushed
  accounted : (journal.popped ++ journal.expired ++ journal.box.messages).Perm journal.pushed
  inTurn : ∀ id : UInt64,
    (journal.popped.filter (·.id == id) ++ journal.box.messages.filter (·.id == id)).Sublist
      journal.pushed

namespace Kept

theorem nodup_pushed (h : journal.Kept) : (journal.pushed.map Message.number).Nodup := by
  rw [h.numbers]
  exact List.nodup_range

theorem nodup_queued (h : journal.Kept) : (journal.box.messages.map Message.number).Nodup :=
  h.nodup_pushed.sublist (h.queued.map Message.number)

theorem push (h : journal.Kept) (message : Message α) : (journal.enter (.push message)).Kept := by
  constructor
  . simp [enter, h.numbers, List.range_succ]
  . exact h.queued.append (List.Sublist.refl _)
  . dsimp only [enter, Mailbox.push]
    rw [← List.append_assoc]
    exact h.accounted.append_right _
  . intro id
    dsimp only [enter, Mailbox.push]
    rw [List.filter_append, ← List.append_assoc]
    exact (h.inTurn id).append List.filter_sublist

theorem taken_perm {messages : List (Message (Nat × α))} {id : UInt64} {message : Message (Nat × α)}
    (h : messages.find? (Message.answers id) = some message)
    : (message :: messages.eraseP (Message.answers id)).Perm messages := by
  obtain ⟨hanswers, before, after, rfl, hbefore⟩ := List.find?_eq_some_iff_append.mp h
  rw [List.eraseP_append_right _ (by simpa using hbefore), List.eraseP_cons_of_pos hanswers]
  exact List.perm_middle.symm

theorem filter_taken {messages : List (Message (Nat × α))} {id : UInt64}
    {message : Message (Nat × α)} (h : messages.find? (Message.answers id) = some message)
    (other : UInt64)
    : [message].filter (·.id == other)
          ++ (messages.eraseP (Message.answers id)).filter (·.id == other)
        = messages.filter (·.id == other) := by
  obtain ⟨hanswers, before, after, rfl, hbefore⟩ := List.find?_eq_some_iff_append.mp h
  rw [List.eraseP_append_right _ (by simpa using hbefore), List.eraseP_cons_of_pos hanswers]
  simp only [List.filter_append]
  by_cases hother : message.id = other
  . have hskipped : before.filter (·.id == other) = [] := by
      rw [List.filter_eq_nil_iff]
      intro skipped hmem
      have hskips := hbefore skipped hmem
      simp only [Message.answers, Bool.or_eq_true, beq_iff_eq, Bool.not_eq_true', Bool.or_eq_false_iff,
        beq_eq_false_iff_ne] at *
      obtain hzero | hid := hanswers
      . exact absurd hzero hskips.1
      . rw [← hother, hid]
        exact hskips.2
    simp [hskipped, hother]
  . simp [hother]

theorem pop (h : journal.Kept) (id : UInt64) : (journal.enter (.pop id)).Kept := by
  dsimp only [enter, Mailbox.pop]
  cases hfound : journal.box.messages.find? (Message.answers id) with
  | none =>
    have hrest : journal.box.messages.eraseP (Message.answers id) = journal.box.messages :=
      List.eraseP_of_forall_not (by simpa using hfound)
    rw [hrest, Option.toList_none, List.append_nil]
    exact h
  | some message =>
    constructor
    . exact h.numbers
    . exact List.eraseP_sublist.trans h.queued
    . refine List.Perm.trans ?_ h.accounted
      simp only [Option.toList_some, List.append_assoc, List.singleton_append]
      apply List.Perm.append_left
      exact List.perm_middle.symm.trans ((taken_perm hfound).append_left _)
    . intro other
      dsimp only
      rw [Option.toList_some, List.filter_append, List.append_assoc, filter_taken hfound]
      exact h.inTurn other

theorem expireDuring_sublist (box : Mailbox (Nat × α)) (maxAge : Nat) (clock : Nat → Nat)
    : (box.expireDuring maxAge clock).2.messages.Sublist box.messages := by
  have hentries : box.messages.zipIdx.map (·.1) = box.messages := List.zipIdx_map_fst _ _
  conv => rhs; rw [← hentries]
  exact List.filter_sublist.map _

theorem expire (h : journal.Kept) (maxAge : Nat) (clock : Nat → Nat)
    : (journal.enter (.expire maxAge clock)).Kept := by
  have hleft := expireDuring_sublist journal.box maxAge clock
  have hremaining := filter_remaining hleft h.nodup_queued
  dsimp only [Journal.enter]
  constructor
  . exact h.numbers
  . exact hleft.trans h.queued
  . refine List.Perm.trans ?_ h.accounted
    -- those that are gone and those that remain are all that were there
    have hsplit := List.filter_append_perm
      (·.number ∈ (journal.box.expireDuring maxAge clock).2.messages.map Message.number)
      journal.box.messages
    rw [hremaining] at hsplit
    simp only [List.append_assoc, decide_not]
    exact ((List.perm_append_comm.trans hsplit).append_left _).append_left _
  . intro id
    exact ((hleft.filter _).append_left _).trans (h.inTurn id)

theorem enter (h : journal.Kept) (next : Mailbox.Use α) : (journal.enter next).Kept := by
  cases next with
  | push message => exact h.push message
  | pop id => exact h.pop id
  | expire maxAge clock => exact h.expire maxAge clock
  | shutDown => exact ⟨h.numbers, h.queued, h.accounted, h.inTurn⟩

end Kept

theorem ofUses_kept (hasBell : Bool) (uses : List (Mailbox.Use α)) : (ofUses hasBell uses).Kept := by
  unfold ofUses
  generalize hstart : ({ box := { hasBell } } : Journal α) = start
  have h : start.Kept := by
    subst hstart
    exact ⟨rfl, List.Sublist.refl _, List.Perm.refl _, fun _ => List.Sublist.refl _⟩
  clear hstart
  induction uses generalizing start with
  | nil => exact h
  | cons next uses ih => exact ih _ (h.enter next)

theorem Kept.queued_eq (h : journal.Kept)
    : journal.box.messages
        = journal.pushed.filter
            (·.number ∉ (journal.popped ++ journal.expired).map Message.number) := by
  have hnumbers := (h.accounted.map Message.number).nodup_iff.mpr h.nodup_pushed
  rw [List.map_append] at hnumbers
  have hapart := List.disjoint_of_nodup_append hnumbers
  rw [← filter_remaining h.queued h.nodup_pushed]
  apply List.filter_congr
  intro message hmessage
  rw [decide_eq_decide]
  constructor
  . intro hqueued hremoved
    exact hapart hremoved hqueued
  . intro hnot
    obtain hremoved | hqueued := List.mem_append.mp (h.accounted.mem_iff.mpr hmessage)
    . exact absurd (List.mem_map_of_mem hremoved) hnot
    . exact List.mem_map_of_mem hqueued

theorem Kept.remains_iff (h : journal.Kept) {maxAge : Nat} {clock : Nat → Nat}
    {message : Message (Nat × α)} {position : Nat}
    (hentry : (message, position) ∈ journal.box.messages.zipIdx)
    : message.number ∈ (journal.box.expireDuring maxAge clock).2.messages.map Message.number
        ↔ maxAge ≠ 0 ∧ message.age (clock position) ≤ maxAge := by
  have hnumbers : (journal.box.messages.zipIdx.map (·.1.number)).Nodup := by
    have hqueued := h.nodup_queued
    rwa [← List.zipIdx_map_fst 0 journal.box.messages, List.map_map] at hqueued
  simp only [Mailbox.expireDuring, List.mem_map, List.mem_filter, Bool.and_eq_true, bne_iff_ne,
    decide_eq_true_iff]
  constructor
  . rintro ⟨_, ⟨other, ⟨hother, hstays⟩, rfl⟩, hnumber⟩
    -- no other entry has the number of this one
    obtain rfl := List.inj_on_of_nodup_map hnumbers hother hentry hnumber
    exact hstays
  . intro hstays
    exact ⟨message, ⟨(message, position), ⟨hentry, hstays⟩, rfl⟩, rfl⟩

theorem Kept.expired_eq (h : journal.Kept) (maxAge : Nat) (clock : Nat → Nat)
    : (journal.enter (.expire maxAge clock)).expired
        = journal.expired ++ (journal.box.messages.zipIdx.filter fun (message, position) =>
            maxAge = 0 ∨ maxAge < message.age (clock position)).map (·.1) := by
  have hentries (p : Message (Nat × α) → Bool)
      : journal.box.messages.filter p
          = (journal.box.messages.zipIdx.filter fun (message, _) => p message).map (·.1) := by
    conv => lhs; rw [← List.zipIdx_map_fst 0 journal.box.messages, List.filter_map]
    rfl
  dsimp only [Journal.enter]
  rw [hentries]
  congr 2
  apply List.filter_congr
  rintro ⟨message, position⟩ hentry
  rw [decide_eq_decide, h.remains_iff hentry]
  dsimp only
  omega

theorem expireDuring_count (box : Mailbox (Nat × α)) (maxAge : Nat) (clock : Nat → Nat)
    : (box.expireDuring maxAge clock).1
        = (box.messages.zipIdx.filter fun (message, position) =>
            maxAge = 0 ∨ maxAge < message.age (clock position)).length := by
  unfold Mailbox.expireDuring
  dsimp only
  rw [List.countP_eq_length_filter]
  apply congrArg List.length
  apply List.filter_congr
  rintro ⟨message, position⟩ -
  by_cases hall : maxAge = 0 <;> simp [hall, ← decide_not]

/--
Whatever is done with a mailbox that was empty at first, its journal tells what is pushed into it, what
is handed out and what remains. What remains are the messages pushed, in their order, without those
handed out and thrown away; each of them is in one of these three lists; and those of a conversation are
handed out in the order in which they were pushed. At any moment, nothing is handed out only if no message
queued is asked for; exactly the messages that are too old, or all of them, can be thrown away, and are
counted; and shutting down removes nothing.
-/
theorem delivery (hasBell : Bool) (uses : List (Mailbox.Use α))
    : let journal := ofUses hasBell uses
      let box := (({ hasBell } : Mailbox α).useAll uses).2
      (({ hasBell } : Mailbox α).useAll uses).1 = journal.popped.map Message.plain
        ∧ box = journal.box.plain
        ∧ uses.flatMap Mailbox.Use.pushed = journal.pushed.map Message.plain
        ∧ journal.Kept
        ∧ journal.box.messages
            = journal.pushed.filter
                (·.number ∉ (journal.popped ++ journal.expired).map Message.number)
        ∧ (∀ id, (box.pop id).1 = none ↔ ∀ message ∈ box.messages, id ≠ 0 ∧ message.id ≠ id)
        ∧ (∀ maxAge clock,
            let old := (journal.box.messages.zipIdx.filter fun (message, position) =>
              maxAge = 0 ∨ maxAge < message.age (clock position)).map (·.1)
            (journal.enter (.expire maxAge clock)).expired = journal.expired ++ old
              ∧ (box.expireDuring maxAge clock).1 = old.length)
        ∧ (∀ maxAge now, box.expire maxAge now = box.expireDuring maxAge fun _ => now)
        ∧ box.shutDown.messages = box.messages := by
  intro journal box
  have hkept : journal.Kept := ofUses_kept hasBell uses
  have huses := useAll_eq hasBell uses
  have hpushed : uses.flatMap Mailbox.Use.pushed = journal.pushed.map Message.plain := by
    simpa [journal, ofUses] using (foldl_enter_pushed uses { box := { hasBell } }).symm
  have hbox : box = journal.box.plain := congrArg Prod.snd huses
  refine ⟨congrArg Prod.fst huses, hbox, hpushed, hkept, hkept.queued_eq, ?_, ?_,
    fun _ _ => Mailbox.expire_eq_expireDuring, rfl⟩
  . intro id
    simp [Mailbox.pop, Message.answers]
  . intro maxAge clock
    refine ⟨hkept.expired_eq maxAge clock, ?_⟩
    rw [hbox, Mailbox.plain_expireDuring, expireDuring_count, List.length_map]

end AutoDJ.Journal
