import AutoDJ.Mailbox

/-!
This module contains a mailbox whose messages are numbered in the order of their arrival, so that they
can be told apart, and a journal of what becomes of each of them. The mailbox does not notice the numbers.
-/

namespace AutoDJ

namespace Message

variable {α β : Type}

def map (f : α → β) (message : Message α) : Message β :=
  { id := message.id, payload := f message.payload, createdAt := message.createdAt }

def numbered (number : Nat) (message : Message α) : Message (Nat × α) :=
  message.map (number, ·)

def number (message : Message (Nat × α)) : Nat :=
  message.payload.1

def plain (message : Message (Nat × α)) : Message α :=
  message.map (·.2)

@[simp]
theorem number_numbered {number : Nat} {message : Message α}
    : (message.numbered number).number = number :=
  rfl

@[simp]
theorem plain_numbered {number : Nat} {message : Message α}
    : (message.numbered number).plain = message :=
  rfl

end Message

namespace Mailbox

variable {α : Type}

def plain (box : Mailbox (Nat × α)) : Mailbox α :=
  { messages := box.messages.map Message.plain
    isShutDown := box.isShutDown
    hasBell := box.hasBell
    rings := box.rings }

theorem plain_push {box : Mailbox (Nat × α)} {message : Message α} {number : Nat}
    : (box.push (message.numbered number)).plain = box.plain.push message := by
  simp only [plain, push, List.map_append, List.map_cons, List.map_nil, Message.plain_numbered]
  rfl

theorem plain_pop {box : Mailbox (Nat × α)} {id : UInt64}
    : box.plain.pop id = ((box.pop id).1.map Message.plain, (box.pop id).2.plain) := by
  simp only [plain, pop, List.find?_map, List.eraseP_map]
  rfl

theorem plain_expireDuring {box : Mailbox (Nat × α)} {maxAge : Nat} {clock : Nat → Nat}
    : box.plain.expireDuring maxAge clock
        = ((box.expireDuring maxAge clock).1, (box.expireDuring maxAge clock).2.plain) := by
  simp only [plain, expireDuring, List.zipIdx_map, List.countP_map, List.filter_map, List.map_map]
  rfl

inductive Use (α : Type) where
  | push (message : Message α)
  | pop (id : UInt64)
  /-- The clock shows `clock position` when the message at a position is looked at. -/
  | expire (maxAge : Nat) (clock : Nat → Nat)
  | shutDown

def Use.pushed : Use α → List (Message α)
  | push message => [message]
  | pop _ | expire .. | shutDown => []

def use (box : Mailbox α) : Use α → Option (Message α) × Mailbox α
  | .push message => (none, box.push message)
  | .pop id => box.pop id
  | .expire maxAge clock => (none, (box.expireDuring maxAge clock).2)
  | .shutDown => (none, box.shutDown)

def useAll (box : Mailbox α) : List (Use α) → List (Message α) × Mailbox α
  | [] => ([], box)
  | next :: uses =>
    let (taken, box) := box.use next
    let (more, box) := box.useAll uses
    (taken.toList ++ more, box)

theorem filter_eraseP (p : Message α → Bool) (messages : List (Message α))
    : (messages.eraseP p).filter p = (messages.filter p).tail := by
  induction messages with
  | nil => rfl
  | cons message messages ih => cases h : p message <;> simp [h, ih]

theorem useAll_pop (box : Mailbox α) (id : UInt64) (n : Nat)
    : (box.useAll (List.replicate n (.pop id))).1 = (box.messages.filter (Message.answers id)).take n := by
  induction n generalizing box with
  | zero => rfl
  | succ n ih =>
    rw [List.replicate_succ, useAll, use, pop]
    dsimp only
    rw [ih, filter_eraseP, ← List.head?_filter]
    cases box.messages.filter (Message.answers id) <;> simp

end Mailbox

/--
A mailbox of numbered messages, and what has become of all that have been pushed. The messages thrown
away are those that are there no more.
-/
structure Journal (α : Type) where
  box : Mailbox (Nat × α)
  pushed : List (Message (Nat × α)) := []
  popped : List (Message (Nat × α)) := []
  expired : List (Message (Nat × α)) := []

namespace Journal

variable {α : Type}

def enter (journal : Journal α) : Mailbox.Use α → Journal α
  | .push message =>
    let message := message.numbered journal.pushed.length
    { journal with box := journal.box.push message, pushed := journal.pushed ++ [message] }
  | .pop id =>
    let (taken, box) := journal.box.pop id
    { journal with box, popped := journal.popped ++ taken.toList }
  | .expire maxAge clock =>
    let (_, box) := journal.box.expireDuring maxAge clock
    let gone := journal.box.messages.filter fun message =>
      message.number ∉ box.messages.map Message.number
    { journal with box, expired := journal.expired ++ gone }
  | .shutDown => { journal with box := journal.box.shutDown }

def ofUses (hasBell : Bool) (uses : List (Mailbox.Use α)) : Journal α :=
  uses.foldl enter { box := { hasBell } }

theorem enter_plain (journal : Journal α) (next : Mailbox.Use α)
    : (journal.enter next).popped.map Message.plain
          = journal.popped.map Message.plain ++ (journal.box.plain.use next).1.toList
        ∧ (journal.enter next).box.plain = (journal.box.plain.use next).2 := by
  cases next with
  | push message => simp [enter, Mailbox.use, Mailbox.plain_push]
  | pop id => simp [enter, Mailbox.use, Mailbox.plain_pop, Option.toList_map]
  | expire maxAge clock => simp [enter, Mailbox.use, Mailbox.plain_expireDuring]
  | shutDown =>
    simp only [enter, Mailbox.use, Option.toList_none, List.append_nil, true_and]
    rfl

theorem foldl_enter_plain (uses : List (Mailbox.Use α)) (journal : Journal α)
    : (uses.foldl enter journal).popped.map Message.plain
          = journal.popped.map Message.plain ++ (journal.box.plain.useAll uses).1
        ∧ (uses.foldl enter journal).box.plain = (journal.box.plain.useAll uses).2 := by
  induction uses generalizing journal with
  | nil => simp [Mailbox.useAll]
  | cons next uses ih =>
    obtain ⟨hpopped, hbox⟩ := enter_plain journal next
    obtain ⟨hmore, hlast⟩ := ih (journal.enter next)
    rw [hpopped, hbox, List.append_assoc] at hmore
    rw [hbox] at hlast
    exact ⟨hmore, hlast⟩

theorem foldl_enter_pushed (uses : List (Mailbox.Use α)) (journal : Journal α)
    : (uses.foldl enter journal).pushed.map Message.plain
        = journal.pushed.map Message.plain ++ uses.flatMap Mailbox.Use.pushed := by
  induction uses generalizing journal with
  | nil => simp
  | cons next uses ih =>
    rw [List.foldl_cons, ih]
    cases next <;> simp [enter, Mailbox.Use.pushed]

theorem useAll_eq (hasBell : Bool) (uses : List (Mailbox.Use α))
    : ({ hasBell } : Mailbox α).useAll uses
        = ((ofUses hasBell uses).popped.map Message.plain, (ofUses hasBell uses).box.plain) := by
  obtain ⟨hpopped, hbox⟩ := foldl_enter_plain uses { box := { hasBell } }
  rw [ofUses, hpopped, hbox]
  rfl

end Journal

end AutoDJ
