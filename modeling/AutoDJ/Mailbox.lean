/-!
This module contains the mailboxes through which the parts of the program hand work to each other.

A message carries the number of the conversation it belongs to. Whoever collects messages takes the
first one of a conversation, or the first one of all; messages that are skipped keep their places.
-/

namespace AutoDJ

/--
A message in the conversation `id`, where zero stands for none, with the time of its creation in
milliseconds.
-/
structure Message (α : Type) where
  id : UInt64
  payload : α
  createdAt : Nat := 0
deriving Repr, DecidableEq

namespace Message

def broadcast (payload : α) (createdAt : Nat := 0) : Message α :=
  { id := 0, payload, createdAt }

def age (message : Message α) (now : Nat) : Nat :=
  now - message.createdAt

def answers (id : UInt64) (message : Message α) : Bool :=
  id == 0 || message.id == id

end Message

/--
A queue of messages in the order of their arrival. If there is a bell, it is rung for each of them.
-/
structure Mailbox (α : Type) where
  messages : List (Message α) := []
  isShutDown : Bool := false
  hasBell : Bool := false
  rings : Nat := 0
deriving Repr

namespace Mailbox

def size (box : Mailbox α) : Nat :=
  box.messages.length

def isEmpty (box : Mailbox α) : Bool :=
  box.messages.isEmpty

def push (box : Mailbox α) (message : Message α) : Mailbox α :=
  { box with
    messages := box.messages ++ [message]
    rings := if box.hasBell then box.rings + 1 else box.rings }

/--
Take the first message of conversation `id`, or of all for zero. This is also what becomes of
somebody who waits for such a message until the waiting time is over or the mailbox shut down.
-/
def pop (box : Mailbox α) (id : UInt64) : Option (Message α) × Mailbox α :=
  (box.messages.find? (Message.answers id),
    { box with messages := box.messages.eraseP (Message.answers id) })

/--
Throw away the messages that are older than `maxAge` milliseconds, or all of them if that is zero.
The first result is their number.
-/
def expire (box : Mailbox α) (maxAge now : Nat) : Nat × Mailbox α :=
  let stays (message : Message α) : Bool := maxAge != 0 && message.age now ≤ maxAge
  (box.messages.countP (!stays ·), { box with messages := box.messages.filter stays })

/--
Throw away messages in the same way while time passes: the clock is read anew for each of them, and
`clock` tells what it shows when the message at a position is looked at.
-/
def expireDuring (box : Mailbox α) (maxAge : Nat) (clock : Nat → Nat) : Nat × Mailbox α :=
  let stays : Message α × Nat → Bool := fun (message, position) =>
    maxAge != 0 && message.age (clock position) ≤ maxAge
  let entries := box.messages.zipIdx
  (entries.countP (!stays ·), { box with messages := (entries.filter stays).map (·.1) })

theorem expire_eq_expireDuring {box : Mailbox α} {maxAge now : Nat} :
    box.expire maxAge now = box.expireDuring maxAge fun _ => now := by
  have hentries : box.messages.zipIdx.map (·.1) = box.messages := List.zipIdx_map_fst _ _
  unfold expire expireDuring
  dsimp only
  conv => lhs; rw [← hentries, List.countP_map, List.filter_map]
  rfl

def shutDown (box : Mailbox α) : Mailbox α :=
  { box with isShutDown := true }

inductive Arrival (α : Type) where
  | message (message : Message α)
  | shutDown

def arrive (box : Mailbox α) : Arrival α → Mailbox α
  | .message message => box.push message
  | .shutDown => box.shutDown

def popDuring (box : Mailbox α) (id : UInt64) (arrivals : List (Arrival α)) :
    Option (Message α) × Mailbox α :=
  (arrivals.foldl arrive box).pop id

end Mailbox

end AutoDJ
