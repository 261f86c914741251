import AutoDJ.Mailbox

namespace AutoDJ.Rehearsal

structure TimedMailbox (α : Type) where
  box : Mailbox α
  now : Nat := 0
  /-- Messages that have been created and not yet been sent, each under a name of its own. -/
  drafts : List (String × Message α) := []
  marks : List Nat := []
deriving Repr

namespace TimedMailbox

def tick (m : TimedMailbox α) : TimedMailbox α :=
  { m with now := m.now + 1 }

def message (m : TimedMailbox α) (id : UInt64) (payload : α) : Message α :=
  { id, payload, createdAt := m.now }

def send (m : TimedMailbox α) (message : Message α) : TimedMailbox α :=
  { m with box := m.box.push message }

def draft (m : TimedMailbox α) (name : String) (message : Message α) : TimedMailbox α :=
  { m with drafts := (name, message) :: m.drafts.filter fun (other, _) => other ≠ name }

def sendDraft (m : TimedMailbox α) (name : String) : TimedMailbox α :=
  match m.drafts.lookup name with
  | some message =>
    { m with drafts := m.drafts.filter fun (other, _) => other ≠ name }.send message
  | none => m

def mark (m : TimedMailbox α) : TimedMailbox α :=
  { m with marks := m.marks ++ [m.now] }

def expire (m : TimedMailbox α) (maxAge : Nat) : Nat × TimedMailbox α :=
  let (removed, box) := m.box.expire maxAge m.now
  (removed, { m with box })

def expireBefore (m : TimedMailbox α) (mark : Nat) : Nat × TimedMailbox α :=
  m.expire (m.now - m.marks.getD mark 0)

end TimedMailbox

end AutoDJ.Rehearsal
