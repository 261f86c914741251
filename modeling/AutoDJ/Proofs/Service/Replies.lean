import AutoDJ.Proofs.Mailbox.Journal
import AutoDJ.Proofs.Service.Rebuild
import Mathlib.Data.List.Forall2

namespace AutoDJ

def Message.isQuestion (message : Message Request) : Bool :=
  message.id != 0 &&
    match message.payload with
    | .deliver _ => false
    | .buildCaches _ | .fill .. => true

def Request.Admits : Request → Reply → Prop
  | .buildCaches _, .accepted => True
  | .buildCaches kinds, .busy kind => kinds.contains kind = true
  | .fill name _ _, .filled partition _ => partition = name
  | .fill .., .failed _ => True
  | _, _ => False

structure Message.IsReplyTo (reply : Message Reply) (request : Message Request) : Prop where
  id : reply.id = request.id
  payload : request.payload.Admits reply.payload

namespace Service

variable {σ ω : Type} {b : Backend σ ω} {sv : Service σ ω}

def replies (sv : Service σ ω) : List (Message Reply) :=
  sv.exchange.responses.messages

theorem replies_reply (now : Moment) (id : UInt64) (answer : Reply)
    : (sv.reply now id answer).replies
        = sv.replies ++ if id = 0 then [] else [{ id, payload := answer, createdAt := now.uptime }] := by
  unfold reply
  split
  . rw [List.append_nil]
  . rfl

theorem replies_install (delivery : Delivery) : (sv.install delivery).replies = sv.replies := by
  unfold install
  dsimp only
  split <;> rfl

theorem requestBuild_replies (kinds : CacheKinds) (sv : Service σ ω)
    : (requestBuild b kinds).Ends sv (fun _ sv' => sv'.replies = sv.replies)
        (fun e sv' => sv'.replies = sv.replies ∧ ∃ kind, kinds.contains kind = true ∧ e = .busy kind) := by
  unfold requestBuild
  rw [Play.ends_bind, Play.ends_get]
  cases sv.partitions with
  | nil => rfl
  | cons first rest =>
    dsimp only
    rw [Play.ends_bind, ends_claim]
    apply (BuildFlags.claim_ends kinds sv.exchange.flags).mono
    . intro _ flags _
      rfl
    . rintro e flags ⟨-, kind, hkind, -, rfl⟩
      exact ⟨rfl, kind, hkind, rfl⟩

theorem fill_replies (now : Moment) (name : String) (count : Nat) (albums : Bool) (sv : Service σ ω)
    : (fill b now name count albums).Ends sv (fun _ sv' => sv'.replies = sv.replies)
        (fun _ sv' => sv'.replies = sv.replies) := by
  apply (fill_ends now name count albums).imp
  rintro _ ⟨partitions, room, rfl⟩
  rfl

/--
The messages `answered` have been sent in reply to the questions among `messages`, and no others.
-/
def Answered (messages : List (Message Request)) (answered : List (Message Reply)) : Prop :=
  List.Forall₂ (fun request reply => reply.IsReplyTo request) (messages.filter Message.isQuestion) answered

theorem Answered.append {messages messages' : List (Message Request)}
    {answered answered' : List (Message Reply)} (h : Answered messages answered)
    (h' : Answered messages' answered') : Answered (messages ++ messages') (answered ++ answered') := by
  unfold Answered
  rw [List.filter_append]
  exact List.rel_append h h'

theorem Answered.conversation {messages : List (Message Request)} {answered : List (Message Reply)}
    (h : Answered messages answered) (id : UInt64)
    : Answered (messages.filter (Message.answers id)) (answered.filter (Message.answers id)) := by
  unfold Answered
  rw [List.filter_comm]
  apply List.rel_filter _ h
  intro request reply hreply
  simp only [Message.answers, hreply.id]

theorem handle_replies (now : Moment) (message : Message Request) (sv : Service σ ω)
    : ∃ answered, (handle b now message sv).replies = sv.replies ++ answered
        ∧ Answered [message] answered := by
  -- whatever has been done for a question, at most the reply to it is new
  have hreply (sv' : Service σ ω) (answer : Reply) (hsv' : sv'.replies = sv.replies)
      (hquestion : message.isQuestion = (message.id != 0)) (hanswer : message.payload.Admits answer)
      : ∃ answered, (sv'.reply now message.id answer).replies = sv.replies ++ answered
          ∧ Answered [message] answered := by
    refine ⟨_, by rw [replies_reply, hsv'], ?_⟩
    unfold Answered
    by_cases hid : message.id = 0
    . simp [hquestion, hid]
    . simpa [hquestion, hid] using ⟨rfl, hanswer⟩
  unfold handle
  cases hpayload : message.payload with
  | buildCaches kinds =>
    have hrequested := requestBuild_replies (b := b) kinds sv
    have hquestion : message.isQuestion = (message.id != 0) := by simp [Message.isQuestion, hpayload]
    dsimp only
    cases heq : requestBuild b kinds sv with
    | ok _ sv' =>
      apply hreply sv' _ (hrequested.of_ok heq) hquestion
      rw [hpayload]
      trivial
    | error e sv' =>
      obtain ⟨hsv', kind, hkind, rfl⟩ := hrequested.of_error heq
      apply hreply sv' _ hsv' hquestion
      rw [hpayload]
      exact hkind
  | deliver delivery =>
    refine ⟨[], ?_, ?_⟩
    . rw [replies_install, List.append_nil]
    . simp [Answered, Message.isQuestion, hpayload]
  | fill name count albums =>
    have hfilled := fill_replies (b := b) now name count.toNat albums sv
    have hquestion : message.isQuestion = (message.id != 0) := by simp [Message.isQuestion, hpayload]
    dsimp only
    cases heq : fill b now name count.toNat albums sv with
    | ok added sv' =>
      apply hreply sv' _ (hfilled.of_ok heq) hquestion
      rw [hpayload]
      rfl
    | error e sv' =>
      apply hreply sv' _ (hfilled.of_error heq) hquestion
      rw [hpayload]
      trivial

theorem foldl_handle_replies (now : Moment) (messages : List (Message Request)) (sv : Service σ ω)
    : ∃ answered,
        (messages.foldl (fun sv message => handle b now message sv) sv).replies = sv.replies ++ answered
          ∧ Answered messages answered := by
  induction messages generalizing sv with
  | nil => exact ⟨[], by simp, .nil⟩
  | cons message messages ih =>
    obtain ⟨first, hfirst, hanswered⟩ := handle_replies (b := b) now message sv
    obtain ⟨rest, hrest, hmore⟩ := ih (handle b now message sv)
    refine ⟨first ++ rest, ?_, hanswered.append hmore⟩
    rw [List.foldl_cons, hrest, hfirst, List.append_assoc]

/--
A drain handles all messages in the inbox, in the order of their arrival, and leaves none. Each question
among them gets one reply, in that order, and nobody else gets any: whoever then asks for a conversation
again and again gets the replies that were there before, and after them those to its questions.
-/
theorem drain_replies (now : Moment) (sv : Service σ ω)
    : (drain b now sv).1 = sv.exchange.inbox.messages.length
      ∧ (drain b now sv).2
          = (sv.exchange.inbox.messages.foldl (fun sv message => handle b now message sv) sv).setInbox
              { sv.exchange.inbox with messages := [] }
      ∧ ∃ answered,
          (drain b now sv).2.exchange.responses.messages = sv.exchange.responses.messages ++ answered
            ∧ Answered sv.exchange.inbox.messages answered
            ∧ ∀ id,
                Answered (sv.exchange.inbox.messages.filter (Message.answers id))
                    (answered.filter (Message.answers id))
                  ∧ ∀ n,
                      ((drain b now sv).2.exchange.responses.useAll (List.replicate n (.pop id))).1
                        = (sv.exchange.responses.messages.filter (Message.answers id)
                            ++ answered.filter (Message.answers id)).take n := by
  obtain ⟨answered, hreplies, hanswered⟩ :=
    foldl_handle_replies (b := b) now sv.exchange.inbox.messages sv
  have hmessages
      : (drain b now sv).2.exchange.responses.messages = sv.exchange.responses.messages ++ answered := by
    rw [drain_eq]
    exact hreplies
  refine ⟨by rw [drain_eq], by rw [drain_eq], answered, hmessages, hanswered, fun id => ⟨?_, fun n => ?_⟩⟩
  . exact hanswered.conversation id
  . rw [Mailbox.useAll_pop, hmessages, List.filter_append]

end Service

end AutoDJ
