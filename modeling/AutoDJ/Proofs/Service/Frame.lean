import AutoDJ.Proofs.Play.Ends
import AutoDJ.Service.Run
import Mathlib.Data.List.TakeDrop

namespace AutoDJ

theorem Exchange.takeRequest_cons {exchange : Exchange} {first : Message Request}
    {rest : List (Message Request)} (h : exchange.inbox.messages = first :: rest)
    : exchange.takeRequest
        = (some first, { exchange with inbox := { exchange.inbox with messages := rest } }) := by
  have hall : Message.answers (α := Request) 0 = fun _ => true := by
    funext message
    rfl
  simp [Exchange.takeRequest, Mailbox.pop, hall, h]

namespace Service

variable {σ ω : Type} {b : Backend σ ω} {sv : Service σ ω}

def setFlags (sv : Service σ ω) (flags : BuildFlags) : Service σ ω :=
  { sv with exchange := { sv.exchange with flags } }

theorem foldl_release (kinds : List CacheKind) (sv : Service σ ω)
    : kinds.foldl release sv = sv.setFlags (sv.exchange.flags.releaseAll kinds) := by
  induction kinds generalizing sv with
  | nil => rfl
  | cons kind kinds ih =>
    rw [List.foldl_cons, ih]
    rfl

theorem ends_claim {kinds : CacheKinds} {Q : Unit → Service σ ω → Prop}
    {E : Error → Service σ ω → Prop}
    : (claim kinds).Ends sv Q E
        ↔ (BuildFlags.claim kinds).Ends sv.exchange.flags (fun value flags => Q value (sv.setFlags flags))
            (fun e flags => E e (sv.setFlags flags)) := by
  unfold Play.Ends claim Exchange.claim
  dsimp only
  cases BuildFlags.claim kinds sv.exchange.flags <;> rfl

theorem requestBuild_ends (kinds : CacheKinds)
    : (requestBuild b kinds).Ends sv
        (fun _ sv' => sv' = sv ∨ ∃ flags client,
          sv' = { sv.setFlags flags with builds := sv.builds ++ [{ handle := client, kinds }] })
        (fun _ sv' => ∃ flags, sv' = sv.setFlags flags) := by
  unfold requestBuild
  rw [Play.ends_bind, Play.ends_get]
  cases sv.partitions with
  | nil => exact .inl rfl
  | cons first rest =>
    dsimp only
    rw [Play.ends_bind, ends_claim]
    apply Play.ends_of_forall
    . intro _ flags
      exact .inr ⟨flags, _, rfl⟩
    . intro _ flags
      exact ⟨flags, rfl⟩

theorem partitions_of_span {name : String} {before after : List (Partition σ)} {p : Partition σ}
    (h : sv.partitions.span (·.name != name) = (before, p :: after))
    : sv.partitions = before ++ p :: after := by
  rw [List.span_eq_takeWhile_dropWhile] at h
  obtain ⟨rfl, hafter⟩ := Prod.mk.inj h
  rw [← hafter, List.takeWhile_append_dropWhile]

def Replaces (I : Partition σ → Partition σ × Room ω → Prop) (sv sv' : Service σ ω) : Prop :=
  sv' = sv ∨ ∃ before p after p' room,
    sv.partitions = before ++ p :: after ∧ I p (p', room)
      ∧ sv' = { sv with partitions := before ++ p' :: after, room }

theorem fill_replaces {I : Partition σ → Partition σ × Room ω → Prop} (now : Moment) (name : String)
    (count : Nat) (albums : Bool)
    (h : ∀ p ∈ sv.partitions,
      (Partition.fill b sv.caches sv.options.pageSize now.unix fun booth => booth.addNow count albums).Ends
        (p, sv.room) (fun _ => I p) (fun _ => I p))
    : (fill b now name count albums).Ends sv (fun _ => sv.Replaces I) (fun _ => sv.Replaces I) := by
  unfold fill Play.Ends
  dsimp only
  cases hspan : sv.partitions.span (·.name != name) with
  | mk before found =>
    cases found with
    | nil => exact .inl rfl
    | cons p after =>
      have hpartitions := partitions_of_span hspan
      have hfilled := h p (by simp [hpartitions])
      dsimp only
      cases heq : Partition.fill b sv.caches sv.options.pageSize now.unix
        (fun booth => booth.addNow count albums) (p, sv.room) with
      | ok _ state => exact .inr ⟨before, p, after, _, _, hpartitions, hfilled.of_ok heq, rfl⟩
      | error _ state => exact .inr ⟨before, p, after, _, _, hpartitions, hfilled.of_error heq, rfl⟩

theorem fill_ends (now : Moment) (name : String) (count : Nat) (albums : Bool)
    : (fill b now name count albums).Ends sv
        (fun _ sv' => ∃ partitions room, sv' = { sv with partitions, room })
        (fun _ sv' => ∃ partitions room, sv' = { sv with partitions, room }) := by
  apply (fill_replaces (I := fun _ _ => True) now name count albums ?_).imp
  . rintro sv' (heq | ⟨before, p, after, p', room, -, -, heq⟩)
    . exact ⟨sv.partitions, sv.room, heq⟩
    . exact ⟨_, _, heq⟩
  . exact fun _ _ => Play.ends_of_forall (fun _ _ => trivial) (fun _ _ => trivial)

theorem reply_eq (sv : Service σ ω) (now : Moment) (id : UInt64) (answer : Reply)
    : ∃ responses, sv.reply now id answer = { sv with exchange := { sv.exchange with responses } } := by
  unfold reply
  split
  . exact ⟨sv.exchange.responses, rfl⟩
  . exact ⟨_, rfl⟩

theorem handle_keeps {P : Service σ ω → Prop} {message : Message Request} (now : Moment)
    (hreply : ∀ sv id answer, P sv → P (sv.reply now id answer))
    (hrequest : ∀ kinds, message.payload = .buildCaches kinds → (requestBuild b kinds).Keeps P)
    (hdeliver : ∀ delivery, message.payload = .deliver delivery → ∀ sv, P sv → P (sv.install delivery))
    (hfill : ∀ name count albums, message.payload = .fill name count albums
      → (fill b now name count.toNat albums).Keeps P)
    (h : P sv) : P (handle b now message sv) := by
  unfold handle
  cases hpayload : message.payload with
  | buildCaches kinds =>
    have hrequested := hrequest kinds hpayload sv h
    dsimp only
    cases heq : requestBuild b kinds sv with
    | ok _ sv' => exact hreply _ _ _ (hrequested.of_ok heq)
    | error e sv' => cases e <;> exact hreply _ _ _ (hrequested.of_error heq)
  | deliver delivery => exact hdeliver delivery hpayload sv h
  | fill name count albums =>
    have hfilled := hfill name count albums hpayload sv h
    dsimp only
    cases heq : fill b now name count.toNat albums sv with
    | ok added sv' => exact hreply _ _ _ (hfilled.of_ok heq)
    | error e sv' => exact hreply _ _ _ (hfilled.of_error heq)

end Service

end AutoDJ
