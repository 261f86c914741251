import AutoDJ.Proofs.Cache.Build
import AutoDJ.Proofs.Service.Claims
import AutoDJ.Proofs.Service.Frame
import AutoDJ.Proofs.Service.Library
import AutoDJ.Proofs.Service.Operation
import Mathlib.Logic.Relation

/-!
This module contains the interleaving of a player service with its clients and its background builds.
The operations of the service are cut into pieces between which the others may act, and each operation
is shown to be a sequence of such pieces.
-/

namespace AutoDJ.Service

inductive Task where
  | idle
  /--
  It raises the flags of `todo` and has raised those of `raised`, for a build of `kinds` that is to run
  at once or in the background.
  -/
  | claiming (atOnce : Bool) (kinds : CacheKinds) (raised todo : List CacheKind)
  | givingUp (kinds : List CacheKind)
  | building (kinds : CacheKinds)
  | posting (deliveries : List Delivery)
  | installing (delivery : Delivery)

def Task.claims : Task → List CacheKind
  | idle => []
  | claiming _ _ raised _ => raised
  | givingUp kinds => kinds
  | building kinds => kinds.toList
  | posting deliveries => deliveries.map Delivery.kind
  | installing delivery => [delivery.kind]

structure Scene (σ ω : Type) where
  service : Service σ ω
  task : Task := .idle

inductive Actor where
  | service
  | build (position : Nat)
  | client

def Intervention.actor : Intervention → Actor
  | .build _ position => .build position
  | .request .. | .takeReply _ | .shutDown => .client

def Intervention.claims : Intervention → List CacheKind
  | .request _ payload _ => payload.claims
  | .takeReply _ | .build .. | .shutDown => []

def Operation.claims : Operation → List CacheKind
  | .handle _ _ request => request.claims
  | .requestBuild _ | .rebuildNow .. | .poll _ | .serve _ | .drain _ => []

variable {σ ω : Type}

def Scene.claimsOf (scene : Scene σ ω) : Actor → List CacheKind
  | .service => scene.task.claims
  | .build position => (scene.service.builds[position]?.map Build.claims).getD []
  | .client => []

def Scene.holders (scene : Scene σ ω) (kind : CacheKind) : Nat :=
  scene.service.holders kind + if kind ∈ scene.task.claims then 1 else 0

structure Agrees (sv sv' : Service σ ω) : Prop where
  inbox : sv'.exchange.inbox = sv.exchange.inbox
  flags : sv'.exchange.flags = sv.exchange.flags
  isShuttingDown : sv'.exchange.isShuttingDown = sv.exchange.isShuttingDown
  builds : sv'.builds = sv.builds

/--
The pieces of work between which the actors take turns.
-/
inductive Piece (b : Backend σ ω) : Actor → Scene σ ω → Scene σ ω → Prop where
  /-- Anything that concerns neither claims nor messages. -/
  | work (h : Agrees sv sv') : Piece b .service ⟨sv, task⟩ ⟨sv', task⟩
  | beginClaim : Piece b .service ⟨sv, .idle⟩ ⟨sv, .claiming atOnce kinds [] kinds.toList⟩
  | raise {sv : Service σ ω} (h : sv.exchange.flags.isBuilding kind = false)
    : Piece b .service ⟨sv, .claiming atOnce kinds raised (kind :: todo)⟩
        ⟨sv.setFlags (sv.exchange.flags.set true kind),
          .claiming atOnce kinds (raised ++ [kind]) todo⟩
  | refuse {sv : Service σ ω} (h : sv.exchange.flags.isBuilding kind = true)
    : Piece b .service ⟨sv, .claiming atOnce kinds raised (kind :: todo)⟩ ⟨sv, .givingUp raised⟩
  | spawn {sv : Service σ ω} {client : σ}
    : Piece b .service ⟨sv, .claiming false kinds raised []⟩
        ⟨{ sv with builds := sv.builds ++ [{ handle := client, kinds }] }, .idle⟩
  | beginBuild : Piece b .service ⟨sv, .claiming true kinds raised []⟩ ⟨sv, .building kinds⟩
  | endBuild {sv : Service σ ω} {client : σ}
    (h : b.build sv.options client kinds sv.room.world = .ok built world)
    : Piece b .service ⟨sv, .building kinds⟩
        ⟨{ sv with room := { sv.room with world } }, .posting built.deliveries⟩
  | failBuild {sv : Service σ ω} {client : σ}
    (h : b.build sv.options client kinds sv.room.world = .error e world)
    : Piece b .service ⟨sv, .building kinds⟩
        ⟨emitCacheError { sv with room := { sv.room with world } } e, .givingUp kinds.toList⟩
  | post {sv : Service σ ω}
    : Piece b .service ⟨sv, .posting (delivery :: rest)⟩ ⟨sv.post uptime delivery, .posting rest⟩
  | endPost : Piece b .service ⟨sv, .posting []⟩ ⟨sv, .idle⟩
  | lower {sv : Service σ ω}
    : Piece b .service ⟨sv, .givingUp (kind :: rest)⟩ ⟨sv.release kind, .givingUp rest⟩
  | endLower : Piece b .service ⟨sv, .givingUp []⟩ ⟨sv, .idle⟩
  | takeDelivery {sv : Service σ ω} {message : Message Request} {inbox : Exchange}
    (h : sv.exchange.takeRequest = (some message, inbox))
    (hpayload : message.payload = .deliver delivery)
    : Piece b .service ⟨sv, .idle⟩ ⟨{ sv with exchange := inbox }, .installing delivery⟩
  | takeOther {sv : Service σ ω} {message : Message Request} {inbox : Exchange}
    (h : sv.exchange.takeRequest = (some message, inbox)) (hpayload : message.payload.claims = [])
    : Piece b .service ⟨sv, .idle⟩ ⟨{ sv with exchange := inbox }, .idle⟩
  | endInstall {sv : Service σ ω}
    : Piece b .service ⟨sv, .installing delivery⟩ ⟨sv.release delivery.kind, .idle⟩
  | others {intervention : Intervention} (h : intervention.claims = [])
    : Piece b intervention.actor ⟨sv, task⟩ ⟨intervention.run b sv, task⟩

def Leads (b : Backend σ ω) : Scene σ ω → Scene σ ω → Prop :=
  Relation.ReflTransGen (Piece b .service)

variable {b : Backend σ ω}

theorem leads_givingUp (kinds : List CacheKind) (sv : Service σ ω)
    : Leads b ⟨sv, .givingUp kinds⟩ ⟨kinds.foldl release sv, .idle⟩ := by
  induction kinds generalizing sv with
  | nil => exact .single .endLower
  | cons kind kinds ih => exact .head .lower (ih _)

theorem claim_go_leads {atOnce : Bool} {kinds : CacheKinds} (todo raised : List CacheKind)
    (sv : Service σ ω)
    : (BuildFlags.claim.go todo raised).Ends sv.exchange.flags
        (fun _ flags =>
          Leads b ⟨sv, .claiming atOnce kinds raised todo⟩
            ⟨sv.setFlags flags, .claiming atOnce kinds (raised ++ todo) []⟩)
        (fun _ flags =>
          Leads b ⟨sv, .claiming atOnce kinds raised todo⟩ ⟨sv.setFlags flags, .idle⟩) := by
  induction todo generalizing raised sv with
  | nil =>
    rw [BuildFlags.claim.go, Play.ends_pure, List.append_nil]
    exact .refl
  | cons kind todo ih =>
    unfold BuildFlags.claim.go
    simp only [Play.ends_bind, Play.ends_get, Play.ends_ite, Play.ends_modify, Play.ends_throw,
      Bool.not_eq_true]
    refine ⟨fun h => ?_, fun h => ?_⟩
    . -- a flag is up already, so that those raised so far are lowered one by one
      have hback := leads_givingUp (b := b) raised sv
      rw [foldl_release] at hback
      exact hback.head (.refuse h)
    . have hrest := ih (raised ++ [kind]) (sv.setFlags (sv.exchange.flags.set true kind))
      rw [List.append_assoc] at hrest
      apply hrest.mono
      . intro _ flags hpath
        exact hpath.head (.raise h)
      . intro _ flags hpath
        exact hpath.head (.raise h)

theorem claim_leads (atOnce : Bool) (kinds : CacheKinds) (sv : Service σ ω)
    : (claim kinds).Ends sv
        (fun _ sv' => Leads b ⟨sv, .idle⟩ ⟨sv', .claiming atOnce kinds kinds.toList []⟩)
        (fun _ sv' => Leads b ⟨sv, .idle⟩ ⟨sv', .idle⟩) := by
  rw [ends_claim]
  apply (claim_go_leads kinds.toList [] sv).mono
  . intro _ flags hpath
    exact hpath.head .beginClaim
  . intro _ flags hpath
    exact hpath.head .beginClaim

theorem requestBuild_leads (kinds : CacheKinds) (sv : Service σ ω)
    : (requestBuild b kinds).Ends sv (fun _ sv' => Leads b ⟨sv, .idle⟩ ⟨sv', .idle⟩)
        (fun _ sv' => Leads b ⟨sv, .idle⟩ ⟨sv', .idle⟩) := by
  unfold requestBuild
  rw [Play.ends_bind, Play.ends_get]
  cases sv.partitions with
  | nil =>
    dsimp only
    rw [Play.ends_pure]
    exact .refl
  | cons first rest =>
    dsimp only
    rw [Play.ends_bind]
    apply (claim_leads false kinds sv).mono
    . intro _ sv' hpath
      rw [Play.ends_modify]
      exact hpath.tail .spawn
    . intro _ sv' hpath
      exact hpath

theorem leads_posting (deliveries : List Delivery) (uptime : Nat) (sv : Service σ ω)
    : Leads b ⟨sv, .posting deliveries⟩
        ⟨deliveries.foldl (fun sv delivery => sv.post uptime delivery) sv, .idle⟩ := by
  induction deliveries generalizing sv with
  | nil => exact .single .endPost
  | cons delivery deliveries ih => exact (ih _).head .post

theorem agrees_reply (sv : Service σ ω) (now : Moment) (id : UInt64) (answer : Reply)
    : Agrees sv (sv.reply now id answer) := by
  obtain ⟨responses, heq⟩ := reply_eq sv now id answer
  rw [heq]
  exact ⟨rfl, rfl, rfl, rfl⟩

theorem fill_agrees (now : Moment) (name : String) (count : Nat) (albums : Bool) (sv : Service σ ω)
    : (fill b now name count albums).Ends sv (fun _ => Agrees sv) (fun _ => Agrees sv) := by
  apply (fill_ends now name count albums).imp
  rintro _ ⟨partitions, room, rfl⟩
  exact ⟨rfl, rfl, rfl, rfl⟩

theorem leads_handle (now : Moment) (message : Message Request) (sv : Service σ ω)
    (h : message.payload.claims = [])
    : Leads b ⟨sv, .idle⟩ ⟨handle b now message sv, .idle⟩ := by
  apply handle_keeps (P := fun sv' => Leads b ⟨sv, .idle⟩ ⟨sv', .idle⟩) now
  . exact fun sv' id answer hpath => hpath.tail (.work (agrees_reply sv' now id answer))
  . intro kinds _ sv' hpath
    apply (requestBuild_leads kinds sv').imp
    exact fun _ => hpath.trans
  . intro delivery hpayload
    simp [hpayload, Request.claims] at h
  . intro name count albums _ sv' hpath
    apply (fill_agrees now name count.toNat albums sv').imp
    exact fun _ hagrees => hpath.tail (.work hagrees)
  . exact .refl

theorem leads_install (delivery : Delivery) (sv : Service σ ω)
    : Leads b ⟨sv, .installing delivery⟩ ⟨sv.install delivery, .idle⟩ := by
  unfold install
  dsimp only
  split
  . exact .single .endInstall
  . refine .tail (.single (.work ?_)) .endInstall
    exact ⟨rfl, rfl, rfl, rfl⟩

theorem leads_handle_taken {now : Moment} {message : Message Request} {exchange : Exchange}
    {sv : Service σ ω} (h : sv.exchange.takeRequest = (some message, exchange))
    : Leads b ⟨sv, .idle⟩ ⟨handle b now message { sv with exchange }, .idle⟩ := by
  cases hpayload : message.payload with
  | deliver delivery =>
    have hinstall := leads_install (b := b) delivery { sv with exchange }
    unfold handle
    rw [hpayload]
    exact hinstall.head (.takeDelivery h hpayload)
  | buildCaches _ | fill _ _ _ =>
    -- no claim is in transit, so that the message can be taken before anything is done
    have hclaims : message.payload.claims = [] := by
      rw [hpayload]
      rfl
    exact (leads_handle now message _ hclaims).head (.takeOther h hclaims)

theorem leads_drain_go (now : Moment) (waiting handled : Nat) (sv : Service σ ω)
    : Leads b ⟨sv, .idle⟩ ⟨(drain.go b now waiting handled sv).2, .idle⟩ := by
  induction waiting generalizing handled sv with
  | zero => exact .refl
  | succ waiting ih =>
    unfold drain.go
    split
    . exact .refl
    . next h => exact (leads_handle_taken h).trans (ih _ _)

theorem rebuildNow_leads (now : Moment) (kinds : CacheKinds) (sv : Service σ ω)
    : (rebuildNow b now kinds).Ends sv (fun _ sv' => Leads b ⟨sv, .idle⟩ ⟨sv', .idle⟩)
        (fun _ sv' => Leads b ⟨sv, .idle⟩ ⟨sv', .idle⟩) := by
  unfold rebuildNow
  rw [Play.ends_bind, Play.ends_get]
  cases sv.partitions with
  | nil =>
    dsimp only
    rw [Play.ends_pure]
    exact .refl
  | cons first rest =>
    dsimp only
    rw [Play.ends_bind]
    apply (claim_leads (b := b) true kinds sv).mono
    . intro _ sv' hclaim
      rw [Play.ends_bind, Play.ends_get]
      have hbuild := hclaim.tail .beginBuild
      split
      . next h =>
        rw [Play.ends_set]
        exact ((hbuild.tail (.endBuild h)).trans (leads_posting ..)).trans (leads_drain_go ..)
      . next h =>
        rw [Play.ends_bind, Play.ends_set, Play.ends_throw]
        exact (hbuild.tail (.failBuild h)).trans (leads_givingUp ..)
    . intro _ sv' hpath
      exact hpath

theorem leads_checkLibrary (sv : Service σ ω)
    : Leads b ⟨sv, .idle⟩ ⟨checkLibrary b sv, .idle⟩ := by
  obtain ⟨partitions, room, hasked, -⟩ := asked_eq b sv
  cases htoken : token? b sv with
  | none =>
    rw [checkLibrary_of_unread htoken, hasked]
    exact .single (.work ⟨rfl, rfl, rfl, rfl⟩)
  | some token =>
    rw [checkLibrary_of_read htoken, hasked]
    split
    . refine .head (.work ?_) (Play.ends_after.mp (requestBuild_leads .all _))
      exact ⟨rfl, rfl, rfl, rfl⟩
    . exact .single (.work ⟨rfl, rfl, rfl, rfl⟩)

theorem leads_operation (operation : Operation) (sv : Service σ ω) (h : operation.claims = [])
    : Leads b ⟨sv, .idle⟩ ⟨operation.run b sv, .idle⟩ := by
  cases operation with
  | requestBuild kinds => exact Play.ends_after.mp (requestBuild_leads kinds sv)
  | rebuildNow now kinds => exact Play.ends_after.mp (rebuildNow_leads now kinds sv)
  | poll now => exact (leads_checkLibrary sv).tail (.work ⟨rfl, rfl, rfl, rfl⟩)
  | handle now id request => exact leads_handle now _ sv h
  | serve now =>
    unfold Operation.run serveNext
    dsimp only
    split
    . exact .refl
    . next heq => exact leads_handle_taken heq
  | drain now => exact leads_drain_go now _ 0 sv

end AutoDJ.Service
