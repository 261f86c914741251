import AutoDJ.Proofs.Service.Scene
import AutoDJ.Rehearsal.Service
import Mathlib.Data.List.Perm.Basic

/-!
This module contains the proof that no two builds of one kind of snapshot are ever in flight: as long as
the flag of a kind is up, exactly one build, message or thread holds the claim that goes with it.
-/

namespace AutoDJ.Service

/--
There is one claim for each flag that is up, and none for the others.
-/
def Balanced (claims : List CacheKind) (flags : BuildFlags) : Prop :=
  ∀ kind, claims.count kind = if flags.isBuilding kind then 1 else 0

namespace Balanced

variable {claims claims' : List CacheKind} {flags : BuildFlags} {kind : CacheKind}

theorem recount (h : Balanced claims flags) (hcount : ∀ kind, claims.count kind = claims'.count kind)
    : Balanced claims' flags := by
  intro kind
  rw [← hcount]
  apply h

theorem raise (h : Balanced claims flags) (hdown : flags.isBuilding kind = false)
    : Balanced (kind :: claims) (flags.set true kind) := by
  intro other
  have hother := h other
  rw [List.count_cons, BuildFlags.isBuilding_set, hother]
  by_cases hkind : other = kind
  . simp [hkind, hdown]
  . have : (kind == other) = false := by simpa using Ne.symm hkind
    simp [hkind, this]

theorem lower (h : Balanced (kind :: claims) flags) : Balanced claims (flags.release kind) := by
  intro other
  have hother := h other
  rw [List.count_cons] at hother
  rw [BuildFlags.release, BuildFlags.isBuilding_set]
  by_cases hkind : other = kind
  . subst hkind
    simp only [BEq.rfl, if_true] at hother
    rw [if_pos rfl]
    split at hother <;> simp <;> omega
  . have : (kind == other) = false := by simpa using Ne.symm hkind
    simpa [hkind, this] using hother

end Balanced

variable {σ ω : Type} {b : Backend σ ω}

def Scene.claims (scene : Scene σ ω) : List CacheKind :=
  scene.task.claims ++ scene.service.claims

def Task.Sound : Task → Prop
  | claiming _ kinds raised todo => raised ++ todo = kinds.toList
  | idle | givingUp _ | building _ | posting _ | installing _ => True

structure Scene.Sound (scene : Scene σ ω) : Prop where
  balanced : Balanced scene.claims scene.service.exchange.flags
  task : scene.task.Sound

theorem Scene.holders_eq_count_claims {scene : Scene σ ω} {kind : CacheKind}
    (h : scene.claims.count kind ≤ 1) : scene.holders kind = scene.claims.count kind := by
  unfold Scene.holders
  unfold Scene.claims at *
  rw [List.count_append] at *
  rw [Service.holders_eq_count_claims (by omega)]
  split
  . next hmem =>
    have := List.count_pos_iff.mpr hmem
    omega
  . next hmem =>
    have := List.count_eq_zero_of_not_mem hmem
    omega

theorem Scene.Sound.holders_eq {scene : Scene σ ω} (h : scene.Sound) (kind : CacheKind)
    : scene.holders kind = if scene.service.exchange.flags.isBuilding kind then 1 else 0 := by
  have hcount := h.balanced kind
  rw [← hcount]
  apply Scene.holders_eq_count_claims
  rw [hcount]
  split <;> omega

theorem takeRequest_claims {exchange exchange' : Exchange} {message : Message Request}
    (h : exchange.takeRequest = (some message, exchange'))
    : exchange.claims = message.payload.claims ++ exchange'.claims
      ∧ exchange'.flags = exchange.flags := by
  cases hmessages : exchange.inbox.messages with
  | nil => simp [Exchange.takeRequest, Mailbox.pop, hmessages] at h
  | cons first rest =>
    rw [Exchange.takeRequest_cons hmessages] at h
    obtain ⟨rfl, rfl⟩ := h
    exact ⟨by simp [Exchange.claims, hmessages], rfl⟩

def claimsLeft (left : Option (Build σ)) : List CacheKind :=
  (left.map Build.claims).getD []

inductive Advances (sv : Service σ ω)
    : (held left : List CacheKind) → (sv' : Service σ ω) → Prop where
  | keep (h : Agrees sv sv') : Advances sv held held sv'
  | post : Advances sv (delivery.kind :: rest) rest (sv.post uptime delivery)
  | release : Advances sv (kind :: rest) rest (sv.release kind)

theorem advance_advances {uptime : Nat} {build : Build σ} {left : Option (Build σ)}
    {sv sv' : Service σ ω} (h : advance b uptime build sv = (left, sv'))
    : Advances sv build.claims (claimsLeft left) sv' := by
  unfold advance at h
  cases hphase : build.phase with
  | scanning =>
    have hclaims : build.claims = build.kinds.toList := by rw [Build.claims, hphase]
    have hbuild := b.build_ends sv.options build.handle build.kinds sv.room.world
    rw [hphase] at h
    dsimp only at h
    rw [hclaims]
    split at h
    . next built world hrun =>
      split at h
      . cases h
        exact .keep ⟨rfl, rfl, rfl, rfl⟩
      . cases h
        have hdeliveries := (hbuild.of_ok hrun).kinds_deliveries
        rw [← hdeliveries]
        exact .keep ⟨rfl, rfl, rfl, rfl⟩
    . cases h
      exact .keep ⟨rfl, rfl, rfl, rfl⟩
  | posting deliveries =>
    rw [hphase] at h
    rw [Build.claims, hphase]
    cases deliveries with
    | nil =>
      cases h
      exact .keep ⟨rfl, rfl, rfl, rfl⟩
    | cons delivery rest =>
      cases h
      exact .post
  | yielding kinds =>
    rw [hphase] at h
    rw [Build.claims, hphase]
    cases kinds with
    | nil =>
      cases h
      exact .keep ⟨rfl, rfl, rfl, rfl⟩
    | cons kind rest =>
      cases h
      exact .release

namespace Advances

variable {sv sv' : Service σ ω} {held left : List CacheKind}

theorem builds (h : Advances sv held left sv') : sv'.builds = sv.builds := by
  cases h with
  | keep h => exact h.builds
  | post => rfl
  | release => rfl

theorem balanced (h : Advances sv held left sv') (others : List CacheKind)
    (hbalanced : Balanced (held ++ (others ++ sv.exchange.claims)) sv.exchange.flags)
    : Balanced (left ++ (others ++ sv'.exchange.claims)) sv'.exchange.flags := by
  cases h with
  | keep h => simpa only [Exchange.claims, h.inbox, h.flags] using hbalanced
  | post =>
    apply hbalanced.recount
    intro kind
    simp only [Service.post, Exchange.claims_request, Request.claims, List.count_append,
      List.count_cons, List.count_nil]
    omega
  | release => exact hbalanced.lower

theorem lowers (h : Advances sv held left sv') {kind : CacheKind}
    (hup : sv.exchange.flags.isBuilding kind = true)
    (hdown : sv'.exchange.flags.isBuilding kind = false) : kind ∈ held := by
  cases h with
  | keep h => simp_all [h.flags]
  | post => simp_all [Service.post, Exchange.request]
  | release => simp_all [Service.release, Exchange.release, BuildFlags.release]

end Advances

theorem stepBuild_sound (uptime position : Nat) (sv : Service σ ω) (task : Task)
    (h : Scene.Sound ⟨sv, task⟩)
    : Scene.Sound ⟨stepBuild b uptime position sv, task⟩ := by
  refine ⟨?_, h.task⟩
  unfold stepBuild
  split
  . exact h.balanced
  . next build hbuild =>
    obtain ⟨hposition, hbuild⟩ := List.getElem?_eq_some_iff.mp hbuild
    -- the other builds keep their claims, wherever they stand in the list
    have hcount (kind : CacheKind) : (sv.builds.flatMap Build.claims).count kind
        = build.claims.count kind
          + ((sv.builds.eraseIdx position).flatMap Build.claims).count kind := by
      have := (List.getElem_cons_eraseIdx_perm hposition).flatMap_right Build.claims
      rw [hbuild] at this
      rw [← this.count_eq, List.flatMap_cons, List.count_append]
    cases hadvance : advance b uptime build sv with
    | mk left sv' =>
      have hadvances := advance_advances hadvance
      have hstep := hadvances.balanced
        (task.claims ++ (sv.builds.eraseIdx position).flatMap Build.claims) (by
          apply h.balanced.recount
          intro kind
          simp only [Scene.claims, Service.claims, List.count_append, hcount]
          omega)
      dsimp only
      apply hstep.recount
      intro kind
      rw [hadvances.builds]
      cases left with
      | some left =>
        have := (List.set_perm_cons_eraseIdx hposition left).flatMap_right Build.claims
        simp only [Scene.claims, Service.claims, List.count_append, this.count_eq,
          List.flatMap_cons, claimsLeft, Option.map_some, Option.getD_some, Exchange.claims]
        omega
      | none =>
        simp only [Scene.claims, Service.claims, List.count_append, claimsLeft,
          Option.map_none, Option.getD_none, List.count_nil, Exchange.claims]
        omega

theorem Intervention.run_sound {intervention : Intervention} (hclaims : intervention.claims = [])
    {sv : Service σ ω} {task : Task} (h : Scene.Sound ⟨sv, task⟩)
    : Scene.Sound ⟨intervention.run b sv, task⟩ := by
  cases intervention with
  | request id r uptime =>
    have hr : r.claims = [] := hclaims
    refine ⟨h.balanced.recount ?_, h.task⟩
    simp [run, Scene.claims, Service.claims, hr]
  | takeReply id => exact ⟨h.balanced, h.task⟩
  | build uptime position => exact stepBuild_sound uptime position sv task h
  | shutDown => exact ⟨h.balanced, h.task⟩

theorem Piece.sound {who : Actor} {scene next : Scene σ ω} (h : Piece b who scene next)
    (hscene : scene.Sound) : next.Sound := by
  obtain ⟨hbalanced, htask⟩ := hscene
  cases h with
  | work h =>
    refine ⟨?_, htask⟩
    simpa only [Scene.claims, Service.claims, Exchange.claims, h.inbox, h.flags, h.builds]
      using hbalanced
  | beginClaim => exact ⟨hbalanced, rfl⟩
  | raise hdown =>
    refine ⟨?_, by simpa [Task.Sound] using htask⟩
    apply (hbalanced.raise hdown).recount
    intro kind
    simp only [Scene.claims, Task.claims, Service.claims, Exchange.claims, setFlags,
      List.count_append, List.count_cons, List.count_nil]
    omega
  | refuse _ => exact ⟨hbalanced, trivial⟩
  | @spawn kinds raised sv client =>
    -- all flags of the build have been raised by now, and the new build takes the claims over
    have hraised : raised = kinds.toList := by simpa [Task.Sound] using htask
    refine ⟨hbalanced.recount ?_, trivial⟩
    intro kind
    simp only [Scene.claims, Task.claims, Service.claims, Build.claims, hraised, List.count_append,
      List.flatMap_append, List.flatMap_cons, List.flatMap_nil, List.append_nil, List.count_nil]
    omega
  | @beginBuild sv kinds raised =>
    have hraised : raised = kinds.toList := by simpa [Task.Sound] using htask
    refine ⟨hbalanced.recount ?_, trivial⟩
    simp [Scene.claims, Task.claims, hraised]
  | @endBuild kinds built world sv client hrun =>
    -- there is a snapshot to be posted for each kind that was claimed, and for no other
    have hdeliveries := ((b.build_ends sv.options client kinds sv.room.world).of_ok hrun).kinds_deliveries
    refine ⟨hbalanced.recount ?_, trivial⟩
    simp [Scene.claims, Task.claims, Service.claims, hdeliveries]
  | failBuild _ => exact ⟨hbalanced, trivial⟩
  | post =>
    refine ⟨hbalanced.recount ?_, trivial⟩
    intro kind
    simp only [Scene.claims, Task.claims, Service.claims, Service.post, Exchange.claims_request,
      Request.claims, List.map_cons, List.count_append, List.count_cons, List.count_nil]
    omega
  | endPost => exact ⟨hbalanced, trivial⟩
  | lower => exact ⟨hbalanced.lower, trivial⟩
  | endLower => exact ⟨hbalanced, trivial⟩
  | takeDelivery h hpayload =>
    obtain ⟨hclaims, hflags⟩ := takeRequest_claims h
    refine ⟨?_, trivial⟩
    rw [hflags]
    apply hbalanced.recount
    intro kind
    simp only [Scene.claims, Task.claims, Service.claims, hclaims, hpayload, Request.claims,
      List.count_append, List.count_nil]
    omega
  | takeOther h hpayload =>
    obtain ⟨hclaims, hflags⟩ := takeRequest_claims h
    refine ⟨?_, trivial⟩
    rw [hflags]
    simpa only [Scene.claims, Service.claims, hclaims, hpayload, List.nil_append] using hbalanced
  | endInstall => exact ⟨hbalanced.lower, trivial⟩
  | others h => exact Intervention.run_sound h ⟨hbalanced, htask⟩

theorem stepBuild_lowers {uptime position : Nat} {sv : Service σ ω} {kind : CacheKind}
    (hup : sv.exchange.flags.isBuilding kind = true)
    (hdown : (stepBuild b uptime position sv).exchange.flags.isBuilding kind = false)
    : kind ∈ (sv.builds[position]?.map Build.claims).getD [] := by
  unfold stepBuild at hdown
  cases hbuild : sv.builds[position]? with
  | none => simp_all
  | some build =>
    cases hadvance : advance b uptime build sv with
    | mk left sv' =>
      simp only [hbuild, hadvance] at hdown
      exact (advance_advances hadvance).lowers hup hdown

theorem Piece.lowers {who : Actor} {scene next : Scene σ ω} (h : Piece b who scene next)
    {kind : CacheKind} (hup : scene.service.exchange.flags.isBuilding kind = true)
    (hdown : next.service.exchange.flags.isBuilding kind = false)
    : kind ∈ scene.claimsOf who := by
  cases h with
  | work h => simp_all [h.flags]
  | raise _ => simp_all [setFlags]
  | lower => simp_all [Scene.claimsOf, Task.claims, release, Exchange.release, BuildFlags.release]
  | endInstall => simp_all [Scene.claimsOf, Task.claims, release, Exchange.release, BuildFlags.release]
  | takeDelivery h _ | takeOther h _ => simp_all [(takeRequest_claims h).2]
  | @others sv task intervention h =>
    cases intervention with
    | build uptime position => exact stepBuild_lowers hup hdown
    | request _ _ _ | takeReply _ | shutDown =>
      simp_all [Intervention.run, Exchange.request, Exchange.takeReply, shutDown, Exchange.shutDown]
  | beginClaim | refuse _ | spawn | beginBuild | endBuild _ | failBuild _ | post | endPost | endLower =>
    -- these leave the flags alone
    simp_all [Service.post, Exchange.request, emitCacheError]

structure Scene.Fresh (scene : Scene σ ω) : Prop where
  task : scene.task = .idle
  flags : scene.service.exchange.flags = {}
  builds : scene.service.builds = []
  inbox : scene.service.exchange.claims = []

theorem Scene.Fresh.sound {scene : Scene σ ω} (h : scene.Fresh) : scene.Sound := by
  constructor
  . intro kind
    rw [Scene.claims, Service.claims, h.task, h.builds, h.inbox, h.flags]
    cases kind <;> rfl
  . rw [h.task]
    trivial

theorem Leads.sound {scene next : Scene σ ω} (h : Leads b scene next) (hscene : scene.Sound)
    : next.Sound := by
  induction h with
  | refl => exact hscene
  | tail _ hpiece ih => exact hpiece.sound ih

inductive Step (b : Backend σ ω) : Scene σ ω → Scene σ ω → Prop where
  | piece (h : Piece b who scene next) : Step b scene next
  | operation {sv : Service σ ω} {operation : Operation} (h : operation.claims = [])
    : Step b ⟨sv, .idle⟩ ⟨operation.run b sv, .idle⟩

theorem Step.sound {scene next : Scene σ ω} (h : Step b scene next) (hscene : scene.Sound)
    : next.Sound := by
  cases h with
  | piece h => exact h.sound hscene
  | operation h => exact (leads_operation _ _ h).sound hscene

def Reachable (b : Backend σ ω) (scene : Scene σ ω) : Prop :=
  ∃ start : Scene σ ω, start.Fresh ∧ Relation.ReflTransGen (Step b) start scene

theorem Reachable.sound {scene : Scene σ ω} (h : Reachable b scene) : scene.Sound := by
  obtain ⟨start, hfresh, hsteps⟩ := h
  induction hsteps with
  | refl => exact hfresh.sound
  | tail _ hstep ih => exact hstep.sound ih

/--
The flag of a kind is up if and only if there is exactly one holder of a claim on it, and there are
never more. While the thread of the service is at leisure, the holders are builds and messages. A flag
is lowered only by the holder of the claim, and then nobody holds it any more.
-/
theorem single_flight {scene : Scene σ ω} (h : Reachable b scene) (kind : CacheKind)
    : (scene.service.exchange.flags.isBuilding kind = true ↔ scene.holders kind = 1)
      ∧ scene.holders kind ≤ 1
      ∧ (scene.task = .idle → scene.holders kind = scene.service.holders kind)
      ∧ ∀ who next, Piece b who scene next
          → scene.service.exchange.flags.isBuilding kind = true
          → next.service.exchange.flags.isBuilding kind = false
          → kind ∈ scene.claimsOf who ∧ next.holders kind = 0 := by
  have hsound := h.sound
  have hholders := hsound.holders_eq kind
  refine ⟨?_, ?_, ?_, ?_⟩
  . rw [hholders]
    split <;> simp_all
  . rw [hholders]
    split <;> omega
  . intro hidle
    simp [Scene.holders, hidle, Task.claims]
  . intro who next hpiece hup hdown
    refine ⟨hpiece.lowers hup hdown, ?_⟩
    rw [(hpiece.sound hsound).holders_eq, hdown]
    rfl

theorem single_flight_after_request
    : let scene : Scene Nat Rehearsal.Stage :=
        ⟨(Operation.requestBuild .all).run Rehearsal.backend (Rehearsal.service {}), .idle⟩
      Reachable Rehearsal.backend scene ∧ scene.holders .albums = 1 := by
  intro scene
  have hfresh : Scene.Fresh (⟨Rehearsal.service {}, .idle⟩ : Scene Nat Rehearsal.Stage) :=
    ⟨rfl, rfl, rfl, rfl⟩
  have hreachable : Reachable Rehearsal.backend scene := ⟨_, hfresh, .single (.operation rfl)⟩
  have hup : scene.service.exchange.flags.isBuilding .albums = true := by rfl
  exact ⟨hreachable, (single_flight hreachable .albums).1.mp hup⟩

end AutoDJ.Service
