import AutoDJ.Proofs.Cache.Build
import AutoDJ.Proofs.Cache.Flags
import AutoDJ.Proofs.Play.Mirrors
import AutoDJ.Proofs.Service.Frame
import AutoDJ.Rehearsal.Service
import Mathlib.Data.List.Induction

namespace AutoDJ

open Play (Mirrors)

variable {σ ω : Type} {b : Backend σ ω} {sv : Service σ ω}

namespace Delivery

def isFull : Delivery → Bool
  | albums index => index.isSome
  | stickers index => index.isSome

def InUse (caches : Caches) : Delivery → Prop
  | albums index => caches.albums = index
  | stickers index => caches.stickers = index

end Delivery

namespace Service

def setInbox (inbox : Mailbox Request) (sv : Service σ ω) : Service σ ω :=
  { sv with exchange := { sv.exchange with inbox } }

section Inbox

variable (inbox : Mailbox Request)

theorem claim_mirrors (kinds : CacheKinds)
    : Mirrors (setInbox inbox) Eq (claim kinds : Play (Service σ ω) Unit) (claim kinds) := by
  intro sv
  unfold claim Exchange.claim setInbox
  dsimp only
  cases BuildFlags.claim kinds sv.exchange.flags <;> exact ⟨rfl, rfl⟩

theorem requestBuild_mirrors (kinds : CacheKinds)
    : Mirrors (setInbox inbox) Eq (requestBuild b kinds) (requestBuild b kinds) := by
  unfold requestBuild
  apply Mirrors.get.bind
  rintro _ sv rfl
  have hpartitions : (sv.setInbox inbox).partitions = sv.partitions := rfl
  rw [hpartitions]
  cases sv.partitions with
  | nil => exact .pure rfl
  | cons first rest =>
    apply (claim_mirrors inbox kinds).bind
    intro _ _ _
    exact .modify fun _ => rfl

theorem fill_mirrors (now : Moment) (name : String) (count : Nat) (albums : Bool)
    : Mirrors (setInbox inbox) Eq (fill b now name count albums) (fill b now name count albums) := by
  intro sv
  unfold fill setInbox
  dsimp only
  cases sv.partitions.span (·.name != name) with
  | mk before found =>
    cases found with
    | nil => exact ⟨rfl, rfl⟩
    | cons p after =>
      dsimp only
      cases Partition.fill b sv.caches sv.options.pageSize now.unix
        (fun booth => booth.addNow count albums) (p, sv.room) <;> exact ⟨rfl, rfl⟩

theorem setInbox_reply (now : Moment) (id : UInt64) (answer : Reply)
    : (sv.setInbox inbox).reply now id answer = (sv.reply now id answer).setInbox inbox := by
  unfold reply
  split <;> rfl

theorem handle_setInbox (now : Moment) (message : Message Request)
    : handle b now message (sv.setInbox inbox) = (handle b now message sv).setInbox inbox := by
  unfold handle
  cases message.payload with
  | buildCaches kinds =>
    have hrequest := requestBuild_mirrors (b := b) inbox kinds
    dsimp only
    cases heq : requestBuild b kinds sv with
    | ok _ sv' =>
      rw [hrequest.eq_ok heq]
      apply setInbox_reply
    | error e sv' =>
      rw [hrequest.eq_error heq]
      cases e <;> apply setInbox_reply
  | deliver delivery =>
    unfold install
    dsimp only
    split <;> split <;> first | rfl | contradiction
  | fill partition count albums =>
    have hfill := fill_mirrors (b := b) inbox now partition count.toNat albums
    dsimp only
    cases heq : fill b now partition count.toNat albums sv with
    | ok _ sv' =>
      rw [hfill.eq_ok heq]
      apply setInbox_reply
    | error e sv' =>
      rw [hfill.eq_error heq]
      apply setInbox_reply

end Inbox

theorem drain_go_eq (now : Moment) (handled : Nat) (messages : List (Message Request))
    (inbox : Mailbox Request) (sv : Service σ ω)
    : drain.go b now messages.length handled (sv.setInbox { inbox with messages })
        = (handled + messages.length,
            (messages.foldl (fun sv message => handle b now message sv) sv).setInbox
              { inbox with messages := [] }) := by
  induction messages generalizing handled sv with
  | nil => rfl
  | cons first rest ih =>
    have htaken
        : (sv.setInbox { inbox with messages := first :: rest }).exchange.takeRequest
            = (some first, (sv.setInbox { inbox with messages := rest }).exchange) :=
      Exchange.takeRequest_cons rfl
    have hfirst
        : handle b now first (sv.setInbox { inbox with messages := rest })
            = (handle b now first sv).setInbox { inbox with messages := rest } :=
      handle_setInbox _ now first
    rw [List.length_cons, drain.go, htaken, Nat.add_comm rest.length, ← Nat.add_assoc]
    exact (congrArg (drain.go b now rest.length (handled + 1)) hfirst).trans (ih _ _)

theorem drain_eq (now : Moment) (sv : Service σ ω)
    : drain b now sv
        = (sv.exchange.inbox.messages.length,
            (sv.exchange.inbox.messages.foldl (fun sv message => handle b now message sv) sv).setInbox
              { sv.exchange.inbox with messages := [] }) := by
  have hgo := drain_go_eq (b := b) now 0 sv.exchange.inbox.messages sv.exchange.inbox sv
  rwa [Nat.zero_add] at hgo

section Install

variable {delivery : Delivery}

theorem install_isShuttingDown
    : (sv.install delivery).exchange.isShuttingDown = sv.exchange.isShuttingDown := by
  unfold install
  dsimp only
  split <;> rfl

theorem install_isBuilding {kind : CacheKind}
    : (sv.install delivery).exchange.flags.isBuilding kind
        = if kind = delivery.kind then false else sv.exchange.flags.isBuilding kind := by
  unfold install
  dsimp only
  split <;> exact BuildFlags.isBuilding_set

theorem install_inUse (hrunning : sv.exchange.isShuttingDown = false) (hfull : delivery.isFull = true)
    : delivery.InUse (sv.install delivery).caches := by
  simp only [install, hrunning, Bool.false_eq_true, if_false]
  rcases delivery with (_ | index) | (_ | index)
  . contradiction
  . rfl
  . contradiction
  . rfl

theorem install_keeps_inUse {other : Delivery} (hkind : other.kind ≠ delivery.kind)
    (h : other.InUse sv.caches) : other.InUse (sv.install delivery).caches := by
  unfold install
  dsimp only
  split
  . exact h
  . rcases delivery with (_ | index) | (_ | index) <;> cases other <;> first | exact h | contradiction

theorem install_candidates (hrunning : sv.exchange.isShuttingDown = false)
    (hfull : delivery.isFull = true)
    : ∀ p ∈ (sv.install delivery).partitions, p.jukebox.waiting = [] ∧ p.jukebox.scratch = [] := by
  simp only [install, hrunning, Bool.false_eq_true, if_false]
  rcases delivery with (_ | index) | (_ | index)
  . contradiction
  . exact List.forall_mem_map.mpr fun _ _ => ⟨rfl, rfl⟩
  . contradiction
  . exact List.forall_mem_map.mpr fun _ _ => ⟨rfl, rfl⟩

end Install

theorem reply_isShuttingDown (now : Moment) (id : UInt64) (answer : Reply)
    : (sv.reply now id answer).exchange.isShuttingDown = sv.exchange.isShuttingDown := by
  obtain ⟨responses, heq⟩ := reply_eq sv now id answer
  rw [heq]

theorem handle_isShuttingDown (now : Moment) (message : Message Request)
    : (handle b now message sv).exchange.isShuttingDown = sv.exchange.isShuttingDown := by
  apply handle_keeps (P := fun sv' => sv'.exchange.isShuttingDown = sv.exchange.isShuttingDown) now
  . intro sv' id answer h
    rwa [reply_isShuttingDown]
  . intro kinds _ sv' h
    apply (requestBuild_ends kinds).mono
    . rintro _ _ (rfl | ⟨flags, client, rfl⟩) <;> exact h
    . rintro _ _ ⟨flags, rfl⟩
      exact h
  . intro delivery _ sv' h
    rwa [install_isShuttingDown]
  . intro name count albums _ sv' h
    apply (fill_ends now name count.toNat albums).imp
    rintro _ ⟨partitions, room, rfl⟩
    exact h
  . rfl

theorem foldl_install (deliveries : List Delivery)
    (hfull : ∀ delivery ∈ deliveries, delivery.isFull = true)
    (hkinds : (deliveries.map Delivery.kind).Nodup) (hrunning : sv.exchange.isShuttingDown = false)
    : (deliveries.foldl install sv).exchange.isShuttingDown = false
      ∧ (∀ delivery ∈ deliveries,
          delivery.InUse (deliveries.foldl install sv).caches
            ∧ (deliveries.foldl install sv).exchange.flags.isBuilding delivery.kind = false)
      ∧ (deliveries ≠ [] → ∀ p ∈ (deliveries.foldl install sv).partitions,
          p.jukebox.waiting = [] ∧ p.jukebox.scratch = []) := by
  induction deliveries using List.reverseRecOn with
  | nil => simpa using hrunning
  | append_singleton earlier delivery ih =>
    rw [List.map_append, List.nodup_append] at hkinds
    obtain ⟨hearlier, -, hapart⟩ := hkinds
    obtain ⟨hrunning, hinUse, -⟩ := ih (fun other hother => hfull other (by simp [hother])) hearlier
    have hdelivery : delivery.isFull = true := hfull delivery (by simp)
    rw [List.foldl_append, List.foldl_cons, List.foldl_nil]
    refine ⟨by rwa [install_isShuttingDown], ?_, fun _ => install_candidates hrunning hdelivery⟩
    intro other hother
    rw [install_isBuilding]
    obtain hother | hother := List.mem_append.mp hother
    . -- what has been installed before is of another kind
      have hkind : other.kind ≠ delivery.kind :=
        hapart other.kind (List.mem_map_of_mem hother) delivery.kind (by simp)
      rw [if_neg hkind]
      exact ⟨install_keeps_inUse hkind (hinUse other hother).1, (hinUse other hother).2⟩
    . obtain rfl := List.mem_singleton.mp hother
      exact ⟨install_inUse hrunning hdelivery, by simp⟩

/--
The snapshots of a listing are in use, builds of their kinds may start, and no candidates drawn from other
snapshots are left.
-/
structure Rebuilt (kinds : CacheKinds) (albums : AlbumIndex) (stickers : StickerIndex)
    (sv : Service σ ω) : Prop where
  albums : kinds.albums = true → sv.caches.albums = some albums
  stickers : kinds.stickers = true → sv.caches.stickers = some stickers
  flags : ∀ kind, kinds.contains kind = true → sv.exchange.flags.isBuilding kind = false
  candidates : kinds.isEmpty = false
    → ∀ p ∈ sv.partitions, p.jukebox.waiting = [] ∧ p.jukebox.scratch = []

theorem foldl_install_rebuilt (kinds : CacheKinds) (albums : AlbumIndex) (stickers : StickerIndex)
    (h : sv.exchange.isShuttingDown = false)
    : Rebuilt kinds albums stickers
        ((Built.select kinds albums stickers).deliveries.foldl install sv) := by
  have hkinds := (Built.select_covers kinds albums stickers).kinds_deliveries
  have hmem (delivery : Delivery)
      (hdelivery : delivery ∈ (Built.select kinds albums stickers).deliveries)
      : delivery.isFull = true := by
    simp only [Built.deliveries, List.mem_append, Option.mem_toList, Option.map_eq_some_iff] at hdelivery
    obtain ⟨index, -, rfl⟩ | ⟨index, -, rfl⟩ := hdelivery <;> rfl
  obtain ⟨-, hinUse, hcandidates⟩ := foldl_install _ hmem (by rw [hkinds]; exact kinds.nodup_toList) h
  constructor
  . intro halbums
    exact (hinUse (.albums (some albums)) (by simp [Built.deliveries, Built.select, halbums])).1
  . intro hstickers
    exact (hinUse (.stickers (some stickers)) (by simp [Built.deliveries, Built.select, hstickers])).1
  . intro kind hkind
    rw [← CacheKinds.mem_toList, ← hkinds] at hkind
    obtain ⟨delivery, hdelivery, rfl⟩ := List.mem_map.mp hkind
    exact (hinUse delivery hdelivery).2
  . intro hsome
    apply hcandidates
    intro hnone
    rw [hnone, List.map_nil] at hkinds
    have hnotMem (kind : CacheKind) : kinds.contains kind = false := by
      rw [← Bool.not_eq_true, ← CacheKinds.mem_toList, ← hkinds]
      exact List.not_mem_nil
    have halbums := hnotMem .albums
    have hstickers := hnotMem .stickers
    simp_all [CacheKinds.isEmpty, CacheKinds.contains]

theorem foldl_handle_isShuttingDown (now : Moment) (messages : List (Message Request)) (sv : Service σ ω)
    : (messages.foldl (fun sv message => handle b now message sv) sv).exchange.isShuttingDown
        = sv.exchange.isShuttingDown := by
  induction messages generalizing sv with
  | nil => rfl
  | cons message messages ih => rw [List.foldl_cons, ih, handle_isShuttingDown]

theorem foldl_post (uptime : Nat) (deliveries : List Delivery) (sv : Service σ ω)
    : ∃ inbox,
        deliveries.foldl (fun sv delivery => sv.post uptime delivery) sv = sv.setInbox inbox
          ∧ inbox.messages = sv.exchange.inbox.messages ++ deliveries.map fun delivery =>
              { id := 0, payload := .deliver delivery, createdAt := uptime } := by
  induction deliveries generalizing sv with
  | nil => exact ⟨sv.exchange.inbox, rfl, by simp⟩
  | cons delivery deliveries ih =>
    obtain ⟨inbox, heq, hmessages⟩ := ih (sv.post uptime delivery)
    refine ⟨inbox, heq, ?_⟩
    rw [hmessages]
    simp [post, Exchange.request, Mailbox.push]

theorem drain_posted_rebuilt (now : Moment) (kinds : CacheKinds) (albums : AlbumIndex)
    (stickers : StickerIndex) (hrunning : sv.exchange.isShuttingDown = false)
    : Rebuilt kinds albums stickers
        (drain b now ((Built.select kinds albums stickers).deliveries.foldl
          (fun sv delivery => sv.post now.uptime delivery) sv)).2 := by
  obtain ⟨inbox, hposted, hmessages⟩ :=
    foldl_post now.uptime (Built.select kinds albums stickers).deliveries sv
  rw [drain_eq, hposted]
  dsimp only
  have hinbox : (sv.setInbox inbox).exchange.inbox.messages = inbox.messages := rfl
  rw [hinbox, hmessages, List.foldl_append, List.foldl_map]
  -- the messages that were there before are handled first
  generalize hearlier
    : sv.exchange.inbox.messages.foldl (fun sv message => handle b now message sv) (sv.setInbox inbox)
        = earlier
  have hearlier : earlier.exchange.isShuttingDown = false := by
    rw [← hearlier, foldl_handle_isShuttingDown]
    exact hrunning
  obtain ⟨halbums, hstickers, hflags, hcandidates⟩ :=
    foldl_install_rebuilt kinds albums stickers hearlier
  exact ⟨halbums, hstickers, hflags, hcandidates⟩

theorem buildFailed_claimed {kinds : CacheKinds} {e : Error} {flags : BuildFlags} {world : ω}
    (hdown : ∀ kind, kinds.contains kind = true → sv.exchange.flags.isBuilding kind = false)
    (hflags : ∀ kind, flags.isBuilding kind = (sv.exchange.flags.isBuilding kind || kinds.contains kind))
    : buildFailed { sv.setFlags flags with room := { sv.room with world } } kinds e
        = emitCacheError { sv with room := { sv.room with world } } e := by
  have hback : flags.releaseAll kinds.toList = sv.exchange.flags := by
    apply BuildFlags.eq_of_isBuilding
    intro kind
    cases hkind : kinds.contains kind with
    | false => simp [hflags, hkind]
    | true => simp [hkind, hdown kind hkind]
  rw [buildFailed, foldl_release]
  simp only [emitCacheError, setFlags, hback]

/--
A rebuild at once either succeeds or changes nothing. If it succeeds, the player has listed its library and
the sticker database has been asked for all songs without a failure, and unless the service is shutting
down, the snapshots of that listing are in use and no older candidates are left. If it fails, either a
build of one of the kinds is under way and nothing at all has changed, or taking stock has failed, which
shows in one event and in nothing else: such a failure is no decision of the program, and it leaves alone
whatever in the world outside the player and the sticker database leave alone.
-/
theorem rebuildNow_all_or_nothing {first : Partition σ} {rest : List (Partition σ)}
    (hpartitions : sv.partitions = first :: rest) (now : Moment) (kinds : CacheKinds)
    : (rebuildNow b now kinds).Ends sv
        (fun _ sv' => (∀ kind, kinds.contains kind = true → sv.exchange.flags.isBuilding kind = false)
          ∧ ∃ albums stickers world,
              b.survey sv.options (b.clone first.handle) kinds sv.room.world
                  = .ok (albums, stickers) world
                ∧ (sv.exchange.isShuttingDown = false → Rebuilt kinds albums stickers sv'))
        (fun e sv' =>
          (∃ kind, kinds.contains kind = true ∧ sv.exchange.flags.isBuilding kind = true
              ∧ e = .busy kind ∧ sv' = sv)
            ∨ (∀ kind, kinds.contains kind = true → sv.exchange.flags.isBuilding kind = false)
              ∧ ∃ world,
                  b.survey sv.options (b.clone first.handle) kinds sv.room.world = .error e world
                    ∧ sv' =
                        { sv with
                          room :=
                            { sv.room with
                              world
                              events := sv.room.events ++
                                [{ kind := .cacheError
                                   partition := everyPartition
                                   message := some e.message }] } }
                    ∧ ∀ I, b.Harmless I → I sv.room.world → e.isPolicy = false ∧ I world) := by
  unfold rebuildNow
  rw [Play.ends_bind, Play.ends_get]
  split
  . next hnone => simp [hnone] at hpartitions
  . next first' rest' hsome =>
    obtain ⟨rfl, -⟩ := List.cons.inj (hsome.symm.trans hpartitions)
    rw [Play.ends_bind, ends_claim]
    apply (BuildFlags.claim_ends kinds sv.exchange.flags).mono
    . rintro _ flags ⟨hdown, hflags⟩
      rw [Play.ends_bind, Play.ends_get, Backend.build_eq]
      dsimp only [setFlags, Functor.map, EStateM.map]
      cases hsurvey : b.survey sv.options (b.clone first'.handle) kinds sv.room.world with
      | ok found world =>
        obtain ⟨albums, stickers⟩ := found
        refine ⟨hdown, albums, stickers, world, rfl, fun hrunning => ?_⟩
        apply drain_posted_rebuilt
        exact hrunning
      | error e world =>
        dsimp only
        rw [Play.ends_bind, Play.ends_set, Play.ends_throw]
        refine .inr ⟨hdown, world, rfl, buildFailed_claimed hdown hflags, fun I hharmless hworld => ?_⟩
        exact (hharmless.survey sv.options (b.clone first'.handle) kinds _ hworld).of_error hsurvey
    . rintro e flags ⟨rfl, kind, hkind, hup, rfl⟩
      exact .inl ⟨kind, hkind, hup, rfl, rfl⟩

def awaiting : Service Nat Rehearsal.Stage :=
  let sv := Rehearsal.service
    { library := ["one", "two"].map fun album => { uri := album ++ ".flac", album := some album } }
  { sv with exchange := sv.exchange.request 1 (.fill "default" 1 false) }

theorem awaiting_rebuilt
    : ∃ first, awaiting.partitions = [first]
        ∧ ∃ albums stickers,
            Rebuilt .all albums stickers
              ((rebuildNow Rehearsal.backend { unix := 0 } .all).after awaiting) := by
  refine ⟨_, rfl, ?_⟩
  have hends : (rebuildNow Rehearsal.backend { unix := 0 } .all).Ends awaiting _ _ :=
    rebuildNow_all_or_nothing rfl { unix := 0 } .all
  have hsucceeds
      : (rebuildNow Rehearsal.backend { unix := 0 } .all).Ends awaiting (fun _ _ => True)
          (fun _ _ => False) := by
    decide +kernel
  cases heq : rebuildNow Rehearsal.backend { unix := 0 } .all awaiting with
  | ok _ sv' =>
    rw [Play.after_eq_of_ok heq]
    obtain ⟨-, albums, stickers, world, -, hrebuilt⟩ := hends.of_ok heq
    exact ⟨albums, stickers, hrebuilt rfl⟩
  | error e sv' => exact (hsucceeds.of_error heq).elim

end Service

end AutoDJ
