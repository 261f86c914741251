import AutoDJ.Proofs.Service.Frame
import AutoDJ.Proofs.Service.Operation

/-!
This module contains the rules for conditions on a player service that have nothing to do with its
mailboxes and builds: all but the polls keep them if the installation of a snapshot and a fill do.
-/

namespace AutoDJ.Service

variable {σ ω : Type} {b : Backend σ ω} {sv : Service σ ω} {P : Service σ ω → Prop}

/--
A condition on the partitions, the snapshots and the token of the library that the installation of a
snapshot and a fill keep.
-/
structure Steady (b : Backend σ ω) (P : Service σ ω → Prop) : Prop where
  frame : ∀ sv exchange builds room, P sv → P { sv with exchange, builds, room }
  install : ∀ sv delivery, P sv → P (sv.install delivery)
  fill : ∀ now name count albums, (Service.fill b now name count albums).Keeps P

structure Secluded (b : Backend σ ω) (P : Service σ ω → Prop) : Prop where
  frame : ∀ sv exchange builds world events, P sv
    → P { sv with exchange, builds, room := { sv.room with world, events } }
  install : ∀ sv delivery, P sv → P (sv.install delivery)
  fill : ∀ now name count albums, (Service.fill b now name count albums).Keeps P

namespace Secluded

theorem requestBuild (h : Secluded b P) (kinds : CacheKinds) : (requestBuild b kinds).Keeps P := by
  intro sv hsv
  apply (requestBuild_ends kinds).mono
  . rintro _ _ (rfl | ⟨flags, client, rfl⟩)
    . exact hsv
    . exact h.frame sv _ _ _ _ hsv
  . rintro _ _ ⟨flags, rfl⟩
    exact h.frame sv _ _ _ _ hsv

theorem reply (h : Secluded b P) (now : Moment) (id : UInt64) (answer : Reply) (hsv : P sv)
    : P (sv.reply now id answer) := by
  obtain ⟨responses, heq⟩ := reply_eq sv now id answer
  rw [heq]
  exact h.frame sv _ _ _ _ hsv

theorem handle (h : Secluded b P) (now : Moment) (message : Message Request) (hsv : P sv)
    : P (handle b now message sv) := by
  apply handle_keeps now
  . exact fun _ id answer => h.reply now id answer
  . exact fun kinds _ => h.requestBuild kinds
  . exact fun delivery _ sv => h.install sv delivery
  . exact fun name count albums _ => h.fill now name count.toNat albums
  . exact hsv

theorem drain_go (h : Secluded b P) (now : Moment) (waiting handled : Nat) (sv : Service σ ω) (hsv : P sv)
    : P (drain.go b now waiting handled sv).2 := by
  induction waiting generalizing handled sv with
  | zero => exact hsv
  | succ waiting ih =>
    unfold drain.go
    split
    . exact hsv
    . apply ih
      apply h.handle
      exact h.frame sv _ _ _ _ hsv

theorem foldl_post (h : Secluded b P) (uptime : Nat) (deliveries : List Delivery) (sv : Service σ ω)
    (hsv : P sv) : P (deliveries.foldl (fun sv delivery => sv.post uptime delivery) sv) := by
  induction deliveries generalizing sv with
  | nil => exact hsv
  | cons delivery deliveries ih => exact ih _ (h.frame sv _ _ _ _ hsv)

theorem rebuildNow (h : Secluded b P) (now : Moment) (kinds : CacheKinds)
    : (rebuildNow b now kinds).Keeps P := by
  intro sv hsv
  unfold Service.rebuildNow
  rw [Play.ends_bind, Play.ends_get]
  cases sv.partitions with
  | nil => exact hsv
  | cons first rest =>
    dsimp only
    rw [Play.ends_bind, ends_claim]
    apply Play.ends_of_forall
    . intro _ flags
      rw [Play.ends_bind, Play.ends_get]
      split
      . rw [Play.ends_set]
        apply h.drain_go
        apply h.foldl_post
        exact h.frame sv _ _ _ _ hsv
      . rw [Play.ends_bind, Play.ends_set, Play.ends_throw, buildFailed, foldl_release]
        exact h.frame sv _ _ _ _ hsv
    . intro _ flags
      exact h.frame sv _ _ _ _ hsv

theorem stepBuild (h : Secluded b P) (uptime position : Nat) (hsv : P sv)
    : P (stepBuild b uptime position sv) := by
  unfold Service.stepBuild
  split
  . exact hsv
  . dsimp only
    unfold advance
    split
    . split
      . dsimp only
        split <;> exact h.frame sv _ _ _ _ hsv
      . exact h.frame sv _ _ _ _ hsv
    all_goals exact h.frame sv _ _ _ _ hsv

theorem run (h : Secluded b P) (happening : Happening ω)
    (hpoll : ∀ now, happening = .operation (.poll now) → P (poll b now sv)) (hsv : P sv)
    : P (happening.run b sv) := by
  cases happening with
  | outside change => exact h.frame sv _ _ _ _ hsv
  | intervention intervention =>
    cases intervention with
    | build uptime position => exact h.stepBuild uptime position hsv
    | request _ _ _ | takeReply _ | shutDown => exact h.frame sv _ _ _ _ hsv
  | operation operation =>
    cases operation with
    | requestBuild kinds => exact (h.requestBuild kinds).after hsv
    | rebuildNow now kinds => exact (h.rebuildNow now kinds).after hsv
    | poll now => exact hpoll now rfl
    | handle now id request => exact h.handle now _ hsv
    | serve now =>
      unfold Happening.run Operation.run serveNext
      dsimp only
      split
      . exact hsv
      . apply h.handle
        exact h.frame sv _ _ _ _ hsv
    | drain now => exact h.drain_go now _ 0 sv hsv

end Secluded

namespace Steady

theorem secluded (h : Steady b P) : Secluded b P :=
  ⟨fun sv exchange builds _ _ => h.frame sv exchange builds _, h.install, h.fill⟩

theorem requestBuild (h : Steady b P) (kinds : CacheKinds) : (requestBuild b kinds).Keeps P :=
  h.secluded.requestBuild kinds

theorem finish (h : Steady b P) : (finish b).Keeps P := by
  intro sv hsv
  unfold Service.finish Play.Ends
  dsimp only
  cases Room.flush b.tail sv.room <;> exact h.frame sv _ sv.builds _ hsv

theorem run (h : Steady b P) (happening : Happening ω)
    (hpoll : ∀ now, happening = .operation (.poll now) → P (poll b now sv)) (hsv : P sv)
    : P (happening.run b sv) :=
  h.secluded.run happening hpoll hsv

end Steady

end AutoDJ.Service
