import AutoDJ.Proofs.Cache.Survey

namespace AutoDJ

namespace Built

structure Covers (built : Built) (kinds : CacheKinds) : Prop where
  albums : built.albums.isSome = kinds.albums
  stickers : built.stickers.isSome = kinds.stickers

theorem select_covers (kinds : CacheKinds) (albums : AlbumIndex) (stickers : StickerIndex)
    : (select kinds albums stickers).Covers kinds := by
  constructor
  . cases h : kinds.albums <;> simp [select, h]
  . cases h : kinds.stickers <;> simp [select, h]

theorem Covers.kinds_deliveries {built : Built} {kinds : CacheKinds} (h : built.Covers kinds)
    : built.deliveries.map Delivery.kind = kinds.toList := by
  obtain ⟨albums, stickers⟩ := built
  obtain ⟨halbums, hstickers⟩ := h
  cases albums <;> cases stickers
    <;> simp_all [Built.deliveries, CacheKinds.toList, CacheKinds.contains, Delivery.kind,
      ← halbums, ← hstickers]

end Built

theorem Backend.build_ends {σ ω : Type} (b : Backend σ ω) (options : ServiceOptions) (handle : σ)
    (kinds : CacheKinds) (world : ω)
    : (b.build options handle kinds).Ends world (fun built _ => built.Covers kinds)
        (fun _ _ => True) := by
  rw [build_eq, Play.ends_map]
  apply Play.ends_of_forall
  . intro _ _
    exact Built.select_covers ..
  . intros
    trivial

end AutoDJ
