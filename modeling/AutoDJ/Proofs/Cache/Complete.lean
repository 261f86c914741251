import AutoDJ.Proofs.Cache.Build
import AutoDJ.Proofs.Player.PageSize
import Mathlib.Data.List.Induction

/-!
This module contains the proof that a build of snapshots is complete or fails: it succeeds if all pages and all
stickers can be had, has what they say then, and otherwise fails with the error of one of them. The order
in which the stickers are looked up makes no difference to that.
-/

namespace AutoDJ

variable {s : Type}

def StickerStore.answer (store : StickerStore s) :
    (order : List String) → (state : s) → (uri : String) → Except Error (Option Sticker)
  | [], _, _ => .ok none
  | other :: order, state, uri =>
    if other = uri then
      ((store uri).upshot state).1
    else
      StickerStore.answer store order ((store other).after state) uri

theorem StickerStore.answer_eq {store : StickerStore s} {known : String → Except Error (Option Sticker)}
    (hknown : ∀ uri state, ((store uri).upshot state).1 = known uri) {order : List String} (state : s)
    {uri : String} (huri : uri ∈ order) : store.answer order state uri = known uri := by
  induction order generalizing state with
  | nil => contradiction
  | cons other order ih =>
    rw [answer]
    split
    next heq =>
      subst heq
      exact hknown other state
    next hne => exact ih _ (List.mem_of_ne_of_mem (Ne.symm hne) huri)

namespace StickerIndex

def fillIn (arrange : List String → List String) (store : StickerStore s) (index : StickerIndex) :
    Play s (Nat × StickerIndex) :=
  fillFrom.go store (arrange index.records.keys) (0, index)

theorem get?_set (index : StickerIndex) (uri other : String) (sticker : Sticker)
    : (index.set uri sticker).get? other = if uri = other then some sticker else index.get? other := by
  unfold get? set
  rw [Std.ExtTreeMap.getElem?_insert]
  simp only [Std.compare_eq_iff_eq]

theorem get?_reserve (index : StickerIndex) (uri other : String)
    : (index.reserve uri).get? other
        = if uri = other then some ((index.get? other).getD {}) else index.get? other := by
  unfold get? reserve
  rw [Std.ExtTreeMap.getElem?_insertIfNew]
  simp only [Std.compare_eq_iff_eq]
  by_cases huri : uri = other
  . subst huri
    by_cases hmem : uri ∈ index.records
    . simp [hmem]
    . simp [hmem]
  . simp [huri]

theorem get?_ofSongs (songs : List Song) (uri : String)
    : (ofSongs songs).get? uri = if uri ∈ songs.map (·.uri) then some {} else none := by
  induction songs using List.reverseRecOn with
  | nil => exact Std.ExtTreeMap.getElem?_empty
  | append_singleton songs song ih =>
    have hreserve : ofSongs (songs ++ [song]) = (ofSongs songs).reserve song.uri := List.foldl_append
    rw [hreserve, get?_reserve, ih]
    by_cases huri : song.uri = uri
    . have hmem : uri ∈ (songs ++ [song]).map (·.uri) := by simp [huri]
      rw [if_pos huri, if_pos hmem]
      split <;> rfl
    . simp [huri, Ne.symm huri]

theorem mem_keys_ofSongs {songs : List Song} {uri : String}
    : uri ∈ (ofSongs songs).records.keys ↔ uri ∈ songs.map (·.uri) := by
  have hget := get?_ofSongs songs uri
  unfold get? at hget
  rw [Std.ExtTreeMap.mem_keys, ← Std.ExtTreeMap.isSome_getElem?_iff_mem, hget]
  split <;> simp_all

theorem fillFrom_go_ends (store : StickerStore s) {order : List String} (hnodup : order.Nodup) (found : Nat)
    (index : StickerIndex) (state : s)
    : (fillFrom.go store order (found, index)).Ends state
        (fun result _ =>
          (∀ uri ∈ order, ∃ sticker, store.answer order state uri = .ok sticker
            ∧ result.2.get? uri = (sticker <|> index.get? uri))
          ∧ ∀ uri ∉ order, result.2.get? uri = index.get? uri)
        (fun e _ => ∃ uri ∈ order, store.answer order state uri = .error e) := by
  -- each song is looked up once, so that its record is the one from the start until its turn comes
  induction order generalizing found index state with
  | nil => exact ⟨by simp, fun _ _ => rfl⟩
  | cons first order ih =>
    obtain ⟨hfirst, hrest⟩ := List.nodup_cons.mp hnodup
    have hnow : store.answer (first :: order) state first = ((store first).upshot state).1 := by
      rw [StickerStore.answer, if_pos rfl]
    have hlater (uri : String) (huri : uri ∈ order)
        : store.answer (first :: order) state uri
          = store.answer order ((store first).after state) uri := by
      have hne : first ≠ uri := fun heq => hfirst (heq.symm ▸ huri)
      rw [StickerStore.answer, if_neg hne]
    unfold fillFrom.go
    rw [Play.ends_bind]
    apply (Play.ends_self (store first) state).mono
    . intro sticker next hanswer
      rw [Play.upshot, hanswer] at hnow
      rw [Play.after_eq_of_ok hanswer] at hlater
      have hgo (found : Nat) (index' : StickerIndex)
          (hset : index'.get? first = (sticker <|> index.get? first))
          (hkept : ∀ uri, first ≠ uri → index'.get? uri = index.get? uri)
          : (fillFrom.go store order (found, index')).Ends next
              (fun result _ =>
                (∀ uri ∈ first :: order, ∃ sticker,
                  store.answer (first :: order) state uri = .ok sticker
                    ∧ result.2.get? uri = (sticker <|> index.get? uri))
                ∧ ∀ uri ∉ first :: order, result.2.get? uri = index.get? uri)
              (fun e _ => ∃ uri ∈ first :: order, store.answer (first :: order) state uri = .error e) := by
        apply (ih hrest found index' next).mono
        . rintro result _ ⟨hfilled, hothers⟩
          refine ⟨List.forall_mem_cons.mpr ⟨⟨sticker, hnow, ?_⟩, fun uri huri => ?_⟩, fun uri huri => ?_⟩
          . rw [hothers first hfirst, hset]
          . have hne : first ≠ uri := fun heq => hfirst (heq.symm ▸ huri)
            rw [hlater uri huri, ← hkept uri hne]
            exact hfilled uri huri
          . rw [List.mem_cons, not_or] at huri
            rw [hothers uri huri.2, hkept uri (Ne.symm huri.1)]
        . rintro e _ ⟨uri, huri, hfailed⟩
          exact ⟨uri, List.mem_cons_of_mem _ huri, (hlater uri huri).trans hfailed⟩
      cases sticker with
      | none => exact hgo found index (by simp) fun _ _ => rfl
      | some sticker =>
        apply hgo
        . rw [get?_set, if_pos rfl]
          rfl
        . intro uri hne
          rw [get?_set, if_neg hne]
    . intro e next hanswer
      rw [Play.upshot, hanswer] at hnow
      exact ⟨first, List.mem_cons_self, hnow⟩

end StickerIndex

def buildCachesIn (arrange : List String → List String) (player : Player s)
    (store : Option (StickerStore s)) (pageSize : Nat) (kinds : CacheKinds) : Play s Built := do
  let built ← Built.scan player pageSize kinds
  match store, built.stickers with
  | some store, some index => do
    let (_, index) ← index.fillIn arrange store
    return { built with stickers := some index }
  | _, _ => return built

theorem buildCachesIn_id (player : Player s) (store : Option (StickerStore s)) (pageSize : Nat)
    (kinds : CacheKinds)
    : buildCachesIn id player store pageSize kinds = buildCaches player store pageSize kinds := by
  unfold buildCachesIn buildCaches Built.lookUp
  congr 1
  funext built
  cases store with
  | none => rfl
  | some store => cases built.stickers <;> rfl

namespace Built

/--
What has been built is complete: there is a snapshot for each kind asked for and no other, all songs have been
inserted into the index of albums, and the index of stickers has the songs for its keys, each with the sticker that
the answer to its lookup has or with an empty one.
-/
structure Complete (built : Built) (kinds : CacheKinds) (songs : List Song)
    (answer : String → Except Error (Option Sticker)) : Prop extends built.Covers kinds where
  allSongs : ∀ index ∈ built.albums, index = AlbumIndex.ofSongs songs
  keys : ∀ index ∈ built.stickers, ∀ uri, (index.get? uri).isSome = true ↔ ∃ song ∈ songs, song.uri = uri
  records : ∀ index ∈ built.stickers, ∀ song ∈ songs, ∃ sticker,
    answer song.uri = .ok sticker ∧ index.get? song.uri = some (sticker.getD {})

end Built

def answerIn (arrange : List String → List String) (store : Option (StickerStore s)) (songs : List Song)
    (state : s) (uri : String) : Except Error (Option Sticker) :=
  match store with
  | none => .ok none
  | some store => store.answer (arrange (StickerIndex.ofSongs songs).records.keys) state uri

def Built.ofSongsIn (arrange : List String → List String) (store : Option (StickerStore s))
    (kinds : CacheKinds) (songs : List Song) : Play s Built :=
  match store, kinds.stickers with
  | some store, true => do
    let (_, index) ← (StickerIndex.ofSongs songs).fillIn arrange store
    return select kinds (AlbumIndex.ofSongs songs) index
  | _, _ => return select kinds (AlbumIndex.ofSongs songs) (StickerIndex.ofSongs songs)

section Build

variable {arrange : List String → List String} {player : Player s} {store : Option (StickerStore s)}
  {pageSize : Nat} {kinds : CacheKinds} {songs : List Song} {state middle : s}

theorem Shows.listing_eq (h : Shows player.libraryPage (max pageSize 1) 0 state songs middle)
    (hlength : songs.length < listingLimit) : player.listing pageSize state = .ok songs middle := by
  have hcollect (seen : List Song) : songs.foldl (fun seen song => seen ++ [song]) seen = seen ++ songs := by
    rw [List.foldl_append_eq_append, ← List.flatMap_def, List.flatMap_singleton']
  unfold Player.listing Play.gathering
  rw [h.scan_eq hlength (fun song seen => seen ++ [song]), hcollect]
  rfl

theorem Breaks.listing_eq {e : Error}
    (h : Breaks player.libraryPage (max pageSize 1) 0 state songs e middle)
    (hlength : songs.length < listingLimit) : player.listing pageSize state = .error e middle := by
  unfold Player.listing Play.gathering
  rw [h.scan_eq hlength (fun song seen => seen ++ [song])]

theorem buildCachesIn_eq
    : buildCachesIn arrange player store pageSize kinds
        = player.listing pageSize >>= Built.ofSongsIn arrange store kinds := by
  unfold buildCachesIn
  rw [Built.scan_eq, bind_map_left]
  congr 1
  funext songs
  rw [Built.foldl_addSong]
  unfold Built.ofSongsIn
  cases store with
  | none => rfl
  | some store =>
    cases hstickers : kinds.stickers <;> simp [Built.select, hstickers]

namespace StickerIndex

theorem fillIn_ends (harrange : ∀ uris, (arrange uris).Perm uris) (store : StickerStore s) (songs : List Song)
    (state : s)
    : ((ofSongs songs).fillIn arrange store).Ends state
        (fun result _ =>
          (∀ uri, (result.2.get? uri).isSome = true ↔ ∃ song ∈ songs, song.uri = uri)
          ∧ ∀ song ∈ songs, ∃ sticker, answerIn arrange (some store) songs state song.uri = .ok sticker
            ∧ result.2.get? song.uri = some (sticker.getD {}))
        (fun e _ => ∃ song ∈ songs, answerIn arrange (some store) songs state song.uri = .error e) := by
  have hperm := harrange (ofSongs songs).records.keys
  have hnodup : (arrange (ofSongs songs).records.keys).Nodup := hperm.nodup_iff.mpr Std.ExtTreeMap.nodup_keys
  have hmem {uri : String}
      : uri ∈ arrange (ofSongs songs).records.keys ↔ ∃ song ∈ songs, song.uri = uri := by
    rw [hperm.mem_iff, mem_keys_ofSongs, List.mem_map]
  apply (fillFrom_go_ends store hnodup 0 (ofSongs songs) state).mono
  . rintro ⟨_, index⟩ _ ⟨hfilled, hothers⟩
    have hrecords (song : Song) (hsong : song ∈ songs) : ∃ sticker,
        answerIn arrange (some store) songs state song.uri = .ok sticker
          ∧ index.get? song.uri = some (sticker.getD {}) := by
      obtain ⟨sticker, hanswer, hget⟩ := hfilled song.uri (hmem.mpr ⟨song, hsong, rfl⟩)
      refine ⟨sticker, hanswer, hget.trans ?_⟩
      rw [get?_ofSongs, if_pos (List.mem_map_of_mem hsong)]
      cases sticker <;> rfl
    refine ⟨fun uri => ⟨fun hsome => ?_, ?_⟩, hrecords⟩
    . by_contra hunlisted
      rw [hothers uri (mt hmem.mp hunlisted), get?_ofSongs, if_neg (mt List.mem_map.mp hunlisted)] at hsome
      contradiction
    . rintro ⟨song, hsong, rfl⟩
      obtain ⟨sticker, -, hget⟩ := hrecords song hsong
      rw [hget, Option.isSome_some]
  . rintro e _ ⟨uri, huri, hfailed⟩
    obtain ⟨song, hsong, rfl⟩ := hmem.mp huri
    exact ⟨song, hsong, hfailed⟩

end StickerIndex

namespace Built

theorem select_complete {index : StickerIndex} {answer : String → Except Error (Option Sticker)}
    (hkeys : ∀ uri, (index.get? uri).isSome = true ↔ ∃ song ∈ songs, song.uri = uri)
    (hrecords : kinds.stickers = true → ∀ song ∈ songs, ∃ sticker,
      answer song.uri = .ok sticker ∧ index.get? song.uri = some (sticker.getD {}))
    : (select kinds (AlbumIndex.ofSongs songs) index).Complete kinds songs answer where
  toCovers := select_covers kinds (AlbumIndex.ofSongs songs) index
  allSongs := by
    cases h : kinds.albums <;> simp [select, h]
  keys := by
    cases h : kinds.stickers <;> simp [select, h, hkeys]
  records := by
    cases h : kinds.stickers <;> simp [select, h]
    exact hrecords h

theorem ofSongsIn_ends (harrange : ∀ uris, (arrange uris).Perm uris) (store : Option (StickerStore s))
    (kinds : CacheKinds) (songs : List Song) (state : s)
    : (ofSongsIn arrange store kinds songs).Ends state
        (fun built _ => built.Complete kinds songs (answerIn arrange store songs state)
          ∧ (kinds.stickers = true → ∀ song ∈ songs, ∃ sticker,
              answerIn arrange store songs state song.uri = .ok sticker))
        (fun e _ => kinds.stickers = true ∧ ∃ song ∈ songs,
          answerIn arrange store songs state song.uri = .error e) := by
  have hkeys (uri : String)
      : ((StickerIndex.ofSongs songs).get? uri).isSome = true ↔ ∃ song ∈ songs, song.uri = uri := by
    rw [StickerIndex.get?_ofSongs, ← List.mem_map]
    split <;> simp_all
  have hempty (song : Song) (hsong : song ∈ songs)
      : (StickerIndex.ofSongs songs).get? song.uri = some {} := by
    rw [StickerIndex.get?_ofSongs, if_pos (List.mem_map_of_mem hsong)]
  unfold ofSongsIn
  cases store with
  | none =>
    have hanswered (song : Song) : answerIn arrange none songs state song.uri = .ok none := rfl
    exact ⟨select_complete hkeys fun _ song hsong => ⟨none, hanswered song, hempty song hsong⟩,
      fun _ song _ => ⟨none, hanswered song⟩⟩
  | some store =>
    cases hstickers : kinds.stickers with
    | false => exact ⟨select_complete hkeys (by simp [hstickers]), nofun⟩
    | true =>
      rw [Play.ends_bind]
      apply (StickerIndex.fillIn_ends harrange store songs state).mono
      . rintro ⟨_, index⟩ _ ⟨hkeys, hrecords⟩
        refine ⟨select_complete hkeys fun _ => hrecords, fun _ song hsong => ?_⟩
        obtain ⟨sticker, hanswer, -⟩ := hrecords song hsong
        exact ⟨sticker, hanswer⟩
      . intro e _ hfailed
        exact ⟨rfl, hfailed⟩

end Built

/--
A build whose walk ends either has a snapshot of each kind asked for and no other, complete for the songs it has
been shown, or fails with the error of a page or of a sticker and has none. It has them just if no page fails and,
where stickers are asked for, neither does the lookup of any song, in whatever order the songs are looked up.
-/
theorem buildCaches_complete (harrange : ∀ uris, (arrange uris).Perm uris)
    (hlength : songs.length < listingLimit)
    (hwalk : Shows player.libraryPage (max pageSize 1) 0 state songs middle
      ∨ ∃ e, Breaks player.libraryPage (max pageSize 1) 0 state songs e middle)
    : buildCachesIn id player store pageSize kinds = buildCaches player store pageSize kinds
      ∧ ((∃ built after, buildCachesIn arrange player store pageSize kinds state = .ok built after)
        ↔ Shows player.libraryPage (max pageSize 1) 0 state songs middle
          ∧ (kinds.stickers = true → ∀ song ∈ songs, ∃ sticker,
              answerIn arrange store songs middle song.uri = .ok sticker))
      ∧ (buildCachesIn arrange player store pageSize kinds).Ends state
          (fun built _ => built.Complete kinds songs (answerIn arrange store songs middle))
          (fun e _ => Breaks player.libraryPage (max pageSize 1) 0 state songs e middle
            ∨ kinds.stickers = true ∧ ∃ song ∈ songs,
                answerIn arrange store songs middle song.uri = .error e) := by
  refine ⟨buildCachesIn_id player store pageSize kinds, ?_⟩
  rw [buildCachesIn_eq]
  obtain hshows | ⟨e, hbreaks⟩ := hwalk
  . have hends := Built.ofSongsIn_ends harrange store kinds songs middle
    have hbuild : (player.listing pageSize >>= Built.ofSongsIn arrange store kinds) state
        = Built.ofSongsIn arrange store kinds songs middle := by
      simp only [bind, EStateM.bind, hshows.listing_eq hlength]
    rw [hbuild]
    unfold Play.Ends at hends ⊢
    rw [hbuild]
    cases hresult : Built.ofSongsIn arrange store kinds songs middle with
    | ok built after =>
      rw [hresult] at hends
      exact ⟨⟨fun _ => ⟨hshows, hends.2⟩, fun _ => ⟨built, after, rfl⟩⟩, hends.1⟩
    | error e after =>
      rw [hresult] at hends
      obtain ⟨hstickers, song, hsong, hfailed⟩ := hends
      refine ⟨⟨nofun, fun ⟨_, hanswers⟩ => ?_⟩, .inr ⟨hstickers, song, hsong, hfailed⟩⟩
      obtain ⟨sticker, hanswer⟩ := hanswers hstickers song hsong
      rw [hfailed] at hanswer
      contradiction
  . have hbuild : (player.listing pageSize >>= Built.ofSongsIn arrange store kinds) state
        = .error e middle := by
      simp only [bind, EStateM.bind, hbreaks.listing_eq hlength]
    unfold Play.Ends
    rw [hbuild]
    exact ⟨⟨nofun, fun ⟨hshows, _⟩ => (hshows.not_breaks hbreaks).elim⟩, .inl hbreaks⟩

end Build

namespace Rehearsal.ScriptedPlayer

def encore : ScriptedPlayer :=
  { library :=
      [{ uri := "a.flac", album := "Live" }, { uri := "b.flac" }, { uri := "a.flac", album := "Live" }] }

def encoreStickers : ScriptedStickers :=
  { stickers := [("b.flac", { playCount := 3 })] }

theorem encore_complete
    : ∃ built after,
        buildCachesIn List.reverse player (some encoreStickers.store) 2 .all encore = .ok built after
          ∧ ∃ index ∈ built.stickers,
              index.get? "a.flac" = some {} ∧ index.get? "b.flac" = some { playCount := 3 } := by
  obtain ⟨middle, hshows⟩ : ∃ middle, Shows player.libraryPage (max 2 1) 0 encore encore.library middle :=
    (serves_library encore.library).shows (by decide) ⟨rfl, rfl, rfl⟩
  obtain ⟨-, hok, hends⟩ := @buildCaches_complete _ _ player (some encoreStickers.store) 2 .all _ encore middle
    List.reverse_perm (by decide) (.inl hshows)
  have hknown (uri : String) (state : ScriptedPlayer)
      : ((encoreStickers.store uri).upshot state).1 = .ok (encoreStickers.stickers.lookup uri) := rfl
  have hanswer (song : Song) (hsong : song ∈ encore.library) :=
    StickerStore.answer_eq hknown middle
      (List.mem_reverse.mpr (StickerIndex.mem_keys_ofSongs.mpr (List.mem_map_of_mem hsong)))
  obtain ⟨built, after, hbuilt⟩ := hok.mpr ⟨hshows, fun _ song hsong => ⟨_, hanswer song hsong⟩⟩
  have hcomplete := hends.of_ok hbuilt
  obtain ⟨index, hindex⟩ := Option.isSome_iff_exists.mp hcomplete.stickers
  have hrecord (song : Song) (hsong : song ∈ encore.library)
      : index.get? song.uri = some ((encoreStickers.stickers.lookup song.uri).getD {}) := by
    obtain ⟨sticker, hsticker, hget⟩ := hcomplete.records index hindex song hsong
    cases (hanswer song hsong).symm.trans hsticker
    exact hget
  exact ⟨built, after, hbuilt, index, hindex, hrecord { uri := "a.flac", album := "Live" } (by decide),
    hrecord { uri := "b.flac" } (by decide)⟩

end Rehearsal.ScriptedPlayer

end AutoDJ
