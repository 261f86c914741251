import AutoDJ.Proofs.Player.Listing
import AutoDJ.Service.Builder

namespace AutoDJ

namespace Play

variable {s t u : Type}

def gathering (x : Play (s × t) α) (start : t) : Play s t := fun state =>
  match x (state, start) with
  | .ok _ (state, gathered) => .ok gathered state
  | .error e (state, _) => .error e state

@[simp]
theorem ends_gathering {x : Play (s × t) α} {start : t} {state : s} {Q : t → s → Prop}
    {E : Error → s → Prop}
    : (x.gathering start).Ends state Q E
        ↔ x.Ends (state, start) (fun _ pair => Q pair.2 pair.1) (fun e pair => E e pair.1) := by
  unfold Ends gathering
  cases x (state, start) <;> rfl

theorem Mirrors.gathering {f : t → u} {x : Play (s × u) α} {y : Play (s × t) α}
    (h : Mirrors (Prod.map id f) Eq x y) (start : t)
    : x.gathering (f start) = f <$> y.gathering start := by
  funext state
  have hstart := h (state, start)
  dsimp only [Prod.map_apply, id_eq] at hstart
  simp only [Play.gathering, Functor.map, EStateM.map]
  cases hx : x (state, f start) <;> cases hy : y (state, start) <;> simp_all

/--
An operation on the world outside: it keeps `P`, and if it fails, that is no decision of the program.
-/
def Outward (x : Play s α) (P : s → Prop) : Prop :=
  ∀ state, P state → x.Ends state (fun _ => P) (fun e state => e.isPolicy = false ∧ P state)

namespace Outward

variable {P : s → Prop} {x : Play s α}

theorem pure (a : α) : (Pure.pure a : Play s α).Outward P :=
  fun _ h => h

theorem bind {f : α → Play s β} (hx : x.Outward P) (hf : ∀ a, (f a).Outward P)
    : (x >>= f).Outward P := by
  intro state h
  rw [ends_bind]
  apply (hx state h).mono
  . intro a state h
    exact hf a state h
  . intro _ _ herror
    exact herror

theorem onSnd {y : Play t α} {P : t → Prop} (h : y.Outward P)
    : (y.onSnd : Play (s × t) α).Outward fun pair => P pair.2 := by
  rintro ⟨a, b⟩ hb
  rw [ends_onSnd]
  exact h b hb

end Outward

end Play

variable {s : Type}

def Player.listing (player : Player s) (pageSize : Nat) : Play s (List Song) :=
  Play.gathering
    (scanPages pageSize (fun offset limit => (player.libraryPage offset limit).onFst)
      fun song (state, songs) => (state, songs ++ [song]))
    []

theorem Player.listing_outward {player : Player s} {P : s → Prop}
    (h : ∀ offset limit, (player.libraryPage offset limit).Outward P) (pageSize : Nat)
    : (player.listing pageSize).Outward P := by
  intro state hstate
  unfold listing scanPages
  rw [Play.ends_gathering]
  apply scanPages.go_ends_or (I := fun walk : s × List Song => P walk.1)
  . intro offset limit walk hwalk
    rw [Play.ends_onFst]
    exact h offset limit walk.1 hwalk
  . intro _ _ hwalk
    exact hwalk
  . intro _ hwalk
    exact ⟨rfl, hwalk⟩
  . exact hstate

def StickerIndex.ofSongs (songs : List Song) : StickerIndex :=
  songs.foldl (fun index song => index.reserve song.uri) .empty

def StickerIndex.survey (songs : List Song) : Option (StickerStore s) → Play s StickerIndex
  | none => return .ofSongs songs
  | some store => (·.2) <$> (StickerIndex.ofSongs songs).fillFrom store

theorem StickerIndex.survey_outward {P : s → Prop} (songs : List Song) {store : Option (StickerStore s)}
    (h : ∀ store' ∈ store, ∀ uri, (store' uri).Outward P) : (survey songs store).Outward P := by
  cases store with
  | none => exact .pure _
  | some store =>
    have hgo (uris : List String) (result : Nat × StickerIndex)
        : (fillFrom.go store uris result).Outward P := by
      induction uris generalizing result with
      | nil => exact .pure _
      | cons uri uris ih =>
        apply (h store rfl uri).bind
        rintro (_ | sticker)
        . exact ih _
        . exact ih _
    intro state hstate
    rw [survey, Play.ends_map]
    exact hgo _ _ state hstate

def Player.inventory (player : Player s) (pageSize : Nat) (store : Option (StickerStore s)) :
    Play s (AlbumIndex × StickerIndex) := do
  let songs ← player.listing pageSize
  let stickers ← StickerIndex.survey songs store
  return (AlbumIndex.ofSongs songs, stickers)

theorem Player.inventory_outward {player : Player s} {P : s → Prop}
    (hpages : ∀ offset limit, (player.libraryPage offset limit).Outward P) (pageSize : Nat)
    {store : Option (StickerStore s)} (hstore : ∀ store' ∈ store, ∀ uri, (store' uri).Outward P)
    : (player.inventory pageSize store).Outward P := by
  apply (listing_outward hpages pageSize).bind
  intro songs
  apply (StickerIndex.survey_outward songs hstore).bind
  intro stickers
  exact .pure _

namespace Built

def select (kinds : CacheKinds) (albums : AlbumIndex) (stickers : StickerIndex) : Built :=
  { albums := if kinds.albums then some albums else none
    stickers := if kinds.stickers then some stickers else none }

theorem foldl_addSong (kinds : CacheKinds) (songs : List Song)
    : songs.foldl addSong (start kinds)
        = select kinds (AlbumIndex.ofSongs songs) (StickerIndex.ofSongs songs) := by
  have hselect (albums : AlbumIndex) (stickers : StickerIndex)
      : songs.foldl addSong (select kinds albums stickers)
          = select kinds (songs.foldl AlbumIndex.insert albums)
              (songs.foldl (fun index song => index.reserve song.uri) stickers) := by
    induction songs generalizing albums stickers with
    | nil => rfl
    | cons song songs ih =>
      have hsong : (select kinds albums stickers).addSong song
          = select kinds (albums.insert song) (stickers.reserve song.uri) := by
        cases halbums : kinds.albums <;> cases hstickers : kinds.stickers
          <;> simp [select, addSong, halbums, hstickers]
      rw [List.foldl_cons, hsong, ih]
      rfl
  exact hselect .empty .empty

theorem scan_eq_gathering (player : Player s) (pageSize : Nat) (kinds : CacheKinds)
    : scan player pageSize kinds
        = Play.gathering
            (scanPages pageSize (fun offset limit => (player.libraryPage offset limit).onFst)
              fun song (state, built) => (state, built.addSong song))
            (start kinds) := by
  funext state
  unfold scan Play.gathering
  dsimp only
  split
  . next h => rw [h]
  . next h => rw [h]

theorem scan_eq (player : Player s) (pageSize : Nat) (kinds : CacheKinds)
    : scan player pageSize kinds
        = (fun songs => songs.foldl addSong (start kinds)) <$> player.listing pageSize := by
  have hwalk
      : Play.Mirrors (Prod.map id fun songs => songs.foldl addSong (start kinds)) Eq
          (scanPages pageSize (fun offset limit => (player.libraryPage offset limit).onFst)
            fun song (state, built) => (state, built.addSong song))
          (scanPages pageSize (fun offset limit => (player.libraryPage offset limit).onFst)
            fun song (state, songs) => (state, songs ++ [song])) := by
    apply scanPages_mirrors
    . intro _ _
      exact .onFst_map _ _
    . simp
  rw [scan_eq_gathering]
  exact hwalk.gathering []

theorem lookUp_select {kinds : CacheKinds} (songs : List Song) {store : Option (StickerStore s)}
    (hstore : store.isSome → kinds.stickers = true)
    : (select kinds (AlbumIndex.ofSongs songs) (StickerIndex.ofSongs songs)).lookUp store
        = select kinds (AlbumIndex.ofSongs songs) <$> StickerIndex.survey songs store := by
  cases store with
  | none => rfl
  | some store =>
    have hstickers : kinds.stickers = true := hstore rfl
    simp only [lookUp, StickerIndex.survey, select, hstickers, if_true, Functor.map_map]
    rfl

end Built

theorem buildCaches_eq (player : Player s) {store : Option (StickerStore s)} (pageSize : Nat)
    (kinds : CacheKinds) (hstore : store.isSome → kinds.stickers = true)
    : buildCaches player store pageSize kinds
        = (fun (albums, stickers) => Built.select kinds albums stickers)
            <$> player.inventory pageSize store := by
  unfold buildCaches Player.inventory
  simp only [Built.scan_eq, Built.foldl_addSong, bind_map_left, Built.lookUp_select _ hstore, map_bind,
    map_pure]
  rfl

namespace Backend

variable {σ ω : Type} (b : Backend σ ω)

def survey (options : ServiceOptions) (handle : σ) (kinds : CacheKinds) :
    Play ω (AlbumIndex × StickerIndex) := do
  let store : Option (StickerStore ω) ←
    match options.stickerDatabase with
    | some path => if kinds.stickers then pure (some (← b.openStickers path)) else pure none
    | none => pure none
  asClient handle
    (b.player.inventory options.pageSize (store.map fun store uri => Play.onSnd (store uri)))

@[simp]
theorem ends_asClient {handle : σ} {x : Play (σ × ω) α} {world : ω} {Q : α → ω → Prop}
    {E : Error → ω → Prop}
    : (asClient handle x).Ends world Q E
        ↔ x.Ends (handle, world) (fun value state => Q value state.2) (fun e state => E e state.2) := by
  unfold Play.Ends asClient
  cases x (handle, world) <;> rfl

theorem asClient_map {handle : σ} {x : Play (σ × ω) α} {f : α → β}
    : asClient handle (f <$> x) = f <$> asClient handle x := by
  funext world
  simp only [asClient, Functor.map, EStateM.map]
  cases x (handle, world) <;> rfl

theorem build_eq (options : ServiceOptions) (handle : σ) (kinds : CacheKinds)
    : b.build options handle kinds
        = (fun (albums, stickers) => Built.select kinds albums stickers)
            <$> b.survey options handle kinds := by
  have hrest (store : Option (StickerStore ω)) (hstore : store.isSome → kinds.stickers = true)
      : asClient handle (buildCaches b.player (store.map fun store uri => Play.onSnd (store uri))
          options.pageSize kinds)
        = (fun (albums, stickers) => Built.select kinds albums stickers)
            <$> asClient handle (b.player.inventory options.pageSize
              (store.map fun store uri => Play.onSnd (store uri))) := by
    rw [buildCaches_eq _ _ _ (by simpa using hstore), asClient_map]
  unfold build survey
  cases options.stickerDatabase with
  | none => simpa using hrest none (by simp)
  | some path =>
    dsimp only
    split
    . next hstickers =>
      simp only [pure_bind, map_bind]
      congr 1
      funext store
      exact hrest (some store) fun _ => hstickers
    . simpa using hrest none (by simp)

structure Harmless (I : ω → Prop) : Prop where
  libraryPage : ∀ offset limit, (b.player.libraryPage offset limit).Outward fun state => I state.2
  openStickers : ∀ path world, I world
    → (b.openStickers path).Ends world (fun store world => I world ∧ ∀ uri, (store uri).Outward I)
        (fun e world => e.isPolicy = false ∧ I world)

variable {b} {I : ω → Prop}

theorem Harmless.survey (h : b.Harmless I) (options : ServiceOptions) (handle : σ) (kinds : CacheKinds)
    : (b.survey options handle kinds).Outward I := by
  have hrest (store : Option (StickerStore ω)) (hstore : ∀ store' ∈ store, ∀ uri, (store' uri).Outward I)
      : (asClient handle (b.player.inventory options.pageSize
          (store.map fun store uri => Play.onSnd (store uri)))).Outward I := by
    intro world hworld
    rw [ends_asClient]
    refine Player.inventory_outward h.libraryPage _ ?_ _ hworld
    intro store' hstore' uri
    obtain ⟨store, hmem, rfl⟩ := Option.map_eq_some_iff.mp hstore'
    exact (hstore store hmem uri).onSnd
  unfold Backend.survey
  cases options.stickerDatabase with
  | none => exact hrest none (by simp)
  | some path =>
    dsimp only
    split
    . intro world hworld
      simp only [Play.ends_bind, Play.ends_pure]
      apply (h.openStickers path world hworld).mono
      . rintro store world ⟨hworld, hstore⟩
        exact hrest (some store) (by simpa using hstore) world hworld
      . intro _ _ herror
        exact herror
    . exact hrest none (by simp)

end Backend

end AutoDJ
