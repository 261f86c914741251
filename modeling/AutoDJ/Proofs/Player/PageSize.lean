import AutoDJ.Proofs.Cache.Survey
import AutoDJ.Proofs.Jukebox.Sampling
import AutoDJ.Rehearsal.Player
import AutoDJ.Rehearsal.Stickers

/-!
This module contains the proof that the page size makes no difference to what is made of a listing: to the
songs that are seen, to the tracks that are drawn and to the snapshots that are built. It does make a
difference to the number of pages.
-/

namespace AutoDJ

namespace Play

variable {s t α β : Type}

def counted (x : Play s α) : Play (s × Nat) α := do
  modify (Prod.map id (· + 1))
  x.onFst

def upshot (x : Play s α) (start : s) : Except Error α × s :=
  match x start with
  | .ok value state => (.ok value, state)
  | .error e state => (.error e, state)

def told (x : Play (s × t) α) (start : s × t) : Except Error α × t :=
  (x.upshot start).map id Prod.snd

theorem told_of_ends {x : Play (s × t) α} {start : s × t} {value : α} {b : t}
    (h : x.Ends start (fun result after => result = value ∧ after.2 = b) (fun _ _ => False))
    : x.told start = (.ok value, b) := by
  unfold told upshot
  cases hx : x start with
  | ok result after =>
    obtain ⟨rfl, rfl⟩ := h.of_ok hx
    rfl
  | error e after => exact (h.of_error hx).elim

theorem told_bind {x : Play (s × t) α} {f : α → Play (s × t) β} {start : s × t}
    {done : Except Error β × t}
    (h : x.Ends start (fun value after => (f value).told after = done) (fun _ _ => False))
    : (x >>= f).told start = done := by
  unfold told upshot
  simp only [bind, EStateM.bind]
  cases hx : x start with
  | ok value after => exact h.of_ok hx
  | error e after => exact (h.of_error hx).elim

theorem Mirrors.told_eq {x : Play t α} {y : Play (s × t) α} (h : Mirrors Prod.snd Eq x y) (start : s × t)
    : y.told start = x.upshot start.2 := by
  have hstart := h start
  unfold told upshot
  cases hx : x start.2 <;> cases hy : y start <;> simp_all

end Play

/--
In the states for which `serving` holds, every window of a listing is served exactly.
-/
def Serves (fetch : (offset limit : Nat) → Play s (List Song)) (songs : List Song) (serving : s → Prop) :
    Prop :=
  ∀ offset limit state, serving state
    → (fetch offset limit).Ends state
        (fun page after => page = (songs.drop offset).take limit ∧ serving after) (fun _ _ => False)

namespace Serves

variable {s t w : Type} {fetch : (offset limit : Nat) → Play s (List Song)} {songs : List Song}
  {serving : s → Prop} {state : s}

theorem onFst (h : Serves fetch songs serving) (b : t)
    : Serves (fun offset limit => (fetch offset limit).onFst) songs
        (fun state : s × t => serving state.1 ∧ state.2 = b) := by
  rintro offset limit state ⟨hstate, hb⟩
  rw [Play.ends_onFst]
  apply (h offset limit state.1 hstate).mono
  . rintro page after ⟨hpage, hafter⟩
    exact ⟨hpage, hafter, hb⟩
  . exact fun _ _ => id

theorem window (h : Serves fetch songs serving) {seen rest : List Song} (hsongs : songs = seen ++ rest)
    (limit : Nat) (hstate : serving state)
    : (fetch seen.length limit).Ends state (fun page after => page = rest.take limit ∧ serving after)
        (fun _ _ => False) := by
  have hpage := h seen.length limit state hstate
  rwa [hsongs, List.drop_left] at hpage

theorem visits (h : Serves fetch songs serving) (hlength : songs.length < listingLimit) (pageSize : Nat)
    (visit : Song → w → w) (start : w) (hstate : serving state)
    : (scanPages pageSize (fun offset limit => (fetch offset limit).onFst)
          fun song (walk : s × w) => (walk.1, visit song walk.2)).Ends (state, start)
        (fun count after => count = songs.length
          ∧ after.2 = songs.foldl (fun shown song => visit song shown) start ∧ serving after.1)
        (fun _ _ => False) := by
  apply (scanPages_counts
    (J := fun seen _ walk =>
      walk.2 = seen.foldl (fun shown song => visit song shown) start ∧ serving walk.1)
    ?_ ?_ hlength (state, start) ⟨rfl, hstate⟩).mono
  . rintro count after ⟨hcount, hshown, hafter⟩
    exact ⟨hcount, hshown, hafter⟩
  . exact fun _ _ => id
  . rintro seen rest _ limit walk hsongs ⟨hshown, hwalk⟩
    rw [Play.ends_onFst]
    apply (h.window hsongs limit hwalk).mono
    . rintro page after ⟨hpage, hafter⟩
      exact ⟨hpage, hshown, hafter⟩
    . exact fun _ _ => id
  . rintro seen song _ walk ⟨hshown, hwalk⟩
    refine ⟨?_, hwalk⟩
    rw [List.foldl_append, ← hshown]
    rfl

theorem fetches (h : Serves fetch songs serving) (hlength : songs.length < listingLimit) (pageSize : Nat)
    (hstate : serving state)
    : (scanPages pageSize (fun offset limit => (fetch offset limit).counted) fun _ walk => walk).Ends
        (state, 0) (fun _ after => after.2 = songs.length / max pageSize 1 + 1) (fun _ _ => False) := by
  apply (scanPages_counts (J := fun _ fetches walk => walk.2 = fetches ∧ serving walk.1)
    ?_ (fun _ _ _ _ => id) hlength (state, 0) ⟨rfl, hstate⟩).mono
  . rintro _ after ⟨-, hfetches, -⟩
    exact hfetches
  . exact fun _ _ => id
  . rintro seen rest fetches limit walk hsongs ⟨hfetches, hwalk⟩
    unfold Play.counted
    rw [Play.ends_bind, Play.ends_modify, Play.ends_onFst]
    apply (h.window hsongs limit hwalk).mono
    . rintro page after ⟨hpage, hafter⟩
      exact ⟨hpage, congrArg (· + 1) hfetches, hafter⟩
    . exact fun _ _ => id

theorem shows (h : Serves fetch songs serving) {size : Nat} (hsize : 0 < size) (hstate : serving state)
    : ∃ after, Shows fetch size 0 state songs after := by
  have hfrom (count : Nat) (seen rest : List Song) (state : s) (hsongs : songs = seen ++ rest)
      (hcount : rest.length = count) (hstate : serving state)
      : ∃ after, Shows fetch size seen.length state rest after := by
    induction count using Nat.strongRecOn generalizing seen rest state with
    | ind count ih =>
      have hwindow := h.window hsongs size hstate
      cases hpage : fetch seen.length size state with
      | error e next => exact (hwindow.of_error hpage).elim
      | ok page next =>
        obtain ⟨rfl, hnext⟩ := hwindow.of_ok hpage
        by_cases hshort : rest.length < size
        . rw [List.take_of_length_le (by omega)] at hpage
          exact ⟨next, .last hpage hshort⟩
        . have hsplit := List.take_append_drop size rest
          obtain ⟨after, hrest⟩ := ih _ (by rw [← hcount, List.length_drop]; omega)
            (seen ++ rest.take size) (rest.drop size) next
            (by rw [List.append_assoc, hsplit, hsongs]) rfl hnext
          rw [List.length_append] at hrest
          have hshown := Shows.more hpage (by rw [List.length_take]; omega) hrest
          rw [hsplit] at hshown
          exact ⟨after, hshown⟩
  exact hfrom _ [] songs state rfl rfl hstate

end Serves

section Tracks

variable {s : Type} {player : Player s} {source : Source} {songs : List Song} {serving : s → Prop}
  {state : s}

def drawFrom (songs : List Song) (rules : Exclusions) (k : Nat) (random : WordStream) :
    List Candidate × WordStream :=
  (songs.foldl (fun sampler song => sampler.visitSong rules song)
    { reservoir := .empty k, random : Sampler }).finish

theorem sampleTracks_told (h : Serves (player.sourcePage source) songs serving)
    (hlength : songs.length < listingLimit) (pageSize : Nat) (rules : Exclusions) (k : Nat)
    (random : WordStream) (hstate : serving state)
    : (sampleTracks player source pageSize rules k).told (state, random)
        = (.ok (drawFrom songs rules k random).1, (drawFrom songs rules k random).2) := by
  have hwalk := h.visits hlength pageSize (fun song sampler => sampler.visitSong rules song)
    { reservoir := .empty k, random : Sampler } hstate
  apply Play.told_of_ends
  rw [ends_sampleTracks]
  apply hwalk.mono
  . rintro _ after ⟨-, hsampler, -⟩
    unfold drawFrom
    rw [hsampler]
    exact ⟨rfl, rfl⟩
  . exact fun _ _ => id

end Tracks

section Snapshots

variable {s t : Type}

def Player.beside (player : Player s) : Player (s × t) where
  libraryPage offset limit := (player.libraryPage offset limit).onFst
  playlistPage name offset limit := (player.playlistPage name offset limit).onFst
  queuedUris := player.queuedUris.onFst
  addTrack uri := (player.addTrack uri).onFst
  addAlbum album albumArtist := (player.addAlbum album albumArtist).onFst
  play := player.play.onFst
  status := player.status.onFst
  stats := player.stats.onFst

def StickerStore.beside (store : StickerStore t) : StickerStore (s × t) :=
  fun uri => (store uri).onSnd

theorem Built.lookUp_mirrors (built : Built) (store : Option (StickerStore t))
    : Play.Mirrors (Prod.snd : s × t → t) Eq (built.lookUp store)
        (built.lookUp (store.map StickerStore.beside)) := by
  have hgo (store : StickerStore t) (uris : List String) (result : Nat × StickerIndex)
      : Play.Mirrors (Prod.snd : s × t → t) Eq (StickerIndex.fillFrom.go store uris result)
          (StickerIndex.fillFrom.go store.beside uris result) := by
    induction uris generalizing result with
    | nil => exact .pure rfl
    | cons uri uris ih =>
      apply (Play.Mirrors.onSnd (store uri)).bind
      rintro sticker _ rfl
      cases sticker with
      | none => exact ih _
      | some sticker => exact ih _
  unfold Built.lookUp
  cases store with
  | none => exact .pure rfl
  | some store =>
    dsimp only [Option.map_some]
    split
    . exact .pure rfl
    . apply (hgo store _ _).bind
      rintro result _ rfl
      exact .pure rfl

theorem buildCaches_told {player : Player s} {songs : List Song} {serving : s → Prop} {state : s}
    (h : Serves player.libraryPage songs serving) (hlength : songs.length < listingLimit)
    (store : Option (StickerStore t)) (pageSize : Nat) (kinds : CacheKinds) (b : t)
    (hstate : serving state)
    : (buildCaches player.beside (store.map StickerStore.beside) pageSize kinds).told (state, b)
        = ((songs.foldl Built.addSong (.start kinds)).lookUp store).upshot b := by
  have hserves : Serves (player.beside : Player (s × t)).libraryPage songs
      (fun state => serving state.1 ∧ state.2 = b) := h.onFst b
  have hstart : serving (state, b).1 ∧ (state, b).2 = b := ⟨hstate, rfl⟩
  have hwalk := hserves.visits hlength pageSize (fun song built => built.addSong song) (Built.start kinds)
    hstart
  unfold buildCaches
  apply Play.told_bind
  rw [Built.scan_eq_gathering, Play.ends_gathering]
  apply hwalk.mono
  . rintro _ after ⟨-, hbuilt, -, hb⟩
    rw [(Built.lookUp_mirrors after.2 store).told_eq after.1, hbuilt, hb]
  . exact fun _ _ => id

end Snapshots

/--
A listing that is served in exact windows is shown song by song from the first to the last, whatever the
page size, with one page for each full one and one more. For any two page sizes the same tracks are drawn
from it with the same random words, and the same snapshots are built from it, unless the sticker store fails
in the same way for both.
-/
theorem Player.pageSize_irrelevant {s : Type} {player : Player s} {source : Source} {songs : List Song}
    {serving : s → Prop} (h : Serves (player.sourcePage source) songs serving)
    (hlength : songs.length < listingLimit) (p q : Nat) (state : s) (hstate : serving state)
    : (∀ (w : Type) (visit : Song → w → w) (start : w),
        (scanPages p (fun offset limit => (player.sourcePage source offset limit).onFst)
            fun song (walk : s × w) => (walk.1, visit song walk.2)).Ends (state, start)
          (fun count after => count = songs.length
            ∧ after.2 = songs.foldl (fun shown song => visit song shown) start ∧ serving after.1)
          (fun _ _ => False))
      ∧ (scanPages p (fun offset limit => (player.sourcePage source offset limit).counted)
            fun _ walk => walk).Ends (state, 0)
          (fun _ after => after.2 = songs.length / max p 1 + 1) (fun _ _ => False)
      ∧ (∀ rules k random, ∃ drawn after,
          (sampleTracks player source p rules k).told (state, random) = (.ok drawn, after)
            ∧ (sampleTracks player source q rules k).told (state, random) = (.ok drawn, after))
      ∧ (source = .database → ∀ (t : Type) (store : Option (StickerStore t)) (kinds : CacheKinds)
          (shelf : t),
          (buildCaches player.beside (store.map StickerStore.beside) p kinds).told (state, shelf)
              = ((songs.foldl Built.addSong (.start kinds)).lookUp store).upshot shelf
            ∧ (buildCaches player.beside (store.map StickerStore.beside) q kinds).told (state, shelf)
              = ((songs.foldl Built.addSong (.start kinds)).lookUp store).upshot shelf) := by
  refine ⟨?_, ?_, ?_, ?_⟩
  . intro w visit start
    exact h.visits hlength p visit start hstate
  . exact h.fetches hlength p hstate
  . intro rules k random
    have htold (pageSize : Nat) := sampleTracks_told h hlength pageSize rules k random hstate
    exact ⟨_, _, htold p, htold q⟩
  . rintro rfl t store kinds shelf
    have htold (pageSize : Nat) := buildCaches_told h hlength store pageSize kinds shelf hstate
    exact ⟨htold p, htold q⟩

namespace Rehearsal.ScriptedPlayer

theorem serves_library (songs : List Song)
    : Serves player.libraryPage songs
        (fun p => p.library = songs ∧ p.pageCap = none ∧ p.failures = []) := by
  rintro offset limit p ⟨hlibrary, hcap, hfailures⟩
  simp [player, enter, cut, hlibrary, hcap, hfailures]

def fourSongs : ScriptedPlayer :=
  { library := [{ uri := "a.flac" }, { uri := "b.flac" }, { uri := "c.flac" }, { uri := "d.flac" }] }

theorem fourSongs_paged
    : (scanPages 2 (fun offset limit => (player.sourcePage .database offset limit).counted)
          fun _ walk => walk).Ends (fourSongs, 0) (fun _ after => after.2 = 3) (fun _ _ => False)
      ∧ (∃ drawn after,
          (sampleTracks player .database 2 {} 3).told (fourSongs, { word := fun _ => 0 })
              = (.ok drawn, after)
            ∧ (sampleTracks player .database 0 {} 3).told (fourSongs, { word := fun _ => 0 })
              = (.ok drawn, after))
      ∧ (buildCaches player.beside (some (ScriptedStickers.store {}).beside) 2 .all).told (fourSongs, ())
          = (buildCaches player.beside (some (ScriptedStickers.store {}).beside) 0 .all).told
              (fourSongs, ()) := by
  have hserves : Serves (player.sourcePage .database) fourSongs.library _ :=
    serves_library fourSongs.library
  obtain ⟨-, hfetches, hdrawn, hbuilt⟩ :=
    Player.pageSize_irrelevant hserves (by decide) 2 0 fourSongs ⟨rfl, rfl, rfl⟩
  obtain ⟨hlarge, hsmall⟩ := hbuilt rfl Unit (some (ScriptedStickers.store {})) .all ()
  exact ⟨hfetches, hdrawn {} 3 _, hlarge.trans hsmall.symm⟩

end Rehearsal.ScriptedPlayer

end AutoDJ
