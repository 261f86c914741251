import AutoDJ.Mpc.Client
import AutoDJ.Proofs.Player.Listing
import AutoDJ.Rehearsal.Mpc

namespace AutoDJ.Mpc

variable {ω T : Type}

def listingArguments (source : Source) : List String :=
  ["-f", songFormat] ++
    match source with
    | .database => ["listall"]
    | .playlist name => ["playlist", name]

def logged (run : Runner ω) : Runner (ω × List (List String)) := fun arguments (world, log) =>
  match run arguments world with
  | .ok text world => .ok text (world, log ++ [arguments])
  | .error e world => .error e (world, log ++ [arguments])

namespace Client

def afterPage (source : Source) (songs page : List Song) (limit : Nat) : Client :=
  { held := if page.length < limit then none else some { source, songs } }

theorem songs?_zero (client : Client) (source : Source) : client.songs? source 0 = none := by
  unfold songs?
  split <;> simp

theorem songs?_held {source : Source} {songs : List Song} {offset : Nat} (hoffset : 0 < offset)
    : ({ held := some { source, songs } } : Client).songs? source offset = some songs := by
  simp [songs?, hoffset]

end Client

variable {run : Runner ω} {source : Source} {songs : List Song} {world : ω}

theorem fetch_eq : fetch run source = readSongs <$> run (listingArguments source) := by
  cases source <;> rfl

theorem page_of_held {client : Client} {offset limit : Nat}
    (hknown : client.songs? source offset = some songs)
    : page run source offset limit (client, world)
        = .ok ((songs.drop offset).take limit)
            (.afterPage source songs ((songs.drop offset).take limit) limit, world) := by
  unfold page
  rw [Play.get_bind, hknown]
  rfl

theorem page_of_listed {client : Client} {offset limit : Nat} {text : String} {world' : ω}
    (hunknown : client.songs? source offset = none)
    (h : run (listingArguments source) world = .ok text world')
    : page run source offset limit (client, world)
        = .ok (((readSongs text).drop offset).take limit)
            (.afterPage source (readSongs text) (((readSongs text).drop offset).take limit) limit,
              world') := by
  have hfetched : fetch run source world = .ok (readSongs text) world' := by
    simp only [fetch_eq, Functor.map, EStateM.map, h]
  unfold page
  rw [Play.get_bind, hunknown]
  simp only [bind, EStateM.bind, Play.onSnd, hfetched]
  rfl

theorem page_of_failed {client : Client} {offset limit : Nat} {e : Error} {world' : ω}
    (hunknown : client.songs? source offset = none)
    (h : run (listingArguments source) world = .error e world')
    : page run source offset limit (client, world) = .error e (client, world') := by
  have hfailed : fetch run source world = .error e world' := by
    simp only [fetch_eq, Functor.map, EStateM.map, h]
  unfold page
  rw [Play.get_bind, hunknown]
  simp only [bind, EStateM.bind, Play.onSnd, hfailed]

theorem sourcePage_player : (player run).sourcePage source = page run source := by
  cases source <;> rfl

def aside (visit : Song → T → T) (song : Song) (state : (Client × ω) × T) : (Client × ω) × T :=
  (state.1, visit song state.2)

theorem foldl_aside {visit : Song → T → T} (page : List Song) (device : Client × ω) (seen : T)
    : page.foldl (fun state song => aside visit song state) (device, seen)
        = (device, page.foldl (fun seen song => visit song seen) seen) := by
  induction page generalizing seen with
  | nil => rfl
  | cons song page ih => exact ih _

section Scan

variable {pageSize : Nat} {visit : Song → T → T}

def scan (run : Runner ω) (source : Source) (pageSize : Nat) (visit : Song → T → T) :
    Play ((Client × ω) × T) Nat :=
  scanPages pageSize (fun offset limit => ((player run).sourcePage source offset limit).onFst)
    (aside visit)

theorem go_of_page (pages offset : Nat) (device : Client × ω) (seen : T)
    (hpage : page run source offset (max pageSize 1) device
      = .ok ((songs.drop offset).take (max pageSize 1))
          (.afterPage source songs ((songs.drop offset).take (max pageSize 1)) (max pageSize 1), world))
    (hoffset : offset ≤ songs.length) (hpages : songs.length - offset < pages)
    : scanPages.go pageSize (fun offset limit => (page run source offset limit).onFst) (aside visit)
        pages offset (device, seen)
        = .ok songs.length
            (({}, world), (songs.drop offset).foldl (fun seen song => visit song seen) seen) := by
  -- what the client holds is the same listing until the last page has been cut
  induction pages generalizing offset device seen with
  | zero => contradiction
  | succ pages ih =>
    have hfetched
        : (page run source offset (max pageSize 1)).onFst (device, seen)
            = .ok ((songs.drop offset).take (max pageSize 1))
                ((.afterPage source songs ((songs.drop offset).take (max pageSize 1)) (max pageSize 1),
                  world), seen) := by
      simp only [Play.onFst, hpage]
    have hlength : (songs.drop offset).length = songs.length - offset := List.length_drop
    rw [scanPages.go_of_ok hfetched, foldl_aside]
    split
    . next hshort =>
      -- the page is short, so that it is all that was left
      have htake : (songs.drop offset).take (max pageSize 1) = songs.drop offset := by
        apply List.take_of_length_le
        rw [List.length_take] at hshort
        omega
      rw [htake] at hshort ⊢
      rw [Client.afterPage, if_pos hshort, hlength, Nat.add_sub_cancel' hoffset]
    . next hfull =>
      have htaken : ((songs.drop offset).take (max pageSize 1)).length = max pageSize 1 := by
        rw [List.length_take] at hfull ⊢
        omega
      rw [List.length_take] at hfull
      rw [htaken, Client.afterPage, if_neg (by omega), ih]
      . rw [← List.foldl_append, ← List.drop_drop, List.take_append_drop]
      . exact page_of_held (Client.songs?_held (by omega))
      . omega
      . omega

theorem scan_once (run : Runner ω) (source : Source) (pageSize : Nat) (visit : Song → T → T)
    (client : Client) (world : ω) (log : List (List String)) (seen : T)
    (hlimit : ∀ text world', run (listingArguments source) world = .ok text world'
      → (readSongs text).length < listingLimit)
    : scan (logged run) source pageSize visit ((client, world, log), seen)
        = match run (listingArguments source) world with
          | .ok text world =>
            .ok (readSongs text).length
              (({}, world, log ++ [listingArguments source]),
                (readSongs text).foldl (fun seen song => visit song seen) seen)
          | .error e world => .error e ((client, world, log ++ [listingArguments source]), seen) := by
  unfold scan scanPages
  rw [sourcePage_player]
  cases hrun : run (listingArguments source) world with
  | ok text world' =>
    have hlogged : logged run (listingArguments source) (world, log)
        = .ok text (world', log ++ [listingArguments source]) := by
      simp only [logged, hrun]
    dsimp only
    refine go_of_page listingLimit 0 _ seen ?_ (Nat.zero_le _) (hlimit text world' hrun)
    exact page_of_listed (client.songs?_zero source) hlogged
  | error e world' =>
    have hlogged : logged run (listingArguments source) (world, log)
        = .error e (world', log ++ [listingArguments source]) := by
      simp only [logged, hrun]
    have hlimit : listingLimit = listingLimit - 1 + 1 := rfl
    rw [hlimit]
    apply scanPages.go_of_error
    simp only [Play.onFst, page_of_failed (client.songs?_zero source) hlogged]

end Scan

def fickle : Rehearsal.ScriptedMpc :=
  { lines := [{ arguments := ["listall"], answers := [.text "one.flac\ntwo.flac\n", .text ""] }] }

theorem fickle_scan_once
    : (∀ text world', Rehearsal.ScriptedMpc.runner (listingArguments .database) fickle = .ok text world'
        → (readSongs text).length < listingLimit)
      ∧ ∃ world', scan (logged Rehearsal.ScriptedMpc.runner) .database 2
            (fun song uris => uris ++ [song.uri])
            (({ held := some { source := .database, songs := [{ uri := "stale.flac" }] } }, fickle, []),
              [])
          = .ok 2 (({}, world', [listingArguments .database]), ["one.flac", "two.flac"]) := by
  have hlimit (text : String) (world' : Rehearsal.ScriptedMpc)
      (h : Rehearsal.ScriptedMpc.runner (listingArguments .database) fickle = .ok text world')
      : (readSongs text).length < listingLimit := by
    cases h
    decide +kernel
  refine ⟨hlimit, (Rehearsal.ScriptedMpc.runner (listingArguments .database)).after fickle, ?_⟩
  rw [scan_once _ _ _ _ _ _ _ _ hlimit]
  rfl

end AutoDJ.Mpc
