import AutoDJ.Proofs.Mpc.Scan

/-!
This module contains the proof that it cannot be told from the pages of an `mpc` client that it holds a listing: as
long as `mpc` answers the same, they are the pages of a client that lists a source anew for each page, whatever
sources, offsets and limits are asked for and in whatever order.
-/

namespace AutoDJ.Mpc

structure PageRequest where
  source : Source
  offset : Nat
  limit : Nat
deriving Repr, DecidableEq

def pages (fetchPage : Source → (offset limit : Nat) → Play s (List Song)) (requests : List PageRequest)
    : Play s (List (Except Error (List Song))) :=
  requests.mapM fun request => (fetchPage request.source request.offset request.limit).outcome

def freshPage (run : Runner ω) (source : Source) (offset limit : Nat) : Play ω (List Song) := do
  let songs ← fetch run source
  return (songs.drop offset).take limit

def worldAfter (run : Runner ω) (earlier : List (List String)) (world : ω) : ω :=
  earlier.foldl (fun world arguments => (run arguments).after world) world

/--
From a world on, `mpc` has one answer to some arguments, no matter what it was run with before.
-/
def Steady (run : Runner ω) (answers : List String → Except Error String) (world : ω) : Prop :=
  ∀ earlier arguments,
    (run arguments).Ends (worldAfter run earlier world) (fun text _ => answers arguments = .ok text)
      (fun e _ => answers arguments = .error e)

def listing (answers : List String → Except Error String) (source : Source) : Except Error (List Song) :=
  (answers (listingArguments source)).map readSongs

def window (answers : List String → Except Error String) (request : PageRequest) : Except Error (List Song) :=
  (listing answers request.source).map fun songs => (songs.drop request.offset).take request.limit

def Client.Truthful (answers : List String → Except Error String) (client : Client) : Prop :=
  ∀ held, client.held = some held → listing answers held.source = .ok held.songs

variable {ω s : Type} {run : Runner ω} {answers : List String → Except Error String} {world world' : ω}
  {source : Source} {offset limit : Nat}

namespace Steady

theorem after (h : Steady run answers world) (arguments : List String)
    : Steady run answers ((run arguments).after world) :=
  fun earlier => h (arguments :: earlier)

theorem listed {text : String} (h : Steady run answers world)
    (hrun : run (listingArguments source) world = .ok text world')
    : listing answers source = .ok (readSongs text) ∧ Steady run answers world' := by
  have hanswer := (h [] (listingArguments source)).of_ok hrun
  rw [← Play.after_eq_of_ok hrun, listing, hanswer]
  exact ⟨rfl, h.after _⟩

theorem failed {e : Error} (h : Steady run answers world)
    (hrun : run (listingArguments source) world = .error e world')
    : listing answers source = .error e ∧ Steady run answers world' := by
  have hanswer := (h [] (listingArguments source)).of_error hrun
  rw [← Play.after_eq_of_error hrun, listing, hanswer]
  exact ⟨rfl, h.after _⟩

end Steady

namespace Client

theorem truthful_empty : ({} : Client).Truthful answers := by
  intro held hheld
  contradiction

theorem truthful_afterPage {songs page : List Song} (h : listing answers source = .ok songs)
    : (afterPage source songs page limit).Truthful answers := by
  intro held hheld
  unfold afterPage at hheld
  dsimp only at hheld
  split at hheld
  . contradiction
  . cases hheld
    exact h

theorem Truthful.listing_of_songs? {client : Client} {songs : List Song} (h : client.Truthful answers)
    (hknown : client.songs? source offset = some songs) : listing answers source = .ok songs := by
  unfold songs? at hknown
  split at hknown
  . next held hheld =>
    split at hknown
    . next hsame =>
      cases hknown
      rw [← hsame.2]
      exact h held hheld
    . contradiction
  . contradiction

end Client

theorem page_ends {client : Client} (h : Steady run answers world) (hclient : client.Truthful answers)
    : (page run source offset limit).outcome.Ends (client, world)
        (fun page device =>
          page = window answers { source, offset, limit }
            ∧ device.1.Truthful answers ∧ Steady run answers device.2)
        (fun _ _ => False) := by
  rw [Play.ends_outcome]
  unfold Play.Ends window
  -- a page is cut from what the client holds or from a new listing, or there is none
  cases hsongs : client.songs? source offset with
  | some songs =>
    have hlisting := hclient.listing_of_songs? hsongs
    rw [page_of_held hsongs, hlisting]
    exact ⟨rfl, Client.truthful_afterPage hlisting, h⟩
  | none =>
    cases hrun : run (listingArguments source) world with
    | ok text world' =>
      obtain ⟨hlisting, hsteady⟩ := h.listed hrun
      rw [page_of_listed hsongs hrun, hlisting]
      exact ⟨rfl, Client.truthful_afterPage hlisting, hsteady⟩
    | error e world' =>
      obtain ⟨hlisting, hsteady⟩ := h.failed hrun
      rw [page_of_failed hsongs hrun, hlisting]
      exact ⟨rfl, hclient, hsteady⟩

theorem freshPage_ends (h : Steady run answers world)
    : (freshPage run source offset limit).outcome.Ends world
        (fun page world => page = window answers { source, offset, limit } ∧ Steady run answers world)
        (fun _ _ => False) := by
  unfold freshPage
  simp only [Play.ends_outcome, Play.ends_bind, Play.ends_pure, fetch_eq, Play.ends_map]
  unfold Play.Ends window
  cases hrun : run (listingArguments source) world with
  | ok text world' =>
    obtain ⟨hlisting, hsteady⟩ := h.listed hrun
    rw [hlisting]
    exact ⟨rfl, hsteady⟩
  | error e world' =>
    obtain ⟨hlisting, hsteady⟩ := h.failed hrun
    rw [hlisting]
    exact ⟨rfl, hsteady⟩

theorem pages_ends {fetchPage : Source → (offset limit : Nat) → Play s (List Song)} {P : s → Prop}
    {expected : PageRequest → Except Error (List Song)}
    (hpage : ∀ (request : PageRequest) (state : s), P state
      → (fetchPage request.source request.offset request.limit).outcome.Ends state
          (fun page state => page = expected request ∧ P state) (fun _ _ => False))
    (requests : List PageRequest) {state : s} (hstate : P state)
    : (pages fetchPage requests).Ends state
        (fun results _ => results = requests.map expected) (fun _ _ => False) := by
  unfold pages
  induction requests generalizing state with
  | nil => rfl
  | cons request requests ih =>
    rw [List.mapM_cons, Play.ends_bind]
    apply (hpage request state hstate).mono
    . rintro page state ⟨rfl, hstate⟩
      rw [Play.ends_bind]
      apply (ih hstate).mono
      . rintro results state rfl
        rfl
      . exact fun _ _ => id
    . exact fun _ _ => id

theorem pages_eq_windows (h : Steady run answers world) (requests : List PageRequest)
    : (pages (player run).sourcePage requests).Ends ({}, world)
          (fun results _ => results = requests.map (window answers)) (fun _ _ => False)
        ∧ (pages (freshPage run) requests).Ends world
            (fun results _ => results = requests.map (window answers)) (fun _ _ => False) := by
  constructor
  . refine pages_ends (P := fun device => device.1.Truthful answers ∧ Steady run answers device.2) ?_ requests
      ⟨Client.truthful_empty, h⟩
    rintro request ⟨client, world⟩ ⟨hclient, hsteady⟩
    rw [sourcePage_player]
    exact page_ends hsteady hclient
  . exact pages_ends (fun _ _ hsteady => freshPage_ends hsteady) requests h

def answering (answers : List String → Except Error String) : Runner (List (List String)) :=
  fun arguments log =>
    match answers arguments with
    | .ok text => .ok text (log ++ [arguments])
    | .error e => .error e (log ++ [arguments])

theorem steady_answering (log : List (List String)) : Steady (answering answers) answers log := by
  intro earlier arguments
  unfold Play.Ends answering
  cases answers arguments <;> rfl

def smallLibrary (arguments : List String) : Except Error String :=
  if arguments = listingArguments .database then
    .ok "one.flac\ntwo.flac\nthree.flac\n"
  else if arguments = listingArguments (.playlist "new") then
    .ok "four.flac\nfive.flac\n"
  else
    .error (.protocol "playlist" "no such playlist")

def crossedRequests : List PageRequest :=
  [{ source := .database, offset := 0, limit := 2 },
    { source := .playlist "new", offset := 1, limit := 1 },
    { source := .database, offset := 2, limit := 2 },
    { source := .playlist "old", offset := 1, limit := 2 },
    { source := .playlist "new", offset := 2, limit := 1 }]

theorem crossedRequests_windows
    : Steady (answering smallLibrary) smallLibrary []
      ∧ (pages (player (answering smallLibrary)).sourcePage crossedRequests).Ends ({}, [])
          (fun results _ =>
            results
              = [.ok [{ uri := "one.flac" }, { uri := "two.flac" }], .ok [{ uri := "five.flac" }],
                  .ok [{ uri := "three.flac" }], .error (.protocol "playlist" "no such playlist"), .ok []])
          (fun _ _ => False) := by
  have hsteady : Steady (answering smallLibrary) smallLibrary [] := steady_answering []
  refine ⟨hsteady, ?_⟩
  apply (pages_eq_windows hsteady crossedRequests).1.mono
  . rintro results _ rfl
    rfl
  . exact fun _ _ => id

end AutoDJ.Mpc
