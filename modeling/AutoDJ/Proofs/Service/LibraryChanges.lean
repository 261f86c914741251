import AutoDJ.Proofs.Service.Library
import AutoDJ.Proofs.Service.Steady
import AutoDJ.Rehearsal.Service

namespace AutoDJ

theorem BuildFlags.claim_all_of_up {flags : BuildFlags} (h : flags ≠ {})
    : (BuildFlags.claim .all).Ends flags (fun _ _ => False) (fun _ _ => True) := by
  obtain ⟨albums, stickers⟩ := flags
  cases albums with
  | true => trivial
  | false =>
    cases stickers with
    | true => trivial
    | false => contradiction

namespace Service

variable {σ ω : Type} {b : Backend σ ω} {sv : Service σ ω}

def InFlight (sv : Service σ ω) : Prop :=
  sv.exchange.flags ≠ {}

def StartsRebuild (b : Backend σ ω) (now : Moment) (sv : Service σ ω) : Prop :=
  ∃ client, (poll b now sv).builds = sv.builds ++ [{ handle := client, kinds := .all }]

theorem poll_eq (b : Backend σ ω) (sv : Service σ ω) (now : Moment)
    : ∃ partitions room, poll b now sv = { checkLibrary b sv with partitions, room } :=
  ⟨_, _, rfl⟩

theorem not_startsRebuild_of_builds_eq {now : Moment} (h : (checkLibrary b sv).builds = sv.builds)
    : ¬StartsRebuild b now sv := by
  rintro ⟨client, hbuilds⟩
  obtain ⟨partitions, room, hpoll⟩ := poll_eq b sv now
  rw [hpoll] at hbuilds
  have hlength := congrArg List.length (h.symm.trans hbuilds)
  simp at hlength

theorem requestBuild_all_of_inFlight (h : sv.InFlight)
    : ((requestBuild b .all).after sv).builds = sv.builds := by
  have hends : (requestBuild b .all).Ends sv (fun _ sv' => sv'.builds = sv.builds)
      (fun _ sv' => sv'.builds = sv.builds) := by
    unfold requestBuild
    rw [Play.ends_bind, Play.ends_get]
    cases sv.partitions with
    | nil => rfl
    | cons first rest =>
      dsimp only
      rw [Play.ends_bind, ends_claim]
      -- one flag that is up is enough for a claim on all kinds to fail
      apply (BuildFlags.claim_all_of_up h).mono
      . intro _ _ hfalse
        exact hfalse.elim
      . intros
        rfl
  exact Play.ends_after.mp hends

theorem requestBuild_all_of_idle (h : ¬sv.InFlight) (hpartitions : sv.partitions ≠ [])
    : ∃ client, ((requestBuild b .all).after sv).builds
        = sv.builds ++ [{ handle := client, kinds := .all }] := by
  have hdown : sv.exchange.flags = {} := Classical.not_not.mp h
  have hends : (requestBuild b .all).Ends sv
      (fun _ sv' => ∃ client, sv'.builds = sv.builds ++ [{ handle := client, kinds := .all }])
      (fun _ sv' => ∃ client, sv'.builds = sv.builds ++ [{ handle := client, kinds := .all }]) := by
    unfold requestBuild
    rw [Play.ends_bind, Play.ends_get]
    cases hcons : sv.partitions with
    | nil => exact absurd hcons hpartitions
    | cons first rest =>
      dsimp only
      rw [Play.ends_bind, ends_claim]
      rw [hdown]
      exact ⟨_, rfl⟩
  exact Play.ends_after.mp hends

theorem not_startsRebuild_of_inFlight {now : Moment} (h : sv.InFlight)
    : ¬StartsRebuild b now sv := by
  apply not_startsRebuild_of_builds_eq
  obtain ⟨partitions, room, hasked, -⟩ := asked_eq b sv
  cases htoken : token? b sv with
  | none => rw [checkLibrary_of_unread htoken, hasked]
  | some token =>
    rw [checkLibrary_of_read htoken, hasked]
    split
    . rw [requestBuild_all_of_inFlight]
      exact h
    . rfl

theorem partitions_ne_nil_of_read {token : String} (h : token? b sv = some token)
    : sv.partitions ≠ [] := by
  intro hnil
  rw [token?, hnil] at h
  contradiction

theorem startsRebuild_iff {now : Moment} {old new : String} (hidle : ¬sv.InFlight)
    (hold : sv.libraryToken = some old) (hnew : token? b sv = some new)
    : StartsRebuild b now sv ↔ new ≠ old := by
  obtain ⟨partitions, room, hasked, hlength⟩ := asked_eq b sv
  have hcheck := checkLibrary_of_read hnew
  rw [hold, hasked] at hcheck
  constructor
  . intro hstarts heq
    apply not_startsRebuild_of_builds_eq _ hstarts
    rw [hcheck, if_neg (by simp [heq])]
  . intro hne
    rw [if_pos (by simpa using hne.symm)] at hcheck
    have hpartitions : partitions ≠ [] := by
      have := List.length_pos_iff.mpr (partitions_ne_nil_of_read hnew)
      apply List.ne_nil_of_length_pos
      omega
    unfold StartsRebuild
    obtain ⟨partitions', room', hpoll⟩ := poll_eq b sv now
    rw [hpoll, hcheck]
    exact requestBuild_all_of_idle hidle hpartitions

theorem token_steady (token : Option String)
    : Steady b fun sv : Service σ ω => sv.libraryToken = token := by
  constructor
  . intro _ _ _ _ h
    exact h
  . intro sv delivery h
    unfold install
    dsimp only
    split <;> exact h
  . intro now name count albums sv h
    apply (fill_ends now name count albums).mono
    . rintro _ _ ⟨partitions, room, rfl⟩
      exact h
    . rintro _ _ ⟨partitions, room, rfl⟩
      exact h

theorem poll_token (now : Moment)
    : (poll b now sv).libraryToken = (token? b sv <|> sv.libraryToken) := by
  obtain ⟨partitions, room, hpoll⟩ := poll_eq b sv now
  obtain ⟨partitions', room', hasked, -⟩ := asked_eq b sv
  rw [hpoll]
  cases htoken : token? b sv with
  | none =>
    rw [checkLibrary_of_unread htoken, hasked]
    rfl
  | some token =>
    rw [checkLibrary_of_read htoken]
    split
    . exact ((token_steady (some token)).requestBuild .all).after rfl
    . rfl

def Happening.reads (b : Backend σ ω) (sv : Service σ ω) (last : Option String)
    : Happening ω → Option String
  | .operation (.poll _) => token? b sv <|> last
  | _ => last

def lastRead (b : Backend σ ω) : Service σ ω → Option String → List (Happening ω) → Option String
  | _, last, [] => last
  | sv, last, happening :: rest =>
    lastRead b (happening.run b sv) (happening.reads b sv last) rest

theorem lastRead_eq_some (happenings : List (Happening ω)) (sv : Service σ ω) (token : String)
    : ∃ read, lastRead b sv (some token) happenings = some read := by
  induction happenings generalizing sv token with
  | nil => exact ⟨token, rfl⟩
  | cons happening happenings ih =>
    have hreads : ∃ read, happening.reads b sv (some token) = some read := by
      unfold Happening.reads
      split
      . cases token? b sv with
        | none => exact ⟨token, rfl⟩
        | some read => exact ⟨read, rfl⟩
      . exact ⟨token, rfl⟩
    obtain ⟨read, hreads⟩ := hreads
    rw [lastRead, hreads]
    apply ih

theorem Happening.run_token (happening : Happening ω)
    : (happening.run b sv).libraryToken = happening.reads b sv sv.libraryToken := by
  have hsteady : Steady b fun sv' : Service σ ω => sv'.libraryToken = sv.libraryToken :=
    token_steady sv.libraryToken
  cases happening with
  | outside change => rfl
  | intervention intervention => exact hsteady.run _ (by rintro _ ⟨⟩) rfl
  | operation operation =>
    cases operation with
    | poll now => exact poll_token now
    | requestBuild _ | rebuildNow _ _ | handle _ _ _ | serve _ | drain _ =>
      exact hsteady.run _ (by rintro _ ⟨⟩) rfl

theorem afterAll_token (happenings : List (Happening ω)) (sv : Service σ ω)
    : (afterAll b sv happenings).libraryToken = lastRead b sv sv.libraryToken happenings := by
  induction happenings generalizing sv with
  | nil => rfl
  | cons happening happenings ih =>
    rw [lastRead, ← happening.run_token]
    exact ih _

def Happening.accepts (b : Backend σ ω) (sv : Service σ ω) : Happening ω → Bool
  | .operation (.rebuildNow _ kinds) =>
    match claim kinds sv with
    | .ok .. => true
    | .error .. => false
  | happening => sv.builds.length < (happening.run b sv).builds.length

def acceptsDuring (b : Backend σ ω) : Service σ ω → List (Happening ω) → Bool
  | _, [] => false
  | sv, happening :: rest => happening.accepts b sv || acceptsDuring b (happening.run b sv) rest

def PollsBusy (b : Backend σ ω) : Service σ ω → List (Happening ω) → Prop
  | _, [] => True
  | sv, .operation (.poll now) :: rest => sv.InFlight ∧ PollsBusy b (poll b now sv) rest
  | sv, happening :: rest => PollsBusy b (happening.run b sv) rest

/--
A poll notices a change of the library while a build is in flight, and so do all polls until at last no
build is in flight any more.
-/
structure Postponed (b : Backend σ ω) (sv : Service σ ω) (now : Moment)
    (meanwhile : List (Happening ω)) : Prop where
  noticed : ∃ old new, sv.libraryToken = some old ∧ token? b sv = some new ∧ new ≠ old
  refused : sv.InFlight
  busy : PollsBusy b (poll b now sv) meanwhile
  idle : ¬(afterAll b (poll b now sv) meanwhile).InFlight
  readable : (token? b (afterAll b (poll b now sv) meanwhile)).isSome = true

/--
A poll that notices a change while a build is in flight starts nothing. The first poll after it that
finds no build in flight starts a rebuild only if it reads yet another token than the poll before it,
so that a change is forgotten unless another one follows or somebody asks for a build.
-/
theorem rebuild_after_postponed_iff {now : Moment} {meanwhile : List (Happening ω)}
    (h : Postponed b sv now meanwhile) (later : Moment)
    : let noticed := poll b now sv
      let last := afterAll b noticed meanwhile
      ¬StartsRebuild b now sv
        ∧ (StartsRebuild b later last ∨ acceptsDuring b noticed meanwhile
            ↔ token? b last ≠ lastRead b noticed (token? b sv) meanwhile
              ∨ acceptsDuring b noticed meanwhile) := by
  intro noticed last
  refine ⟨not_startsRebuild_of_inFlight h.refused, ?_⟩
  -- whether a build has been accepted meanwhile makes no difference to the last poll
  apply or_congr_left
  obtain ⟨old, new, -, hnew, -⟩ := h.noticed
  obtain ⟨token, htoken⟩ := Option.isSome_iff_exists.mp h.readable
  obtain ⟨read, hread⟩ := lastRead_eq_some meanwhile noticed new
  have hlast : last.libraryToken = some read := by
    rw [afterAll_token, poll_token, hnew]
    exact hread
  rw [hnew, hread, startsRebuild_iff h.idle hlast htoken]
  unfold last
  rw [htoken]
  simp

def noon : Moment :=
  { unix := 0 }

def changing : Service Nat Rehearsal.Stage :=
  afterAll Rehearsal.backend (Rehearsal.service { updated := "t1" })
    [.operation (.poll noon), .operation (.requestBuild .all), .outside (Rehearsal.Stage.update "t2")]

def catchingUp : List (Happening Rehearsal.Stage) :=
  List.replicate buildSteps (.intervention (.build 0 0)) ++ [.operation (.drain noon)]

def noticed : Service Nat Rehearsal.Stage :=
  poll Rehearsal.backend noon changing

def caughtUp : Service Nat Rehearsal.Stage :=
  afterAll Rehearsal.backend noticed catchingUp

theorem changing_noticed
    : ∃ old new, changing.libraryToken = some old ∧ token? Rehearsal.backend changing = some new
        ∧ new ≠ old :=
  ⟨"t1", "t2", by rfl, by rfl, by decide⟩

theorem changing_inFlight : changing.InFlight := by
  have hflags : changing.exchange.flags = { albums := true, stickers := true } := by rfl
  simp [InFlight, hflags]

theorem caughtUp_idle : ¬caughtUp.InFlight := by
  have hflags : caughtUp.exchange.flags = {} := by rfl
  simp [InFlight, hflags]

theorem change_forgotten
    : Postponed Rehearsal.backend changing noon catchingUp
        ∧ ¬(StartsRebuild Rehearsal.backend noon caughtUp
          ∨ acceptsDuring Rehearsal.backend noticed catchingUp = true) := by
  have hread : caughtUp.libraryToken = some "t2" := by rfl
  have htoken : token? Rehearsal.backend caughtUp = some "t2" := by rfl
  have hnone : acceptsDuring Rehearsal.backend noticed catchingUp = false := by rfl
  constructor
  . refine ⟨changing_noticed, changing_inFlight, trivial, caughtUp_idle, ?_⟩
    exact Option.isSome_iff_exists.mpr ⟨"t2", htoken⟩
  . rw [startsRebuild_iff caughtUp_idle hread htoken, hnone]
    simp

def changedAgain : Service Nat Rehearsal.Stage :=
  afterAll Rehearsal.backend noticed (catchingUp ++ [.outside (Rehearsal.Stage.update "t3")])

theorem rebuild_after_second_change
    : Postponed Rehearsal.backend changing noon
          (catchingUp ++ [.outside (Rehearsal.Stage.update "t3")])
        ∧ (StartsRebuild Rehearsal.backend noon changedAgain
          ∨ acceptsDuring Rehearsal.backend noticed
              (catchingUp ++ [.outside (Rehearsal.Stage.update "t3")]) = true) := by
  have htoken : token? Rehearsal.backend changedAgain = some "t3" := by rfl
  have hread
      : lastRead Rehearsal.backend noticed (token? Rehearsal.backend changing)
          (catchingUp ++ [.outside (Rehearsal.Stage.update "t3")]) = some "t2" := by
    rfl
  have hpostponed
      : Postponed Rehearsal.backend changing noon
          (catchingUp ++ [.outside (Rehearsal.Stage.update "t3")]) := by
    refine ⟨changing_noticed, changing_inFlight, trivial, caughtUp_idle, ?_⟩
    exact Option.isSome_iff_exists.mpr ⟨"t3", htoken⟩
  have hdiffers : token? Rehearsal.backend changedAgain ≠ some "t2" := by
    rw [htoken]
    decide
  refine ⟨hpostponed, (rebuild_after_postponed_iff hpostponed noon).2.mpr (.inl ?_)⟩
  intro hsame
  exact hdiffers (hsame.trans hread)

end Service

end AutoDJ
