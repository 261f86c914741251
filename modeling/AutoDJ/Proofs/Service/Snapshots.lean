import AutoDJ.Proofs.Jukebox.Vetting
import AutoDJ.Proofs.Service.Library
import AutoDJ.Proofs.Service.Steady
import AutoDJ.Rehearsal.Service

namespace AutoDJ

namespace Partition

variable {σ ω : Type} {b : Backend σ ω} {caches : Caches} {pageSize : Nat} {now : Int64}

theorem fill_keeps_upToDate {method : Booth (σ × ω) → Play (Deck (σ × ω)) Nat}
    (hmethod : ∀ booth, (method booth).Keeps (·.jukebox.UpToDate booth.caches))
    : (fill b caches pageSize now method).Keeps (·.1.jukebox.UpToDate caches) := by
  rintro ⟨p, room⟩ h
  let booth : Booth (σ × ω) :=
    { player := b.player
      playedSince := fun since => Play.onSnd (room.history.urisSince b.tail since)
      caches
      pageSize
      now }
  have hdeck := hmethod booth
    { device := (p.handle, room.world)
      jukebox := p.jukebox
      events := room.events
      overflowed := room.overflowed } h
  unfold fill Play.Ends
  unfold Play.Ends at hdeck
  dsimp only
  split at hdeck
  . next heq =>
    rw [heq]
    exact hdeck
  . next heq =>
    rw [heq]
    exact hdeck

theorem noteSong_jukebox (current : Option String) (p : Partition σ) (room : Room ω)
    : (noteSong b now current p room).1.jukebox = p.jukebox := by
  unfold noteSong
  split <;> rfl

theorem poll_keeps_upToDate (p : Partition σ) (room : Room ω) (h : p.jukebox.UpToDate caches)
    : (p.poll b caches pageSize now room).1.jukebox.UpToDate caches := by
  unfold poll
  split
  . exact h
  . next status handle world heq =>
    dsimp only
    generalize hnoted : noteSong b now status.currentUri { p with handle } { room with world } = noted
    have hp : noted.1.jukebox.UpToDate caches := by
      rw [← hnoted, noteSong_jukebox]
      exact h
    have hfilled : (fill b caches pageSize now Booth.keepFilled).Ends (noted.1, noted.2) _ _ :=
      fill_keeps_upToDate (fun _ => Booth.keepFilled_keeps_upToDate) noted hp
    split
    . next heq => exact hfilled.of_ok heq
    . next heq => exact hfilled.of_error heq

theorem pollAll_keeps_upToDate (ps : List (Partition σ)) (room : Room ω)
    (h : ∀ p ∈ ps, p.jukebox.UpToDate caches)
    : ∀ p ∈ (pollAll b caches pageSize now ps room).1, p.jukebox.UpToDate caches := by
  induction ps generalizing room with
  | nil => exact h
  | cons p ps ih =>
    obtain ⟨hp, hps⟩ := List.forall_mem_cons.mp h
    unfold pollAll
    exact List.forall_mem_cons.mpr ⟨poll_keeps_upToDate p room hp, ih _ hps⟩

end Partition

namespace Service

variable {σ ω : Type} {b : Backend σ ω} {sv : Service σ ω}

def UpToDate (sv : Service σ ω) : Prop :=
  ∀ p ∈ sv.partitions, p.jukebox.UpToDate sv.caches

theorem install_keeps_upToDate (delivery : Delivery) (h : sv.UpToDate)
    : (sv.install delivery).UpToDate := by
  unfold install
  dsimp only
  split
  . exact h
  . -- all candidates are dropped before a snapshot is put to use
    have hcleared (caches : Caches) (ps : List (Partition σ))
        : ∀ p ∈ ps.map fun p => { p with jukebox := p.jukebox.invalidate },
          p.jukebox.UpToDate caches := by
      intro p hp
      obtain ⟨p, -, rfl⟩ := List.mem_map.mp hp
      exact .of_empty rfl rfl
    cases delivery with
    | albums index | stickers index =>
      cases index with
      | none => exact h
      | some index => exact hcleared _ _

theorem UpToDate.replace {sv' : Service σ ω} {before after : List (Partition σ)} {p p' : Partition σ}
    (h : sv.UpToDate) (hpartitions : sv.partitions = before ++ p :: after)
    (hpartitions' : sv'.partitions = before ++ p' :: after) (hcaches : sv'.caches = sv.caches)
    (hp' : p'.jukebox.UpToDate sv.caches) : sv'.UpToDate := by
  unfold UpToDate at *
  rw [hpartitions] at h
  rw [hpartitions', hcaches]
  intro q hq
  obtain hq | hq := List.mem_append.mp hq
  . exact h q (List.mem_append_left _ hq)
  . obtain rfl | hq := List.mem_cons.mp hq
    . exact hp'
    . exact h q (List.mem_append_right _ (List.mem_cons_of_mem _ hq))

theorem fill_keeps_upToDate (now : Moment) (name : String) (count : Nat) (albums : Bool)
    : (fill b now name count albums).Keeps UpToDate := by
  intro sv h
  have hreplaces := fill_replaces (b := b) now name count albums fun p hp =>
    Partition.fill_keeps_upToDate (fun _ => Booth.addNow_keeps_upToDate count albums) (p, sv.room) (h p hp)
  apply hreplaces.imp
  rintro sv' (rfl | ⟨before, p, after, p', room, hpartitions, hp', rfl⟩)
  . exact h
  . exact h.replace hpartitions rfl rfl hp'

theorem configure_keeps_upToDate (name : String) (settings : JukeboxSettings) (h : sv.UpToDate)
    : (sv.configure name settings).UpToDate := by
  unfold configure
  split
  . exact h
  . next before p after hspan =>
    exact h.replace (partitions_of_span hspan) rfl rfl (.of_empty rfl rfl)

theorem upToDate_steady : Steady b (UpToDate : Service σ ω → Prop) := by
  constructor
  . intro _ _ _ _ h
    exact h
  . exact fun _ delivery => install_keeps_upToDate delivery
  . exact fill_keeps_upToDate

theorem asked_keeps_upToDate (h : sv.UpToDate) : (asked b sv).UpToDate := by
  unfold UpToDate at h
  unfold asked
  split
  . exact h
  . next first rest hpartitions =>
    rw [hpartitions] at h
    obtain ⟨hfirst, hrest⟩ := List.forall_mem_cons.mp h
    split <;> exact List.forall_mem_cons.mpr ⟨hfirst, hrest⟩

theorem checkLibrary_keeps_upToDate (h : sv.UpToDate) : (checkLibrary b sv).UpToDate := by
  have hasked := asked_keeps_upToDate (b := b) h
  cases htoken : token? b sv with
  | none =>
    rw [checkLibrary_of_unread htoken]
    exact hasked
  | some token =>
    rw [checkLibrary_of_read htoken]
    split
    . exact (upToDate_steady.requestBuild .all).after hasked
    . exact hasked

theorem poll_keeps_upToDate (now : Moment) (h : sv.UpToDate) : (poll b now sv).UpToDate :=
  Partition.pollAll_keeps_upToDate _ _ (checkLibrary_keeps_upToDate h)

/--
The states that a player service comes to by whatever can happen to it, by changes of the settings, and
by coming to its end.
-/
inductive Course (b : Backend σ ω) (start : Service σ ω) : Service σ ω → Prop where
  | start : Course b start start
  | happen {reached : Service σ ω} (h : Course b start reached) (happening : Happening ω)
    : Course b start (happening.run b reached)
  | configure {reached : Service σ ω} (h : Course b start reached) (name : String)
    (settings : JukeboxSettings)
    : Course b start (reached.configure name settings)
  | finish {reached : Service σ ω} (h : Course b start reached)
    : Course b start ((Service.finish b).after reached)

theorem candidates_agree {start : Service σ ω}
    (hstart : ∀ p ∈ start.partitions, p.jukebox.waiting = [] ∧ p.jukebox.scratch = [])
    (h : Course b start sv)
    : ∀ p ∈ sv.partitions, ∀ c ∈ p.jukebox.waiting ++ p.jukebox.scratch,
        sv.caches.Vouches p.jukebox.settings.ignoreHated c := by
  have hsv : sv.UpToDate := by
    induction h with
    | start =>
      intro p hp
      exact .of_empty (hstart p hp).1 (hstart p hp).2
    | happen _ happening ih =>
      exact upToDate_steady.run happening (fun now _ => poll_keeps_upToDate now ih) ih
    | configure _ name settings ih => exact configure_keeps_upToDate name settings ih
    | finish _ ih => exact upToDate_steady.finish.after ih
  intro p hp c hc
  obtain hc | hc := List.mem_append.mp hc
  . exact hsv p hp .waiting c hc
  . exact hsv p hp .scratch c hc

def shelved : Service Nat Rehearsal.Stage :=
  Rehearsal.service
    { library := ["one", "two", "three"].map fun album => { uri := album ++ ".flac", album := some album } }

def shelved.playing : Service Nat Rehearsal.Stage :=
  poll Rehearsal.backend { unix := 0 }
    ((rebuildNow Rehearsal.backend { unix := 0 } .all).after
      (shelved.configure "default" { mode := .addAlbums, ignoreHated := true }))

theorem shelved_candidates_agree
    : (∀ p ∈ shelved.partitions, p.jukebox.waiting = [] ∧ p.jukebox.scratch = [])
      ∧ Course Rehearsal.backend shelved shelved.playing
      ∧ (∃ p ∈ shelved.playing.partitions, p.jukebox.waiting ≠ [])
      ∧ ∀ p ∈ shelved.playing.partitions, ∀ c ∈ p.jukebox.waiting ++ p.jukebox.scratch,
          shelved.playing.caches.Vouches p.jukebox.settings.ignoreHated c := by
  have hstart : ∀ p ∈ shelved.partitions, p.jukebox.waiting = [] ∧ p.jukebox.scratch = [] := by
    intro p hp
    obtain rfl := List.mem_singleton.mp hp
    exact ⟨rfl, rfl⟩
  have hcourse : Course Rehearsal.backend shelved shelved.playing :=
    ((Course.start.configure "default" { mode := .addAlbums, ignoreHated := true }).happen
      (.operation (.rebuildNow { unix := 0 } .all))).happen (.operation (.poll { unix := 0 }))
  have hwaiting : ∃ p ∈ shelved.playing.partitions, p.jukebox.waiting ≠ [] := by
    decide +kernel
  exact ⟨hstart, hcourse, hwaiting, candidates_agree hstart hcourse⟩

end Service

end AutoDJ
