import AutoDJ.Mpc.Output
import AutoDJ.Proofs.Text.Lines
import AutoDJ.Proofs.Text.Numeral
import AutoDJ.Proofs.Text.Words
import Mathlib.Data.List.TakeDrop

/-!
This module contains the proof that the status which `mpc` prints while a song is playing or paused is read
back if and only if the URI of that song does not begin with a bracket.

The URI is on the first line. The line with the state comes after it, but is looked for as the first line
that begins with a bracket.
-/

namespace AutoDJ.Mpc

/--
What `mpc` prints about its current song: the URI on the first line; the state, the position, the queue
length and a text about the time on the second; anything on the lines after that. There is at least one
space on either side of the position, and there may be more.
-/
structure StatusReport where
  uri : String
  uri_ne_empty : uri ≠ ""
  uri_no_linefeed : '\n' ∉ uri.toList
  uri_trimmed : Text.trim uri = uri
  paused : Bool
  indent : Nat
  position : Nat
  queueLength : UInt64
  gap : Nat
  time : String
  time_no_linefeed : '\n' ∉ time.toList
  more : String

namespace StatusReport

def state (report : StatusReport) : PlayState :=
  if report.paused then .pause else .play

def label (report : StatusReport) : String :=
  if report.paused then "[paused]" else "[playing]"

def place (report : StatusReport) : String :=
  "#" ++ (toString report.position ++ "/" ++ toString report.queueLength)

def spaces (n : Nat) : String :=
  String.ofList (List.replicate n ' ')

def front (report : StatusReport) : String :=
  report.label ++ " " ++ spaces report.indent ++ report.place

def print (report : StatusReport) : String :=
  report.uri ++ "\n" ++ report.front ++ " " ++ spaces report.gap ++ report.time ++ "\n" ++ report.more

structure Shown (report : StatusReport) (status : PlayerStatus) : Prop where
  state : status.state = report.state
  queueLength : status.queueLength = report.queueLength
  currentUri : status.currentUri = some report.uri

variable (report : StatusReport)

section Uri

theorem readField?_uri : readField? report.uri = some report.uri := by
  unfold readField?
  simp [report.uri_trimmed, report.uri_ne_empty]

theorem getLast?_uri_ne_return : report.uri.toList.getLast? ≠ some '\r' := by
  intro hlast
  rw [← report.uri_trimmed] at hlast
  exact absurd (Text.isBlank_getLast?_trim hlast) (by decide)

end Uri

section Front

theorem isBlank_of_mem_label : ∀ c ∈ report.label.toList, Text.isBlank c = false := by
  unfold label
  cases report.paused <;> simp [Text.isBlank]

theorem isBlank_of_mem_place : ∀ c ∈ report.place.toList, Text.isBlank c = false := by
  intro c hc
  simp only [place, String.toList_append, List.mem_append] at hc
  obtain hsign | (hposition | hslash) | hlength := hc
  . obtain rfl : c = '#' := by simpa using hsign
    rfl
  . exact Text.isBlank_of_isDigit (Text.isDigit_of_mem_toDigits c (by simpa using hposition))
  . obtain rfl : c = '/' := by simpa using hslash
    rfl
  . rw [Text.toList_toString_uint64] at hlength
    exact Text.isBlank_of_isDigit (Text.isDigit_of_mem_toDigits c hlength)

theorem linefeed_not_mem_front : '\n' ∉ report.front.toList := by
  intro hmem
  simp only [front, spaces, String.toList_append, String.toList_ofList, List.mem_append] at hmem
  obtain ((hlabel | hspace) | hspaces) | hplace := hmem
  . exact absurd (report.isBlank_of_mem_label _ hlabel) (by decide)
  . exact absurd hspace (by decide)
  . exact absurd (List.eq_of_mem_replicate hspaces) (by decide)
  . exact absurd (report.isBlank_of_mem_place _ hplace) (by decide)

theorem readState?_front (rest : String) : readState? (report.front ++ rest) = some report.state := by
  have hlabel : report.front ++ rest
      = report.label ++ (" " ++ spaces report.indent ++ report.place ++ rest) := by
    simp [front, String.append_assoc]
  rw [hlabel]
  unfold readState? label state
  cases report.paused with
  | false => simp
  | true =>
    have hplaying (rest : String) : Text.dropStart? "[playing]" ("[paused]" ++ rest) = none := by
      simp [Text.dropStart?, List.isPrefixOf?]
    simp [hplaying]

theorem words_front (rest : String)
    : Text.words (report.front ++ " " ++ rest) = report.label :: report.place :: Text.words rest := by
  have hchars : (report.front ++ " " ++ rest).toList
      = report.label.toList ++ ' ' :: (List.replicate report.indent ' ' ++ report.place.toList)
          ++ ' ' :: rest.toList := by
    simp [front, spaces]
  have hspace : Text.isBlank ' ' = true := rfl
  have hlabel : report.label.toList ≠ [] := by
    unfold label
    cases report.paused <;> decide
  have hplace : report.place.toList ≠ [] := by simp [place]
  unfold Text.words
  rw [hchars, Text.wordChars_append hspace, Text.wordChars_append hspace,
    Text.wordChars_blanks_append hspace,
    Text.wordChars_eq_singleton hlabel report.isBlank_of_mem_label,
    Text.wordChars_eq_singleton hplace report.isBlank_of_mem_place]
  simp

theorem readQueueLength?_place : readQueueLength? report.place = some report.queueLength := by
  have hslash : '/' ∉ (toString report.position).toList := by
    intro hmem
    have := Text.isDigit_of_mem_toDigits (n := report.position) '/' (by simpa using hmem)
    contradiction
  have hbreak
      : Text.breakOn "/" (toString report.position ++ "/" ++ toString report.queueLength)
        = some (toString report.position, toString report.queueLength) :=
    Text.breakOn_append rfl hslash
  unfold readQueueLength? place
  rw [Text.dropStart?_append, Option.bind_eq_bind, Option.bind_some, hbreak]
  exact Text.readUInt64?_toString _

end Front

theorem lines_print
    : ∃ kept, Text.lines report.print
        = report.uri :: (report.front ++ " " ++ kept) :: Text.lines report.more := by
  have hchars : report.print.toList
      = report.uri.toList ++ '\n' :: (report.front.toList
          ++ ' ' :: (List.replicate report.gap ' ' ++ report.time.toList)
          ++ '\n' :: report.more.toList) := by
    simp [print, spaces]
  have hfeed
      : '\n' ∉ report.front.toList ++ ' ' :: (List.replicate report.gap ' ' ++ report.time.toList) := by
    simp [report.linefeed_not_mem_front, report.time_no_linefeed]
  obtain ⟨kept, hkept⟩ :=
    Text.lineChars_append_of_ne report.more.toList (by decide : ' ' ≠ '\r') hfeed
  refine ⟨String.ofList kept, ?_⟩
  have hline : String.ofList (report.front.toList ++ ' ' :: kept)
      = report.front ++ " " ++ String.ofList kept := by
    apply String.toList_inj.mp
    simp
  unfold Text.lines
  rw [hchars, Text.lineChars_append report.uri_no_linefeed report.getLast?_uri_ne_return, hkept]
  simp [hline]

end StatusReport

theorem readStateLine_ok (current : Option String) {line : String} {state : PlayState}
    {queueLength : UInt64} (hstate : readState? line = some state)
    (hlength : ((Text.words line).drop 1).head?.bind readQueueLength? = some queueLength)
    : ∃ status, readStateLine current line = .ok status
      ∧ status.state = state
      ∧ status.queueLength = queueLength
      ∧ status.currentUri = current.bind readField? := by
  unfold readStateLine
  simp only [hstate, hlength]
  exact ⟨_, rfl, rfl, rfl, rfl⟩

theorem currentUri_of_readStateLine {current : Option String} {line : String} {status : PlayerStatus}
    (h : readStateLine current line = .ok status) : status.currentUri = current.bind readField? := by
  unfold readStateLine at h
  dsimp only at h
  split at h
  . split at h
    . obtain rfl := Except.ok.inj h
      rfl
    . contradiction
  . contradiction

theorem readStatus_of_lines {output line : String} (before : List String) {after : List String}
    (hlines : Text.lines output = before ++ line :: after)
    (hbefore : ∀ other ∈ before, other.toList.head? ≠ some '[') (hline : line.toList.head? = some '[')
    : readStatus output = (readStateLine before.head? line).map some := by
  have hpassed : ∀ other ∈ before, (other.toList.head? != some '[') = true := by
    simpa using hbefore
  unfold readStatus
  dsimp only
  rw [hlines, List.span_eq_takeWhile_dropWhile, List.takeWhile_append_of_pos hpassed,
    List.dropWhile_append_of_pos hpassed]
  simp [hline]

namespace StatusReport

variable (report : StatusReport)

theorem readStatus_print_of_bracket (h : report.uri.toList.head? = some '[')
    : readStatus report.print = (readStateLine none report.uri).map some := by
  obtain ⟨kept, hlines⟩ := report.lines_print
  exact readStatus_of_lines [] hlines nofun h

theorem readStatus_print_of_no_bracket (h : report.uri.toList.head? ≠ some '[')
    : ∃ status, readStatus report.print = .ok (some status) ∧ report.Shown status := by
  obtain ⟨kept, hlines⟩ := report.lines_print
  have hbracket : (report.front ++ " " ++ kept).toList.head? = some '[' := by
    unfold front label
    cases report.paused <;> simp
  have hstatus :=
    readStatus_of_lines [report.uri] hlines (List.forall_mem_singleton.mpr h) hbracket
  have hstate : readState? (report.front ++ " " ++ kept) = some report.state := by
    rw [String.append_assoc]
    exact report.readState?_front _
  have hlength
      : ((Text.words (report.front ++ " " ++ kept)).drop 1).head?.bind readQueueLength?
        = some report.queueLength := by
    rw [report.words_front, List.drop_one, List.tail_cons, List.head?_cons, Option.bind_some,
      report.readQueueLength?_place]
  obtain ⟨status, hline, hstate, hlength, huri⟩ :=
    readStateLine_ok (some report.uri) hstate hlength
  rw [Option.bind_some, report.readField?_uri] at huri
  refine ⟨status, ?_, hstate, hlength, huri⟩
  rw [hstatus, List.head?_cons, hline]
  rfl

theorem readStatus_print_iff (report : StatusReport)
    : ((∃ status, readStatus report.print = .ok (some status) ∧ report.Shown status)
        ↔ report.uri.toList.head? ≠ some '[')
      ∧ (report.uri.toList.head? = some '['
        → readStatus report.print = (readStateLine none report.uri).map some) := by
  refine ⟨⟨?_, report.readStatus_print_of_no_bracket⟩, report.readStatus_print_of_bracket⟩
  rintro ⟨status, hstatus, hshown⟩ hbracket
  rw [report.readStatus_print_of_bracket hbracket] at hstatus
  cases hline : readStateLine none report.uri with
  | error e =>
    rw [hline] at hstatus
    contradiction
  | ok read =>
    rw [hline] at hstatus
    obtain rfl := Option.some.inj (Except.ok.inj hstatus)
    have hnone := currentUri_of_readStateLine hline
    rw [hshown.currentUri] at hnone
    contradiction

def albumTrack : StatusReport where
  uri := "artist/album/song.mp3"
  uri_ne_empty := by decide
  uri_no_linefeed := by decide
  uri_trimmed := by decide
  paused := false
  indent := 0
  position := 5
  queueLength := 20
  gap := 2
  time := "1:23/3:45 (37%)"
  time_no_linefeed := by decide
  more := "volume: 80%   repeat: on    random: off   single: off   consume: off\n"

theorem albumTrack_read
    : albumTrack.uri.toList.head? ≠ some '['
      ∧ ∃ status, readStatus albumTrack.print = .ok (some status) ∧ albumTrack.Shown status := by
  have hbracket : albumTrack.uri.toList.head? ≠ some '[' := by decide
  exact ⟨hbracket, (readStatus_print_iff albumTrack).1.mpr hbracket⟩

def liveRecording : StatusReport :=
  { albumTrack with
    uri := "[live]/song.mp3"
    uri_ne_empty := by decide
    uri_no_linefeed := by decide
    uri_trimmed := by decide }

theorem liveRecording_unread
    : readStatus liveRecording.print
      = .error (.protocol "status" "unknown state line: [live]/song.mp3") := by
  rw [liveRecording.readStatus_print_of_bracket rfl]
  rfl

end StatusReport

end AutoDJ.Mpc
