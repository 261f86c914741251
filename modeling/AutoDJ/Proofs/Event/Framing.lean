import AutoDJ.Event.Line
import AutoDJ.Proofs.Json.SingleLine
import AutoDJ.Proofs.Text.Lines
import Mathlib.Data.List.Forall2

namespace AutoDJ

def Json.Value.member? (name : String) : Value → Option Value
  | .object members => members.lookup (some name)
  | _ => none

namespace Event

/--
A line tells a client of an event: it is a JSON object with the name of the event, the partition, and the message or
nothing.
-/
def IsToldBy (event : Event) (line : String) : Prop :=
  ∃ value params : Json.Value, Json.read? line = some value
    ∧ value.member? "method" = some (.ofText event.kind.name)
    ∧ value.member? "params" = some params
    ∧ params.member? "partition" = some (.ofText event.partition)
    ∧ params.member? "message" = some (event.message.elim .null Json.Value.ofText)

theorem wellFormed_notification (event : Event) : event.notification.WellFormed := by
  obtain ⟨kind, partition, message⟩ := event
  have htext (text : String) : (Json.Value.ofText text).WellFormed := .string text
  have hparams (value : Json.Value) (h : value.WellFormed)
      : (Json.Value.ofMembers [("message", value), ("partition", .ofText partition)]).WellFormed :=
    .object (by simp) (by simp [h, htext])
  cases message with
  | none => exact .object (by simp) (by simp [htext, hparams _ .null])
  | some message => exact .object (by simp) (by simp [htext, hparams _ (htext message)])

theorem isToldBy_compact (event : Event) : event.IsToldBy event.notification.compact := by
  refine ⟨event.notification, _, Json.Value.read?_compact event.wellFormed_notification, rfl, rfl, rfl, ?_⟩
  cases event.message <;> rfl

theorem isPrintable_compact (event : Event) : Json.IsPrintable event.notification.compact.toList := by
  unfold Json.Value.compact
  rw [String.toList_ofList]
  exact Json.Value.isPrintable_write event.wellFormed_notification 0

theorem lines_toLines (events : List Event)
    : Text.lines (toLines events) = events.map (·.notification.compact) := by
  induction events with
  | nil => rfl
  | cons event events ih =>
    have hfeed : '\n' ∉ event.notification.compact.toList :=
      fun hmem => absurd (event.isPrintable_compact _ hmem) (by decide)
    have hreturn : event.notification.compact.toList.getLast? ≠ some '\r' :=
      fun hlast => absurd (event.isPrintable_compact _ (List.mem_of_getLast? hlast)) (by decide)
    have hchars : (toLines (event :: events)).toList
        = event.notification.compact.toList ++ '\n' :: (toLines events).toList := by
      simp [toLines, toLine]
    unfold Text.lines at *
    rw [hchars, Text.lineChars_append hfeed hreturn, List.map_cons, String.ofList_toList, ih, List.map_cons]

theorem toLines_framed (events : List Event)
    : events.Forall₂ IsToldBy (Text.lines (toLines events))
      ∧ toLines events = String.join ((Text.lines (toLines events)).map (· ++ "\n"))
      ∧ ∀ line ∈ Text.lines (toLines events), Json.IsPrintable line.toList := by
  rw [lines_toLines]
  refine ⟨?_, ?_, ?_⟩
  . rw [List.forall₂_map_right_iff]
    exact List.forall₂_same.mpr fun event _ => event.isToldBy_compact
  . unfold toLines
    rw [List.map_map]
    rfl
  . intro line hline
    obtain ⟨event, -, rfl⟩ := List.mem_map.mp hline
    exact event.isPrintable_compact

end Event

end AutoDJ
