import AutoDJ.Jukebox.Fill
import AutoDJ.Proofs.Play.Ends

/-!
This module contains the calls of a jukebox, one after another. Between two of them anything may happen to
the player and the history.
-/

namespace AutoDJ

variable {s : Type}

namespace Jukebox

inductive Call (s : Type) where
  | keepFilled (booth : Booth s)
  | addNow (booth : Booth s) (count : Nat) (albums : Bool)
  | invalidate
  | configure (settings : JukeboxSettings)

namespace Call

def isConfigure : Call s → Bool
  | configure _ => true
  | keepFilled _ | addNow .. | invalidate => false

def isKeepFilled : Call s → Bool
  | keepFilled _ => true
  | addNow .. | invalidate | configure _ => false

def perform (deck : Deck s) : Call s → Deck s
  | keepFilled booth => booth.keepFilled.after deck
  | addNow booth count albums => (booth.addNow count albums).after deck
  | invalidate => { deck with jukebox := deck.jukebox.invalidate }
  | configure settings => { deck with jukebox := deck.jukebox.configure settings }

end Call

structure Visit (s : Type) where
  call : Call s
  device : s

end Jukebox

namespace Deck

open Jukebox (Visit)

def visit (deck : Deck s) (visit : Visit s) : Deck s :=
  visit.call.perform { deck with device := visit.device, events := [] }

def visitAll (deck : Deck s) (visits : List (Visit s)) : Deck s :=
  visits.foldl Deck.visit deck

end Deck

namespace Jukebox

/--
A jukebox has come to this state by calls since it was created, with players and histories whose states
are of type `s`.
-/
def Reached (jukebox : Jukebox) (s : Type) : Prop :=
  ∃ partition settings random, ∃ (device : s) (visits : List (Visit s)),
    jukebox
      = (Deck.visitAll { device, jukebox := .create partition settings random } visits).jukebox

theorem Reached.induction {P : Jukebox → Prop} {jukebox : Jukebox} (h : jukebox.Reached s)
    (hcreate : ∀ partition settings random, P (.create partition settings random))
    (hcall : ∀ (call : Call s) (deck : Deck s), P deck.jukebox → P (call.perform deck).jukebox)
    : P jukebox := by
  obtain ⟨partition, settings, random, device, visits, rfl⟩ := h
  have hall (start : Deck s) (hstart : P start.jukebox) : P (start.visitAll visits).jukebox := by
    induction visits generalizing start with
    | nil => exact hstart
    | cons visit visits ih => exact ih _ (hcall visit.call _ hstart)
  exact hall _ (hcreate partition settings random)

end Jukebox

end AutoDJ
