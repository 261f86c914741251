import AutoDJ.Player.Basic

namespace AutoDJ.Rehearsal

structure ScriptedPages where
  /-- The pages to come; all later ones are empty. -/
  pages : List (List Song) := []
  /-- The number of the page, counted from zero, that cannot be fetched. -/
  failing : Option Nat := none
  /-- The offsets and limits asked for, the last one first. -/
  log : List (Nat × Nat) := []
  /-- The URIs of the songs that have been shown, the last one first. -/
  seen : List String := []
deriving Repr

namespace ScriptedPages

def calls (p : ScriptedPages) : List (Nat × Nat) :=
  p.log.reverse

def fetch (offset limit : Nat) : Play ScriptedPages (List Song) := do
  let p ← get
  set { p with pages := p.pages.tail, log := (offset, limit) :: p.log }
  if p.failing = some p.log.length then
    throw (.protocol "page" ("failed at " ++ toString offset))
  return p.pages.headD []

def visit (song : Song) (p : ScriptedPages) : ScriptedPages :=
  { p with seen := song.uri :: p.seen }

end ScriptedPages

end AutoDJ.Rehearsal
