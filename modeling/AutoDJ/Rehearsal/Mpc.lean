import AutoDJ.Mpc.Client
import AutoDJ.Text.Lines

namespace AutoDJ.Rehearsal

inductive Utterance where
  | text (text : String)
  | failure (reason : String)
deriving Repr, DecidableEq

/--
The answers to some arguments. They are given one after another, and the last one again and again.
-/
structure Line where
  arguments : List String
  answers : List Utterance
deriving Repr, DecidableEq

structure ScriptedMpc where
  lines : List Line := []
  /-- The arguments of all runs, the last one first. -/
  log : List (List String) := []
deriving Repr

namespace ScriptedMpc

def calls (m : ScriptedMpc) : List (List String) :=
  m.log.reverse

def clearCalls (m : ScriptedMpc) : ScriptedMpc :=
  { m with log := [] }

def cue : List String → List String
  | "-f" :: _ :: rest => rest
  | arguments => arguments

def answer (arguments : List String) : List Line → Option Utterance × List Line
  | [] => (none, [])
  | line :: lines =>
    if line.arguments = arguments then
      match line.answers with
      | first :: second :: rest => (some first, { line with answers := second :: rest } :: lines)
      | answers => (answers.head?, line :: lines)
    else
      let (found, lines) := answer arguments lines
      (found, line :: lines)

def runner : Mpc.Runner ScriptedMpc := fun arguments => do
  let m ← get
  let (found, lines) := answer (cue arguments) m.lines
  set { m with lines, log := arguments :: m.log }
  match found with
  | some (.text text) => return text
  | some (.failure reason) => throw (.protocol (Text.joinWith " " arguments) reason)
  | none => throw (.protocol (Text.joinWith " " arguments) "no answer")

end ScriptedMpc

end AutoDJ.Rehearsal
