import AutoDJ.Player.Basic

namespace AutoDJ

inductive ProgramResult where
  /-- The program could not be started. -/
  | notStarted (reason : String)
  /-- The program has ended by itself. -/
  | exited (code : UInt8) (stdout stderr : List UInt8)
deriving Repr, DecidableEq

abbrev Launcher (ω : Type) := (program : String) → (arguments : List String) → Play ω ProgramResult

end AutoDJ
